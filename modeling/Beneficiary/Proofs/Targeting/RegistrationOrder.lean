import Beneficiary.Proofs.Store.Portraits
import Beneficiary.Proofs.Targeting.Accounting
import Beneficiary.Proofs.Targeting.Agreement

/-!
# Orders of registration

Households that are registered in another order, or with their members stated in another order, take
other identifiers and other places in the tables. A request sees none of this: it asks for
portraits, and a population lists these by registration id.
-/

namespace Beneficiary

/-- An exclusion list is about registration ids and never about the numbers of a record. -/
theorem ExclusionFilter.excludes_unnumbered (filter : ExclusionFilter) (record : HouseholdRecord) :
    filter.excludes record.unnumbered = filter.excludes record := by
  unfold excludes HouseholdRecord.unnumbered
  cases filter.mode with
  | household => rfl
  | person => exact List.any_map

/-- A record is targeted by registration ids and never by its numbers. -/
theorem HouseholdRecord.targetIds_unnumbered (record : HouseholdRecord) (mode : ProgramMode) :
    record.unnumbered.targetIds mode = record.targetIds mode := by
  cases mode with
  | household => rfl
  | person =>
    unfold targetIds unnumbered
    dsimp only
    rw [List.filter_map, List.map_map]
    rfl

/-- A compiled request cannot tell records of the same portrait apart. -/
theorem Targeting.alike_of_portrait_eq {resolve : Resolver} {asOf : Date} {criteria : Criteria}
    {targeting : Targeting} (hpredicate : criteria.compile resolve asOf = .ok targeting.predicate)
    {a b : HouseholdRecord} (hsame : a.portrait = b.portrait) (mode : ProgramMode) :
    targeting.Alike mode a b := by
  have hrecord : a.unnumbered = b.unnumbered := congrArg HouseholdRecord.Portrait.record hsame
  constructor
  · rw [qualifies, qualifies, Bool.eq_iff_iff, Criteria.holds_iff hpredicate,
      Criteria.holds_iff hpredicate]
    exact ⟨.of_portrait_eq hsame, .of_portrait_eq hsame.symm⟩
  · rw [← targeting.exclusions.excludes_unnumbered, hrecord,
      targeting.exclusions.excludes_unnumbered]
  · rw [← a.targetIds_unnumbered, hrecord, b.targetIds_unnumbered]

namespace NewHousehold

/-- The same households are stated in another order, each with its members in another order. -/
def SameUpToOrder (inputs others : List NewHousehold) : Prop :=
  ∃ between, inputs.Perm between ∧ List.Forall₂ SameButOrder between others

/-- Regular households are stated with the same portraits, in whichever order. -/
theorem SameUpToOrder.map_portrait_perm {inputs others : List NewHousehold}
    (h : SameUpToOrder inputs others) {mode : ProgramMode}
    (hregular : ∀ input ∈ inputs, input.IsRegular mode) :
    (inputs.map (portrait mode)).Perm (others.map (portrait mode)) := by
  obtain ⟨between, hperm, hmembers⟩ := h
  have hregular : ∀ input ∈ between, input.IsRegular mode := by
    intro input hinput
    exact hregular input (hperm.mem_iff.mpr hinput)
  have hsame : between.map (portrait mode) = others.map (portrait mode) := by
    clear hperm
    induction hmembers with
    | nil => rfl
    | cons hfirst _ ih =>
      obtain ⟨hinput, hrest⟩ := List.forall_mem_cons.mp hregular
      rw [List.map_cons, List.map_cons, portrait_eq_of_sameButOrder hfirst hinput, ih hrest]
  rw [← hsame]
  exact hperm.map _

end NewHousehold

namespace Store

variable {s t u : Store} {programId : Uuid} {first second : List (Moment × NewHousehold)}

/-- Whichever the order of registration, the population of a program shows the same portraits. -/
theorem map_portrait_population_eq (hs : s.Reachable)
    (hsame : NewHousehold.SameUpToOrder (first.map Prod.snd) (second.map Prod.snd))
    (ht : s.registerInTurn programId first = .ok t)
    (hu : s.registerInTurn programId second = .ok u) {program : Program}
    (hprogram : s.program? programId = some program) :
    (t.population programId).map HouseholdRecord.portrait =
      (u.population programId).map HouseholdRecord.portrait := by
  obtain ⟨-, hpopulated⟩ := (hs.after (after_of_registerInTurn ht)).invariants
  obtain ⟨-, hpopulated'⟩ := (hs.after (after_of_registerInTurn hu)).invariants
  obtain ⟨hkeyed, hs⟩ := hs.invariants
  obtain ⟨hregular, hportraits⟩ := portraits_registerInTurn hkeyed hs hprogram ht
  obtain ⟨-, hportraits'⟩ := portraits_registerInTurn hkeyed hs hprogram hu
  have hperm : (t.portraits programId).Perm (u.portraits programId) := by
    have hadded := hsame.map_portrait_perm (List.forall_mem_map.mpr hregular)
    rw [List.map_map, List.map_map] at hadded
    rw [hportraits, hportraits']
    exact hadded.append_left _
  rw [map_portrait_population hpopulated, map_portrait_population hpopulated']
  exact sortedBy_eq_of_perm (nodup_map_unicefId_portraits hpopulated programId) hperm

/-- The order of registration does not matter. When the same households are registered in a program
in two orders, each with its members stated in any order and all without a refusal, a request is
accepted or refused alike afterwards, and has the same preview on every date: it counts the same
candidates and lists the same ids in the same order, although identifiers were handed out
differently. A request that is accepted has a preview. -/
theorem registration_order_irrelevant (hs : s.Reachable)
    (hsame : NewHousehold.SameUpToOrder (first.map Prod.snd) (second.map Prod.snd))
    (ht : s.registerInTurn programId first = .ok t)
    (hu : s.registerInTurn programId second = .ok u) (request : TargetingRequest) (asOf : Date) :
    t.validate programId request asOf = u.validate programId request asOf ∧
      t.preview programId request asOf = u.preview programId request asOf ∧
      ∀ day summary, t.validate programId request day = .ok summary →
        ∃ preview, t.preview programId request asOf = .ok preview := by
  have hcompile := compileTargeting_registerInTurn ht programId request asOf
  have hcompile' := compileTargeting_registerInTurn hu programId request asOf
  refine ⟨?_, ?_, ?_⟩
  · rw [validate, hcompile, validate, hcompile']
  · cases hcompiled : s.compileTargeting programId request asOf with
    | error failure =>
      rw [preview, hcompile, preview, hcompile', hcompiled]
      rfl
    | ok result =>
      obtain ⟨program, targeting⟩ := result
      obtain ⟨hprogram, exclusions, -, hpredicate, -⟩ := compileTargeting_eq_ok_iff.mp hcompiled
      have hportraits := map_portrait_population_eq hs hsame ht hu hprogram
      have halike : List.Forall₂ (targeting.Alike program.mode) (t.population programId)
          (u.population programId) := by
        rw [← List.forall₂_eq_eq_eq, List.forall₂_map_left_iff, List.forall₂_map_right_iff]
          at hportraits
        exact hportraits.imp fun _ _ h => Targeting.alike_of_portrait_eq hpredicate h program.mode
      rw [preview_of_compileTargeting (hcompile.trans hcompiled),
        preview_of_compileTargeting (hcompile'.trans hcompiled),
        TargetingPreview.of_alike halike asOf]
  · intro day summary haccepted
    obtain ⟨program, targeting, hcompiled, -⟩ :=
      exists_compileTargeting_of_validate haccepted asOf
    exact ⟨_, preview_of_compileTargeting hcompiled⟩

/-- Two families that arrive, the one that counts two first. -/
def arrivals : List (Moment × NewHousehold) :=
  [(exampleMoment, exampleHousehold "HH-6" ["IND-8", "IND-7"]),
    (exampleMoment, exampleHousehold "HH-5" ["IND-6"])]

/-- The same families in the other order a year later, and the first with its members reversed. -/
def reversedArrivals : List (Moment × NewHousehold) :=
  let later : Moment := { exampleMoment with date := ⟨2025, 7, 1, by decide⟩ }
  let family := exampleHousehold "HH-6" ["IND-8", "IND-7"]
  [(later, exampleHousehold "HH-5" ["IND-6"]),
    (later, { family with members := family.members.reverse })]

/-- A request for families of two at least that women head. -/
def familyRequest : TargetingRequest :=
  { criteria :=
      { rules :=
          [{ householdFilters := [.core "size" .greaterThan ["1"]]
             blocks := [{ headOnly := true, filters := [.core "sex" .equals ["FEMALE"]] }] }] }
    exclusions := none }

-- the families take other identifiers in the other order
example :
    ((exampleStore.registerInTurn (idAfter 7) arrivals).toOption.map fun t =>
        t.households.map fun h => (h.unicefId, h.id)) ≠
      ((exampleStore.registerInTurn (idAfter 7) reversedArrivals).toOption.map fun u =>
        u.households.map fun h => (h.unicefId, h.id)) := by
  decide +kernel

/-- In either order the families that arrive are targeted alike. -/
theorem arrivals_in_either_order :
    exampleStore.Reachable ∧
      NewHousehold.SameUpToOrder (arrivals.map Prod.snd) (reversedArrivals.map Prod.snd) ∧
      ∃ t u, exampleStore.registerInTurn (idAfter 7) arrivals = .ok t ∧
        exampleStore.registerInTurn (idAfter 7) reversedArrivals = .ok u ∧
        t.validate (idAfter 7) familyRequest exampleMoment.date =
          .ok { rules := 1, householdFilters := 1, blocks := 1, excludedIds := 0 } ∧
        ∃ preview, t.preview (idAfter 7) familyRequest exampleMoment.date = .ok preview ∧
          u.preview (idAfter 7) familyRequest exampleMoment.date = .ok preview := by
  have hsame : NewHousehold.SameUpToOrder (arrivals.map Prod.snd)
      (reversedArrivals.map Prod.snd) := by
    refine ⟨_, .swap _ _ _, .cons ⟨_, .refl _, rfl⟩ (.cons ⟨_, ?_, rfl⟩ .nil)⟩
    exact (List.reverse_perm _).symm
  have hfirst : ((exampleStore.registerInTurn (idAfter 7) arrivals).toOption.bind fun t =>
      (t.validate (idAfter 7) familyRequest exampleMoment.date).toOption) =
        some { rules := 1, householdFilters := 1, blocks := 1, excludedIds := 0 } := by
    decide +kernel
  have hsecond : (exampleStore.registerInTurn (idAfter 7) reversedArrivals).toOption.isSome =
      true := by
    decide +kernel
  obtain ⟨t, ht, haccepted⟩ := Option.bind_eq_some_iff.mp hfirst
  obtain ⟨u, hu⟩ := Option.isSome_iff_exists.mp hsecond
  have ht := toOption_eq_some_iff.mp ht
  have hu := toOption_eq_some_iff.mp hu
  have haccepted := toOption_eq_some_iff.mp haccepted
  obtain ⟨-, hpreviews, hexists⟩ := registration_order_irrelevant exampleStore_reachable hsame ht hu
    familyRequest exampleMoment.date
  obtain ⟨preview, hpreview⟩ := hexists _ _ haccepted
  exact ⟨exampleStore_reachable, hsame, t, u, ht, hu, haccepted, preview, hpreview,
    hpreviews.symm.trans hpreview⟩

end Store

end Beneficiary
