import Beneficiary.Proofs.Keys
import Beneficiary.Proofs.Store.Reachable

/-!
# Identifiers of a store

A source hands out no identifier twice, so those of programs, households and individuals are
distinct in every reachable store, whatever the source. A withdrawal or a recorded round changes entities
one by one and leaves what they were registered with.
-/

namespace Beneficiary

namespace Store

/-- Whether an identifier has been handed out. -/
def HasIssued (s : Store) (id : Uuid) : Prop := ∃ count < s.issued, id = s.ids.after count

/-- Entities of one kind have distinct identifiers, all of them handed out. -/
structure Keyed (s : Store) : Prop where
  programs : (s.programs.map Program.id).Nodup
  households : (s.households.map Household.id).Nodup
  individuals : (s.individuals.map Individual.id).Nodup
  programs_issued : ∀ p ∈ s.programs, s.HasIssued p.id
  households_issued : ∀ h ∈ s.households, s.HasIssued h.id
  individuals_issued : ∀ i ∈ s.individuals, s.HasIssued i.id

/-- Identifiers of different numbers are different. -/
theorem ids_injective (ids : IdSource) : Function.Injective ids.after := fun _ _ => ids.distinct

/-- The next identifier has not been handed out. -/
theorem not_hasIssued_nextId (s : Store) : ¬ s.HasIssued s.nextId := by
  rintro ⟨count, hlt, h⟩
  have := s.ids.distinct h
  omega

/-- What a source has handed out stays handed out. -/
theorem HasIssued.mono {s t : Store} (hle : s.issued ≤ t.issued) {id : Uuid}
    (h : s.HasIssued id) (hids : s.ids = t.ids := by rfl) : t.HasIssued id := by
  obtain ⟨count, hlt, rfl⟩ := h
  exact ⟨count, by omega, by rw [hids]⟩

/-- Members are registered in order, each under the identifier of its number. -/
theorem registeredAll_eq (ids : IdSource) (householdId : Uuid) (count : Nat)
    (persons : List NewIndividual) :
    NewIndividual.registeredAll ids householdId count persons =
      (persons.zipIdx count).map fun entry => entry.1.registered (ids.after entry.2) householdId := by
  induction persons generalizing count with
  | nil => rfl
  | cons person rest ih => simp [NewIndividual.registeredAll, ih, List.zipIdx_cons]

/-- Members are registered under the identifiers that follow. -/
theorem map_id_registeredAll (ids : IdSource) (householdId : Uuid) (count : Nat)
    (persons : List NewIndividual) :
    (NewIndividual.registeredAll ids householdId count persons).map Individual.id =
      (List.range' count persons.length).map ids.after := by
  rw [registeredAll_eq, List.map_map, ← List.zipIdx_map_snd, List.map_map]
  rfl

/-- Members are registered under the ids that were stated. -/
theorem map_unicefId_registeredAll (ids : IdSource) (householdId : Uuid) (count : Nat)
    (persons : List NewIndividual) :
    (NewIndividual.registeredAll ids householdId count persons).map Individual.unicefId =
      persons.map NewIndividual.unicefId := by
  induction persons generalizing count with
  | nil => rfl
  | cons person rest ih =>
    rw [NewIndividual.registeredAll, List.map_cons, ih, List.map_cons]
    rfl

/-- The registered members are the persons, each under the identifier that follows as many others as
stand before the person. -/
theorem mem_registeredAll {ids : IdSource} {householdId : Uuid} {count : Nat}
    {persons : List NewIndividual} {i : Individual} :
    i ∈ NewIndividual.registeredAll ids householdId count persons ↔
      ∃ (n : Nat) (person : NewIndividual), persons[n]? = some person ∧
        i = person.registered (ids.after (count + n)) householdId := by
  rw [registeredAll_eq, List.mem_map]
  constructor
  · rintro ⟨⟨person, n⟩, hmem, rfl⟩
    obtain ⟨hle, hperson⟩ := List.mk_mem_zipIdx_iff_le_and_getElem?_sub.mp hmem
    exact ⟨n - count, person, hperson, by rw [Nat.add_sub_cancel' hle]⟩
  · rintro ⟨n, person, hperson, rfl⟩
    refine ⟨⟨person, count + n⟩, ?_, rfl⟩
    rw [List.mk_mem_zipIdx_iff_le_and_getElem?_sub]
    exact ⟨by omega, by rwa [Nat.add_sub_cancel_left]⟩

/-- The store with each household and each individual changed on its own. -/
def revise (s : Store) (f : Household → Household) (g : Individual → Individual) : Store :=
  { s with households := s.households.map f, individuals := s.individuals.map g }

/-- A change of a household that at most withdraws or restores it. -/
def KeepsHousehold (f : Household → Household) : Prop :=
  ∀ h, ∃ withdrawn, f h = { h with withdrawn }

/-- A change of an individual in the program's own attributes and in being withdrawn at most. -/
def KeepsIndividual (g : Individual → Individual) : Prop :=
  ∀ i, ∃ flexFields withdrawn, g i = { i with flexFields, withdrawn }

section Keeps

variable {f : Household → Household} {g : Individual → Individual}

/-- Such a change keeps the identifier of a household. -/
theorem KeepsHousehold.id_eq (hf : KeepsHousehold f) (h : Household) : (f h).id = h.id := by
  obtain ⟨w, hw⟩ := hf h
  rw [hw]

/-- Such a change keeps a household in its program. -/
theorem KeepsHousehold.programId_eq (hf : KeepsHousehold f) (h : Household) :
    (f h).programId = h.programId := by
  obtain ⟨w, hw⟩ := hf h
  rw [hw]

/-- Such a change keeps the registration id of a household. -/
theorem KeepsHousehold.unicefId_eq (hf : KeepsHousehold f) (h : Household) :
    (f h).unicefId = h.unicefId := by
  obtain ⟨w, hw⟩ := hf h
  rw [hw]

/-- Such a change keeps the head of a household. -/
theorem KeepsHousehold.headId_eq (hf : KeepsHousehold f) (h : Household) :
    (f h).headId = h.headId := by
  obtain ⟨w, hw⟩ := hf h
  rw [hw]

/-- Such a change keeps the identifier of an individual. -/
theorem KeepsIndividual.id_eq (hg : KeepsIndividual g) (i : Individual) : (g i).id = i.id := by
  obtain ⟨fields, w, hw⟩ := hg i
  rw [hw]

/-- Such a change keeps an individual in its household. -/
theorem KeepsIndividual.householdId_eq (hg : KeepsIndividual g) (i : Individual) :
    (g i).householdId = i.householdId := by
  obtain ⟨fields, w, hw⟩ := hg i
  rw [hw]

/-- Such a change keeps the registration id of an individual. -/
theorem KeepsIndividual.unicefId_eq (hg : KeepsIndividual g) (i : Individual) :
    (g i).unicefId = i.unicefId := by
  obtain ⟨fields, w, hw⟩ := hg i
  rw [hw]

/-- A household is found after a change as what it became. -/
theorem household?_revise (hf : KeepsHousehold f) (s : Store) (g : Individual → Individual)
    (id : Uuid) : (s.revise f g).household? id = (s.household? id).map f := by
  have htest : (fun h : Household => h.id == id) ∘ f = fun h => h.id == id := by
    funext h
    rw [Function.comp_apply, hf.id_eq]
  rw [household?, revise, List.find?_map, htest]
  rfl

/-- An individual is found after a change as what it became. -/
theorem individual?_revise (hg : KeepsIndividual g) (s : Store) (f : Household → Household)
    (id : Uuid) : (s.revise f g).individual? id = (s.individual? id).map g := by
  have htest : (fun i : Individual => i.id == id) ∘ g = fun i => i.id == id := by
    funext i
    rw [Function.comp_apply, hg.id_eq]
  rw [individual?, revise, List.find?_map, htest]
  rfl

end Keeps

/-- Changing nothing keeps what households are registered with. -/
theorem keepsHousehold_id : KeepsHousehold id := fun h => ⟨h.withdrawn, rfl⟩

/-- Two functions that agree on an individual of a store, and wherever the identifier is another one,
make the same of all its individuals. -/
theorem Keyed.map_individuals_congr {s : Store} {α : Type} (hs : s.Keyed) {individual : Individual}
    (h : individual ∈ s.individuals) {f g : Individual → α} (hself : f individual = g individual)
    (hothers : ∀ i, i.id ≠ individual.id → f i = g i) :
    s.individuals.map f = s.individuals.map g := by
  apply List.map_congr_left
  intro i hi
  by_cases hid : i.id = individual.id
  · obtain rfl : i = individual := List.inj_on_of_nodup_map hs.individuals hi h hid
    exact hself
  · exact hothers i hid

/-- Recording a round on an individual changes the attributes of that individual alone. -/
theorem withRound_eq {s : Store} (hs : s.Keyed) {individual : Individual}
    (h : individual ∈ s.individuals) (input : NewRoundValue) :
    s.withRound individual input =
      s.revise id fun i =>
        if i.id = individual.id then
          Individual.stored { i with flexFields := input.addTo i.flexFields }
        else i := by
  unfold withRound revise
  rw [List.map_id]
  congr 1
  apply hs.map_individuals_congr h
  · rfl
  · intro i hid
    rw [if_neg hid, if_neg hid]

/-- A change one by one keeps the identifiers, and so do the identifiers handed out. -/
theorem Keyed.revise {s : Store} (hs : s.Keyed) {f : Household → Household}
    {g : Individual → Individual} (hf : KeepsHousehold f) (hg : KeepsIndividual g) :
    (s.revise f g).Keyed := by
  constructor
  · exact hs.programs
  · simpa [Store.revise, Function.comp_def, hf.id_eq] using hs.households
  · simpa [Store.revise, Function.comp_def, hg.id_eq] using hs.individuals
  · exact hs.programs_issued
  · intro h hh
    obtain ⟨h, hmem, rfl⟩ := List.mem_map.mp hh
    exact hf.id_eq h ▸ hs.households_issued h hmem
  · intro i hi
    obtain ⟨i, hmem, rfl⟩ := List.mem_map.mp hi
    exact hg.id_eq i ▸ hs.individuals_issued i hmem

/-- Withdrawing some households keeps what households are registered with. -/
theorem keepsHousehold_withdraw (p : Household → Prop) [DecidablePred p] :
    KeepsHousehold fun h => if p h then h.withdraw else h := by
  intro h
  by_cases hp : p h
  · exact ⟨true, by simp [hp, Household.withdraw]⟩
  · exact ⟨h.withdrawn, by simp [hp]⟩

/-- Withdrawing some individuals keeps what individuals are registered with. -/
theorem keepsIndividual_withdraw (p : Individual → Prop) [DecidablePred p] :
    KeepsIndividual fun i => if p i then i.withdraw else i := by
  intro i
  by_cases hp : p i
  · exact ⟨i.flexFields, true, by simp [hp, Individual.withdraw]⟩
  · exact ⟨i.flexFields, i.withdrawn, by simp [hp]⟩

/-- Recording a round on some individuals keeps what individuals are registered with. -/
theorem keepsIndividual_addTo (p : Individual → Prop) [DecidablePred p] (input : NewRoundValue) :
    KeepsIndividual fun i =>
      if p i then Individual.stored { i with flexFields := input.addTo i.flexFields } else i := by
  intro i
  by_cases hp : p i
  · exact ⟨(input.addTo i.flexFields).reread, i.withdrawn, by simp [hp, Individual.stored]⟩
  · exact ⟨i.flexFields, i.withdrawn, by simp [hp]⟩

/-- No household has the next identifier. -/
theorem Keyed.household_id_ne {s : Store} (hs : s.Keyed) {h : Household} (hh : h ∈ s.households) :
    h.id ≠ s.nextId := by
  intro hid
  exact s.not_hasIssued_nextId (hid ▸ hs.households_issued h hh)

/-- No program has the next identifier. -/
theorem Keyed.program_id_ne {s : Store} (hs : s.Keyed) {p : Program} (hp : p ∈ s.programs) :
    p.id ≠ s.nextId := by
  intro hid
  exact s.not_hasIssued_nextId (hid ▸ hs.programs_issued p hp)

/-- A program is found by its identifier. -/
theorem Keyed.program?_eq_some {s : Store} (hs : s.Keyed) {p : Program}
    (hp : p ∈ s.programs) : s.program? p.id = some p := by
  simpa [program?] using find?_key hs.programs hp fun _ => true

/-- A household is found by its identifier. -/
theorem Keyed.household?_eq_some {s : Store} (hs : s.Keyed) {h : Household}
    (hh : h ∈ s.households) : s.household? h.id = some h := by
  simpa [household?] using find?_key hs.households hh fun _ => true

/-- An individual is found by its identifier. -/
theorem Keyed.individual?_eq_some {s : Store} (hs : s.Keyed) {i : Individual}
    (hi : i ∈ s.individuals) : s.individual? i.id = some i := by
  simpa [individual?] using find?_key hs.individuals hi fun _ => true

/-- Empty tables hold no identifiers. -/
theorem keyed_emptyAfter (issued : Nat) (ids : IdSource) : (emptyAfter issued ids).Keyed := by
  constructor <;> simp [emptyAfter]

/-- A household and its members are registered under new identifiers. -/
theorem Keyed.register {s : Store} (hs : s.Keyed) (now : Moment) (programId : Uuid)
    (input : NewHousehold) (headIndex : Nat) :
    (s.register now programId input headIndex).Keyed := by
  have hle : s.issued ≤ s.issued + 1 + input.members.length := by omega
  constructor
  · exact hs.programs
  · refine nodup_map_concat hs.households fun h hh => ?_
    exact hs.household_id_ne hh
  · change ((s.individuals ++ (NewIndividual.registeredAll s.ids s.nextId (s.issued + 1)
      input.members).map Individual.stored).map Individual.id).Nodup
    have hnew : ((NewIndividual.registeredAll s.ids s.nextId (s.issued + 1) input.members).map
        Individual.stored).map Individual.id =
        (List.range' (s.issued + 1) input.members.length).map s.ids.after := by
      rw [List.map_map, ← map_id_registeredAll s.ids s.nextId]
      rfl
    rw [List.map_append, hnew, List.nodup_append]
    refine ⟨hs.individuals, List.Nodup.map (ids_injective _) List.nodup_range', ?_⟩
    intro a ha b hb hab
    obtain ⟨i, hi, rfl⟩ := List.mem_map.mp ha
    obtain ⟨n, hn, rfl⟩ := List.mem_map.mp hb
    obtain ⟨m, hm, hid⟩ := hs.individuals_issued i hi
    have := s.ids.distinct (hid.symm.trans hab)
    have := (List.mem_range'_1.mp hn).1
    omega
  · intro p hp
    exact (hs.programs_issued p hp).mono hle
  · intro h hh
    rcases List.mem_append.mp hh with hh | hh
    · exact (hs.households_issued h hh).mono hle
    · obtain rfl := List.mem_singleton.mp hh
      exact ⟨s.issued, by change s.issued < s.issued + 1 + _; omega, rfl⟩
  · intro i hi
    rcases List.mem_append.mp hi with hi | hi
    · exact (hs.individuals_issued i hi).mono hle
    · obtain ⟨j, hj, rfl⟩ := List.mem_map.mp hi
      obtain ⟨n, person, hperson, rfl⟩ := mem_registeredAll.mp hj
      have hlt : n < input.members.length := (List.getElem?_eq_some_iff.mp hperson).1
      exact ⟨s.issued + 1 + n, by change _ < s.issued + 1 + input.members.length; omega, rfl⟩

/-- Every step keeps identifiers distinct. -/
theorem Keyed.step {s t : Store} (hs : s.Keyed) (h : s.Step t) : t.Keyed := by
  cases h with
  | unchanged => exact hs
  | program p hid hname =>
    have hle : s.issued ≤ s.issued + 1 := by omega
    refine ⟨?_, hs.households, hs.individuals, ?_, ?_, ?_⟩
    · refine nodup_map_concat hs.programs fun q hq => ?_
      rw [hid]
      exact hs.program_id_ne hq
    · intro q hq
      rcases List.mem_append.mp hq with hq | hq
      · exact (hs.programs_issued q hq).mono hle
      · obtain rfl := List.mem_singleton.mp hq
        exact ⟨s.issued, Nat.lt_succ_self _, hid⟩
    · intro h hh
      exact (hs.households_issued h hh).mono hle
    · intro i hi
      exact (hs.individuals_issued i hi).mono hle
  | flexAttribute =>
    have hle : s.issued ≤ s.issued + 1 := by omega
    exact ⟨hs.programs, hs.households, hs.individuals,
      fun p hp => (hs.programs_issued p hp).mono hle,
      fun h hh => (hs.households_issued h hh).mono hle,
      fun i hi => (hs.individuals_issued i hi).mono hle⟩
  | periodicField =>
    have hle : s.issued ≤ s.issued + 1 := by omega
    exact ⟨hs.programs, hs.households, hs.individuals,
      fun p hp => (hs.programs_issued p hp).mono hle,
      fun h hh => (hs.households_issued h hh).mono hle,
      fun i hi => (hs.individuals_issued i hi).mono hle⟩
  | household now programId program input headIndex =>
    exact hs.register now programId input headIndex
  | withdrawHousehold id =>
    exact hs.revise (keepsHousehold_withdraw _) (keepsIndividual_withdraw _)
  | withdrawIndividual id =>
    exact hs.revise (keepsHousehold_withdraw _) (keepsIndividual_withdraw _)
  | recordRound individual input hindividual =>
    rw [withRound_eq hs (mem_of_individual? hindividual).1]
    exact hs.revise keepsHousehold_id (keepsIndividual_addTo _ input)

end Store

end Beneficiary
