import Beneficiary.Proofs.Criteria.Portrait
import Beneficiary.Proofs.Store.Reading

/-!
# Portraits of a population

What is stated to register a household already tells the portrait of its record: the household and
its members without numbers, the members by registration id, and the head that is flagged, or in a
program of persons the only member. Registering a household adds its portrait to those of the
program and leaves the others, so households registered one after the other add theirs in turn. The
order in which the members are stated does not show in a portrait.
-/

namespace Beneficiary

/-- The person as registered, without numbers. -/
def NewIndividual.portrait (person : NewIndividual) : Individual :=
  (person.registered ⟨0⟩ ⟨0⟩).stored

/-- A registered person has the portrait that was stated. -/
theorem NewIndividual.unnumbered_registered (person : NewIndividual) (id householdId : Uuid) :
    (person.registered id householdId).stored.unnumbered = person.portrait := by
  simp only [portrait, registered, Individual.stored, Individual.unnumbered]

namespace NewHousehold

/-- The head among the persons stated: the flagged one, or in programs of persons the only one. -/
def headAmong? (mode : ProgramMode) (members : List NewIndividual) : Option NewIndividual :=
  match mode with
  | .person => members.head?
  | .household => members.find? NewIndividual.isHead

/-- The portrait of the record that is registered for a household. -/
def portrait (mode : ProgramMode) (input : NewHousehold) : HouseholdRecord.Portrait :=
  { record :=
      { household := (input.registered ⟨0⟩ ⟨0⟩ ⟨0⟩ .origin).stored.unnumbered
        members := Store.sortedBy Individual.unicefId
          (input.members.map NewIndividual.portrait) }
    head := (headAmong? mode input.members).map NewIndividual.portrait }

/-- The household is stated with one head and with members of distinct ids. -/
structure IsRegular (mode : ProgramMode) (input : NewHousehold) : Prop where
  head : ∃ index, headIndex mode input.members = .ok index
  ids : (input.members.map NewIndividual.unicefId).Nodup

/-- The same household is stated, with its members in another order. -/
def SameButOrder (input other : NewHousehold) : Prop :=
  ∃ members, input.members.Perm members ∧ other = { input with members }

variable {mode : ProgramMode} {members others : List NewIndividual} {index : Nat}

/-- The head of a household is the one member that is flagged. -/
theorem headIndex_household_eq_ok_iff :
    headIndex .household members = .ok index ↔
      (members.filter NewIndividual.isHead).length = 1 ∧
        index = members.findIdx NewIndividual.isHead := by
  simp only [headIndex, check_bind_eq_ok_iff, require_eq_ok_iff, pure, Except.pure, beq_iff_eq,
    Except.ok.injEq]
  exact and_congr_right fun _ => eq_comm

/-- The index of the head is that of the person who is the head. -/
theorem getElem?_headIndex (h : headIndex mode members = .ok index) :
    members[index]? = headAmong? mode members := by
  cases mode with
  | person =>
    obtain ⟨-, rfl⟩ := headIndex_person_eq_ok_iff.mp h
    exact List.head?_eq_getElem?.symm
  | household =>
    obtain ⟨-, rfl⟩ := headIndex_household_eq_ok_iff.mp h
    exact List.find?_eq_getElem?_findIdx.symm

private theorem eq_of_perm_of_length_eq_one {α : Type} {items items' : List α}
    (h : items.length = 1) (hperm : items.Perm items') : items = items' := by
  obtain ⟨a, rfl⟩ := List.length_eq_one_iff.mp h
  exact (List.perm_singleton.mp hperm.symm).symm

/-- The head is the same in whichever order the members are stated. -/
theorem headAmong?_eq_of_perm (h : headIndex mode members = .ok index)
    (hperm : members.Perm others) : headAmong? mode members = headAmong? mode others := by
  cases mode with
  | person =>
    obtain ⟨hone, -⟩ := headIndex_person_eq_ok_iff.mp h
    rw [eq_of_perm_of_length_eq_one hone hperm]
  | household =>
    obtain ⟨hone, -⟩ := headIndex_household_eq_ok_iff.mp h
    rw [headAmong?, headAmong?, ← List.head?_filter, ← List.head?_filter,
      eq_of_perm_of_length_eq_one hone (hperm.filter _)]

/-- What the checks of a household tell is the index of its head. -/
theorem headIndex_of_check {input : NewHousehold} (h : input.check mode = .ok index) :
    headIndex mode input.members = .ok index := by
  -- the identifiers and the moment have no part in the checks
  obtain ⟨-, -, -, -, hhead⟩ := (check_eq_ok_iff ⟨0⟩ ⟨0⟩ ⟨0⟩ .origin).mp h
  exact hhead

/-- A household that passes the checks of registration is regular. -/
theorem isRegular_of_check {s : Store} {input : NewHousehold}
    (hcheck : input.check mode = .ok index) (hnew : s.checkNewIds input = .ok ()) :
    input.IsRegular mode := by
  obtain ⟨-, hids, -⟩ := Store.checkNewIds_eq_ok_iff.mp hnew
  exact ⟨⟨index, headIndex_of_check hcheck⟩, hids⟩

/-- The order in which members are stated does not show in the portrait. -/
theorem portrait_eq_of_sameButOrder {input other : NewHousehold} (hsame : input.SameButOrder other)
    (hregular : input.IsRegular mode) : input.portrait mode = other.portrait mode := by
  obtain ⟨members, hperm, rfl⟩ := hsame
  obtain ⟨⟨index, hhead⟩, hids⟩ := hregular
  have hhousehold : (input.registered ⟨0⟩ ⟨0⟩ ⟨0⟩ .origin).stored.unnumbered =
      (registered { input with members } ⟨0⟩ ⟨0⟩ ⟨0⟩ .origin).stored.unnumbered := by
    unfold registered
    rw [hperm.length_eq]
  have hmembers : Store.sortedBy Individual.unicefId (input.members.map NewIndividual.portrait) =
      Store.sortedBy Individual.unicefId (members.map NewIndividual.portrait) := by
    apply Store.sortedBy_eq_of_perm
    · rw [List.map_map]
      exact hids
    · exact hperm.map _
  unfold portrait
  rw [hhousehold, hmembers, headAmong?_eq_of_perm hhead hperm]

end NewHousehold

namespace Store

open HouseholdRecord (Portrait)

variable {s t : Store} {programId : Uuid}

/-- The portraits of a program's current households, in order of registration. -/
def portraits (s : Store) (program : Uuid) : List Portrait :=
  (s.households.filter fun h => h.programId == program && !h.withdrawn).map fun h =>
    (s.currentRecord h).portrait

/-- The population of a program lists its portraits by registration id. -/
theorem map_portrait_population (hs : s.Populated) (program : Uuid) :
    (s.population program).map HouseholdRecord.portrait =
      sortedBy Portrait.unicefId (s.portraits program) := by
  rw [population_eq hs, List.map_map]
  refine (sortedBy_map ?_ _).symm
  intro h
  rfl

/-- Portraits of a program have distinct registration ids. -/
theorem nodup_map_unicefId_portraits (hs : s.Populated) (program : Uuid) :
    ((s.portraits program).map Portrait.unicefId).Nodup := by
  rw [portraits, List.map_map]
  exact nodup_map_filter hs.household_ids _

/-- The members that are registered have the portraits of the persons stated. -/
theorem map_unnumbered_registeredAll (ids : IdSource) (householdId : Uuid) (count : Nat)
    (persons : List NewIndividual) :
    ((NewIndividual.registeredAll ids householdId count persons).map Individual.stored).map
        Individual.unnumbered =
      persons.map NewIndividual.portrait := by
  induction persons generalizing count with
  | nil => rfl
  | cons person rest ih =>
    rw [NewIndividual.registeredAll, List.map_cons, List.map_cons, ih, List.map_cons,
      NewIndividual.unnumbered_registered]

section Register

variable {program : Program} {now : Moment} {input : NewHousehold} {headIndex : Nat}

private theorem withdrawn_registeredAll {ids : IdSource} {householdId : Uuid} {count : Nat}
    {persons : List NewIndividual} {i : Individual}
    (h : i ∈ (NewIndividual.registeredAll ids householdId count persons).map Individual.stored) :
    i.withdrawn = false := by
  obtain ⟨j, hj, rfl⟩ := List.mem_map.mp h
  obtain ⟨n, person, -, rfl⟩ := mem_registeredAll.mp hj
  rfl

/-- The current members of a registered household are those that were stated, by registration id. -/
theorem members_register (hkeyed : s.Keyed) (hs : s.Populated)
    (ht : (s.register now programId input headIndex).Populated) :
    (s.register now programId input headIndex).members s.nextId =
      sortedBy Individual.unicefId
        ((NewIndividual.registeredAll s.ids s.nextId (s.issued + 1) input.members).map
          Individual.stored) := by
  have helsewhere : ∀ i ∈ s.individuals, i.householdId ≠ s.nextId := by
    intro i hi
    obtain ⟨h, hh, hid⟩ := hs.individual_household i hi
    exact hid ▸ hkeyed.household_id_ne hh
  rw [members_eq ht, allMembers_register helsewhere, List.filter_eq_self]
  intro i hi
  rw [withdrawn_registeredAll (mem_sortedBy.mp hi)]
  rfl

/-- A household registered elsewhere leaves the current record of a household as it is. -/
theorem currentRecord_register_of_mem (hkeyed : s.Keyed) (hs : s.Populated)
    (ht : (s.register now programId input headIndex).Populated) {h : Household}
    (hh : h ∈ s.households) :
    (s.register now programId input headIndex).currentRecord h = s.currentRecord h := by
  rw [currentRecord, members_eq ht, allMembers_register_of_ne (hkeyed.household_id_ne hh),
    ← members_eq hs, currentRecord]

/-- Each person that was stated is a current member of the registered household. -/
theorem mem_members_register (hkeyed : s.Keyed) (hs : s.Populated)
    (ht : (s.register now programId input headIndex).Populated) {n : Nat} {person : NewIndividual}
    (hperson : input.members[n]? = some person) :
    (person.registered (s.ids.after (s.issued + 1 + n)) s.nextId).stored ∈
      (s.register now programId input headIndex).members s.nextId := by
  rw [members_register hkeyed hs ht, mem_sortedBy]
  exact List.mem_map_of_mem (mem_registeredAll.mpr ⟨n, person, hperson, rfl⟩)

/-- The current members of a registered household have the portraits that were stated. -/
theorem map_unnumbered_members_register (hkeyed : s.Keyed) (hs : s.Populated)
    (ht : (s.register now programId input headIndex).Populated) :
    ((s.register now programId input headIndex).members s.nextId).map Individual.unnumbered =
      sortedBy Individual.unicefId (input.members.map NewIndividual.portrait) := by
  rw [members_register hkeyed hs ht, ← map_unnumbered_registeredAll s.ids s.nextId (s.issued + 1)]
  refine (sortedBy_map ?_ _).symm
  intro i
  rfl

/-- A registered household has the portrait that was stated. -/
theorem portrait_register (hkeyed : s.Keyed) (hs : s.Populated)
    (ht : (s.register now programId input headIndex).Populated) {mode : ProgramMode}
    (hhead : NewHousehold.headIndex mode input.members = .ok headIndex) :
    ((s.register now programId input headIndex).currentRecord
        (input.registered s.nextId programId (s.ids.after (s.issued + 1 + headIndex))
          now).stored).portrait =
      input.portrait mode := by
  obtain ⟨person, hperson⟩ : ∃ person, input.members[headIndex]? = some person :=
    ⟨_, List.getElem?_eq_getElem (NewHousehold.headIndex_lt hhead)⟩
  have hnodup : (((s.register now programId input headIndex).members s.nextId).map
      Individual.id).Nodup :=
    nodup_map_id_members (hkeyed.register now programId input headIndex) ht s.nextId
  apply HouseholdRecord.portrait_eq
  · rfl
  · exact map_unnumbered_members_register hkeyed hs ht
  · -- the head is found among the members by the identifier that it takes
    change _ = (NewHousehold.headAmong? mode input.members).map NewIndividual.portrait
    rw [HouseholdRecord.head?_eq_some hnodup (mem_members_register hkeyed hs ht hperson) rfl,
      ← NewHousehold.getElem?_headIndex hhead, hperson, Option.map_some, Option.map_some,
      NewIndividual.unnumbered_registered]

/-- Registering a household adds the portrait that was stated to those of the program. -/
theorem portraits_register (hkeyed : s.Keyed) (hs : s.Populated)
    (ht : (s.register now programId input headIndex).Populated) {mode : ProgramMode}
    (hhead : NewHousehold.headIndex mode input.members = .ok headIndex) :
    (s.register now programId input headIndex).portraits programId =
      s.portraits programId ++ [input.portrait mode] := by
  have hcurrent : (s.register now programId input headIndex).households.filter
      (fun h => h.programId == programId && !h.withdrawn) =
        (s.households.filter fun h => h.programId == programId && !h.withdrawn) ++
          [(input.registered s.nextId programId (s.ids.after (s.issued + 1 + headIndex))
            now).stored] := by
    rw [register, List.filter_append]
    simp [Household.stored, NewHousehold.registered]
  have hold : ((s.households.filter fun h => h.programId == programId && !h.withdrawn).map fun h =>
      ((s.register now programId input headIndex).currentRecord h).portrait) =
        s.portraits programId := by
    apply List.map_congr_left
    intro h hh
    rw [currentRecord_register_of_mem hkeyed hs ht (List.mem_of_mem_filter hh)]
  rw [portraits, hcurrent, List.map_append, hold, List.map_singleton,
    portrait_register hkeyed hs ht hhead]

end Register

/-- Registers households in a program in turn, each at a moment of its own. -/
def registerInTurn (s : Store) (programId : Uuid) :
    List (Moment × NewHousehold) → Except Failure Store
  | [] => .ok s
  | (now, input) :: rest => do
    let (_, after) ← s.createHousehold now programId input
    after.registerInTurn programId rest

variable {now : Moment} {input : NewHousehold} {inputs : List (Moment × NewHousehold)}

/-- Households are registered in turn exactly when the first is and the others are after it. -/
theorem registerInTurn_cons_eq_ok_iff :
    s.registerInTurn programId ((now, input) :: inputs) = .ok t ↔
      ∃ program headIndex, s.program? programId = some program ∧
        input.check program.mode = .ok headIndex ∧ s.checkNewIds input = .ok () ∧
        (s.register now programId input headIndex).registerInTurn programId inputs = .ok t := by
  rw [registerInTurn, bind_eq_ok_iff]
  constructor
  · rintro ⟨⟨record, after⟩, hc, h⟩
    obtain ⟨program, headIndex, hprogram, hcheck, hnew, rfl, -⟩ := createHousehold_eq_ok_iff.mp hc
    exact ⟨program, headIndex, hprogram, hcheck, hnew, h⟩
  · rintro ⟨program, headIndex, hprogram, hcheck, hnew, h⟩
    exact ⟨_, createHousehold_eq_ok_iff.mpr
      ⟨program, headIndex, hprogram, hcheck, hnew, rfl, rfl⟩, h⟩

/-- Registering households in turn is calling for one registration after the other. -/
theorem after_of_registerInTurn (h : s.registerInTurn programId inputs = .ok t) :
    (Database.mk (some s)).after (inputs.map fun (now, input) =>
      { now, operation := .createHousehold programId input }) = ⟨some t⟩ := by
  induction inputs generalizing s with
  | nil =>
    obtain rfl : s = t := Except.ok.inj h
    rfl
  | cons entry rest ih =>
    obtain ⟨now, input⟩ := entry
    obtain ⟨⟨record, u⟩, hcreated, hrest⟩ := bind_eq_ok_iff.mp h
    have hrun : s.run now (.createHousehold programId input) = .ok (.record (some record), u) :=
      map_eq_ok_iff.mpr ⟨(record, u), hcreated, rfl⟩
    rw [List.map_cons, Database.after, run_eq_of_ok hrun]
    exact ih hrest

/-- Registering households has no part in what requests compile to. -/
theorem compileTargeting_registerInTurn (h : s.registerInTurn programId inputs = .ok t)
    (id : Uuid) (request : TargetingRequest) (asOf : Date) :
    t.compileTargeting id request asOf = s.compileTargeting id request asOf := by
  induction inputs generalizing s with
  | nil =>
    obtain rfl : s = t := Except.ok.inj h
    rfl
  | cons entry rest ih =>
    obtain ⟨now, input⟩ := entry
    obtain ⟨-, headIndex, -, -, -, hrest⟩ := registerInTurn_cons_eq_ok_iff.mp h
    exact (ih hrest).trans rfl

/-- Households that are registered in turn are regular, and add the portraits that were stated to
those of their program. -/
theorem portraits_registerInTurn (hkeyed : s.Keyed) (hs : s.Populated) {program : Program}
    (hprogram : s.program? programId = some program)
    (h : s.registerInTurn programId inputs = .ok t) :
    (∀ entry ∈ inputs, entry.2.IsRegular program.mode) ∧
      t.portraits programId =
        s.portraits programId ++ inputs.map fun entry => entry.2.portrait program.mode := by
  induction inputs generalizing s with
  | nil =>
    obtain rfl : s = t := Except.ok.inj h
    simp
  | cons entry rest ih =>
    obtain ⟨now, input⟩ := entry
    obtain ⟨p, headIndex, hp, hcheck, hnew, hrest⟩ := registerInTurn_cons_eq_ok_iff.mp h
    obtain rfl : program = p := Option.some.inj (hprogram.symm.trans hp)
    have hs' : (s.register now programId input headIndex).Populated :=
      hs.register hkeyed hprogram hcheck hnew
    have hkeyed' : (s.register now programId input headIndex).Keyed :=
      hkeyed.register now programId input headIndex
    obtain ⟨hregulars, hportraits⟩ := ih hkeyed' hs' hprogram hrest
    constructor
    · exact List.forall_mem_cons.mpr ⟨NewHousehold.isRegular_of_check hcheck hnew, hregulars⟩
    · rw [hportraits,
        portraits_register hkeyed hs hs' (NewHousehold.headIndex_of_check hcheck),
        List.append_assoc, List.singleton_append, List.map_cons]

end Store

end Beneficiary
