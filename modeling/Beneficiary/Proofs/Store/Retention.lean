import Beneficiary.Proofs.Store.Reading
import Beneficiary.Proofs.Store.Recording
import Beneficiary.Proofs.Store.Rows

/-!
# What a store retains

An operation that is answered leaves the households and individuals as they are, registers new ones
behind them, or changes those that it addresses. So a household with its members, and each
individual, stays as it was written until an operation addresses it, whatever else is asked of the
store, and is read back as it stands in its row. That is the record that a registration answered
with, its members by registration id, and the individual that a recorded round answered with, when
the attributes are legible. Attributes that nest too deep for their text are read back as none at
all.
-/

namespace Beneficiary

/-! ### Attributes with a round -/

namespace Json

/-- What stands under a name is less deep than the object. -/
theorem depth_of_field? {value part : Json} {name : String} (h : value.field? name = some part) :
    part.depth + 1 ≤ value.depth := by
  cases value with
  | object fields =>
    have hlookup : fields.lookup name = some part := h
    rw [depth]
    refine Nat.succ_le_succ ?_
    clear h
    induction fields with
    | nil => cases hlookup
    | cons field rest ih =>
      rw [fieldsDepth]
      rw [List.lookup_cons] at hlookup
      split at hlookup
      · obtain rfl := Option.some.inj hlookup
        exact le_max_left _ _
      · exact (ih hlookup).trans (le_max_right _ _)
  | _ => cases h

/-- Fields with a value put among them fit when the value and the fields do. -/
theorem Fields.fitsIn_insert {levels : Nat} {fields : Fields} {value : Ordered} (name : String)
    (hfields : fields.toJson.FitsIn (levels + 1)) (hvalue : value.json.FitsIn levels) :
    (fields.insert name value).toJson.FitsIn (levels + 1) := by
  refine fitsIn_object fun entry hentry => ?_
  rcases mem_insertField hentry with rfl | hmem
  · exact hvalue
  · exact hfields.of_mem entry hmem

end Json

namespace NewRoundValue

variable {input : NewRoundValue} {fields : Json.Fields}

/-- The entry of a round is one level deeper than the value. -/
theorem fitsIn_entry {levels : Nat} (h : input.value.json.FitsIn levels) :
    input.entry.json.FitsIn (levels + 1) := by
  have hentry : input.entry.json = .object
      [(roundDateKey, .ofOption (fun d => .string d.text) input.collectionDate),
        (roundValueKey, input.value.json)] := by
    have hvalue := Json.order_eq_self input.value.isOrdered
    have hdate : (Json.ofOption (fun d : Date => .string d.text) input.collectionDate).order =
        Json.ofOption (fun d => .string d.text) input.collectionDate := by
      cases input.collectionDate <;> rfl
    have hafter : ¬ roundValueKey < roundDateKey := by decide
    have hother : ¬ roundValueKey = roundDateKey := by decide
    simp only [entry, Json.Ordered.of, Json.order, Json.orderValues, hvalue, hdate,
      Json.orderFields, List.foldl_cons, List.foldl_nil, Json.insertField, if_neg hafter,
      if_neg hother]
  rw [hentry]
  refine Json.fitsIn_object (List.forall_mem_cons.mpr ⟨?_, List.forall_mem_singleton.mpr h⟩)
  cases input.collectionDate with
  | none => exact Json.fitsIn_null levels
  | some d => exact Json.fitsIn_string levels d.text

/-- The rounds of a field fit below the attributes. -/
theorem fitsIn_roundsOf {levels : Nat} (h : fields.toJson.FitsIn (levels + 2)) (field : String) :
    (roundsOf fields field).toJson.FitsIn (levels + 1) := by
  unfold roundsOf
  split
  · next entries hentries =>
    have hordered := Json.Fields.isOrdered_of_get? hentries
    have hof : Json.Fields.of entries = ⟨entries, hordered⟩ :=
      Json.Fields.of_entries ⟨entries, hordered⟩
    have hmem : (field, Json.object entries) ∈ fields.entries :=
      (Json.mem_iff_lookup fields.pairwise).mpr hentries
    rw [hof]
    exact h.of_mem _ hmem
  · exact Json.fitsIn_object fun _ hentry => (List.not_mem_nil hentry).elim

/-- A value put among attributes as a round fits three levels below them. -/
theorem fitsIn_addTo {levels : Nat} (hfields : fields.toJson.FitsIn (levels + 3))
    (hvalue : input.value.json.FitsIn levels) :
    (input.addTo fields).toJson.FitsIn (levels + 3) :=
  Json.Fields.fitsIn_insert _ hfields
    (Json.Fields.fitsIn_insert _ (fitsIn_roundsOf hfields input.field) (fitsIn_entry hvalue))

/-- A value put among attributes as a round makes them three levels deeper than it is. -/
theorem depth_addTo (input : NewRoundValue) (fields : Json.Fields) :
    input.value.json.depth + 3 ≤ (input.addTo fields).toJson.depth := by
  have hentry := Json.depth_of_field? input.field?_entry
  have hround : (roundsOf (input.addTo fields) input.field).toJson.field? (roundKey input.round) =
      some input.entry.json := by
    rw [roundsOf_addTo]
    exact Json.Fields.get?_insert_self _ _ _
  have hfield : (input.addTo fields).toJson.field? input.field =
      some (roundsOf (input.addTo fields) input.field).toJson := by
    rw [roundsOf_addTo]
    exact Json.Fields.get?_insert_self _ _ _
  have hrounds := Json.depth_of_field? hround
  have hfields := Json.depth_of_field? hfield
  omega

/-- Legible attributes with a round among them, whose value has legible numbers, are read back from
their text exactly when the value is three levels less deep than the limit. -/
theorem reread_addTo_iff (hfields : fields.IsLegible)
    (hnumbers : input.value.json.keepsNumbers = true) :
    (input.addTo fields).reread = input.addTo fields ↔
      input.value.json.depth + 3 ≤ Json.depthLimit := by
  constructor
  · intro hread
    by_contra hdeep
    have hfits : (input.addTo fields).toJson.FitsIn (input.value.json.depth + 3) :=
      fitsIn_addTo (hfields.mono (by omega)) ⟨le_rfl, hnumbers⟩
    have hover := (not_le.mp hdeep).trans_le (input.depth_addTo fields)
    rw [Json.Fields.reread_eq_empty hfits.keepsNumbers hover] at hread
    obtain ⟨entries, hentries⟩ := input.exists_get?_addTo fields
    rw [← hread] at hentries
    cases hentries
  · intro hfits
    have hlegible : (input.addTo fields).toJson.FitsIn (Json.depthLimit - 3 + 3) :=
      fitsIn_addTo hfields ⟨by omega, hnumbers⟩
    exact Json.Fields.IsLegible.reread_eq_self hlegible

end NewRoundValue

/-! ### What an operation changes -/

/-- The operation is about the household, or about one of the persons. -/
def Operation.Addresses (household : Uuid) (persons : List Uuid) : Operation → Prop
  | .withdrawHousehold id => id = household
  | .withdrawIndividual id => id ∈ persons
  | .recordRound id _ => id ∈ persons
  | _ => False

/-- An operation about one of some persons is about one of more. -/
theorem Operation.Addresses.mono {household : Uuid} {persons more : List Uuid}
    {operation : Operation} (h : operation.Addresses household persons) (hsub : persons ⊆ more) :
    operation.Addresses household more := by
  cases operation with
  | withdrawHousehold id => exact h
  | withdrawIndividual id => exact hsub h
  | recordRound id input => exact hsub h
  | _ => exact h

/-- None of the calls is about the household or one of the persons. -/
def Untouched (calls : List Call) (household : Uuid) (persons : List Uuid) : Prop :=
  ∀ call ∈ calls, ¬ call.operation.Addresses household persons

namespace Store

variable {s t u : Store} {operation : Operation}

/-- The identifiers of a household's members. -/
def memberIds (s : Store) (household : Uuid) : List Uuid :=
  (s.allMembers household).map Individual.id

/-- What an answered operation makes of the households and individuals: nothing, a new household
behind them, or a change of those that it addresses. -/
inductive Effect (s : Store) (operation : Operation) : Store → Prop where
  | kept {t : Store} (hhouseholds : t.households = s.households)
      (hindividuals : t.individuals = s.individuals) : Effect s operation t
  | registered (now : Moment) (programId : Uuid) (input : NewHousehold) (headIndex : Nat) :
      Effect s operation (s.register now programId input headIndex)
  | revised (f : Household → Household) (g : Individual → Individual) (hf : KeepsHousehold f)
      (hg : KeepsIndividual g)
      (hhouseholds : ∀ h ∈ s.households,
        ¬ operation.Addresses h.id (s.memberIds h.id) → f h = h)
      (hindividuals : ∀ i, ¬ operation.Addresses i.householdId [i.id] → g i = i) :
      Effect s operation (s.revise f g)

private theorem effect_withdrawHousehold (s : Store) (id : Uuid) :
    s.Effect (.withdrawHousehold id) (s.withdrawHousehold id) := by
  refine .revised _ _ (keepsHousehold_withdraw fun h => h.id = id)
    (keepsIndividual_withdraw fun i => i.householdId = id) ?_ ?_
  · intro h _ hfree
    exact if_neg fun hid => hfree hid.symm
  · intro i hfree
    exact if_neg fun hid => hfree hid.symm

private theorem effect_withdrawIndividual (s : Store) (id : Uuid) :
    s.Effect (.withdrawIndividual id) (s.withdrawIndividual id) := by
  refine .revised _ _ (keepsHousehold_withdraw fun h => s.wraps h id = true)
    (keepsIndividual_withdraw fun i => i.id = id) ?_ ?_
  · intro h _ hfree
    refine if_neg fun hwraps => hfree ?_
    obtain ⟨⟨i, hi, hid⟩, -⟩ := wraps_iff.mp hwraps
    exact List.mem_map.mpr ⟨i, hi, hid⟩
  · intro i hfree
    exact if_neg fun hid => hfree (List.mem_singleton.mpr hid.symm)

private theorem effect_withRound (hs : s.Keyed) {individual : Individual}
    (h : individual ∈ s.individuals) (input : NewRoundValue) :
    s.Effect (.recordRound individual.id input) (s.withRound individual input) := by
  rw [withRound_eq hs h]
  refine .revised _ _ keepsHousehold_id (keepsIndividual_addTo (fun i => i.id = individual.id) input)
    (fun _ _ _ => rfl) ?_
  intro i hfree
  exact if_neg fun hid => hfree (List.mem_singleton.mpr hid.symm)

/-- An operation that is answered has one of these effects. -/
theorem effect_of_run (hs : s.Keyed) {now : Moment} {answer : Answer}
    (h : s.run now operation = .ok (answer, t)) : s.Effect operation t := by
  cases hquery : operation.isQuery with
  | true =>
    rw [eq_of_run_query hquery h]
    exact .kept rfl rfl
  | false =>
    cases operation with
    | createProgram input =>
      obtain ⟨⟨p, t'⟩, hc, heq⟩ := map_eq_ok_iff.mp h
      obtain ⟨-, rfl⟩ := Prod.mk.inj heq
      obtain ⟨u, -, hc⟩ := bind_eq_ok_iff.mp hc
      obtain ⟨-, rfl⟩ := Prod.mk.inj (Except.ok.inj hc)
      exact .kept rfl rfl
    | createFlexAttribute program input =>
      obtain ⟨⟨a, t'⟩, hc, heq⟩ := map_eq_ok_iff.mp h
      obtain ⟨-, rfl⟩ := Prod.mk.inj heq
      obtain ⟨-, -, -, -, -, rfl⟩ := createFlexAttribute_eq_ok_iff.mp hc
      exact .kept rfl rfl
    | createPeriodicField program input =>
      obtain ⟨⟨f, t'⟩, hc, heq⟩ := map_eq_ok_iff.mp h
      obtain ⟨-, rfl⟩ := Prod.mk.inj heq
      obtain ⟨-, -, -, -, -, -, -, rfl⟩ := createPeriodicField_eq_ok_iff.mp hc
      exact .kept rfl rfl
    | createHousehold programId input =>
      obtain ⟨⟨r, t'⟩, hc, heq⟩ := map_eq_ok_iff.mp h
      obtain ⟨-, rfl⟩ := Prod.mk.inj heq
      obtain ⟨program, headIndex, -, -, -, rfl, -⟩ := createHousehold_eq_ok_iff.mp hc
      exact .registered now programId input headIndex
    | withdrawHousehold id =>
      obtain ⟨-, rfl⟩ := Prod.mk.inj (Except.ok.inj h)
      exact effect_withdrawHousehold s id
    | withdrawIndividual id =>
      obtain ⟨-, rfl⟩ := Prod.mk.inj (Except.ok.inj h)
      exact effect_withdrawIndividual s id
    | recordRound id input =>
      obtain ⟨⟨i, t'⟩, hc, heq⟩ := map_eq_ok_iff.mp h
      obtain ⟨-, rfl⟩ := Prod.mk.inj heq
      rcases recordRound_eq_ok_iff.mp hc with ⟨-, -, rfl⟩ | ⟨individual, hi, -, rfl, -⟩
      · exact .kept rfl rfl
      · obtain ⟨hmem, rfl⟩ := mem_of_individual? hi
        exact effect_withRound hs hmem input
    | _ => cases hquery

/-! ### What stays -/

/-- An individual stays as it is unless it or its household is addressed. -/
theorem Effect.mem_individuals (h : s.Effect operation t) {i : Individual} (hi : i ∈ s.individuals)
    (hfree : ¬ operation.Addresses i.householdId [i.id]) : i ∈ t.individuals := by
  cases h with
  | kept hhouseholds hindividuals => exact hindividuals ▸ hi
  | registered => exact List.mem_append_left _ hi
  | revised f g hf hg hhouseholds hindividuals =>
    exact List.mem_map.mpr ⟨i, hi, hindividuals i hfree⟩

/-- A household stays as it is unless it or one of its members is addressed. -/
theorem Effect.mem_households (h : s.Effect operation t) {household : Household}
    (hhousehold : household ∈ s.households)
    (hfree : ¬ operation.Addresses household.id (s.memberIds household.id)) :
    household ∈ t.households := by
  cases h with
  | kept hhouseholds hindividuals => exact hhouseholds ▸ hhousehold
  | registered => exact List.mem_append_left _ hhousehold
  | revised f g hf hg hhouseholds hindividuals =>
    exact List.mem_map.mpr ⟨household, hhousehold, hhouseholds household hhousehold hfree⟩

/-- A household keeps its members as they are unless it or one of them is addressed. -/
theorem Effect.allMembers_eq (h : s.Effect operation t) (hs : s.Keyed) {household : Household}
    (hhousehold : household ∈ s.households)
    (hfree : ¬ operation.Addresses household.id (s.memberIds household.id)) :
    t.allMembers household.id = s.allMembers household.id := by
  cases h with
  | kept hhouseholds hindividuals => rw [allMembers, hindividuals, allMembers]
  | registered => exact allMembers_register_of_ne (hs.household_id_ne hhousehold)
  | revised f g hf hg hhouseholds hindividuals =>
    have hkept : ∀ i ∈ s.allMembers household.id, g i = i := by
      intro i hi
      apply hindividuals
      rw [(mem_allMembers.mp hi).2]
      intro haddressed
      refine hfree (haddressed.mono (List.cons_subset.mpr ⟨?_, List.nil_subset _⟩))
      exact List.mem_map_of_mem hi
    rw [allMembers_revise f hg, List.map_congr_left hkept, List.map_id']

/-- The household of a record is registered, with the members of the record. -/
structure Holds (s : Store) (record : HouseholdRecord) : Prop where
  household : record.household ∈ s.households
  members : s.allMembers record.household.id = record.members

/-- A record that a store holds is found by the identifier of its household. -/
theorem Holds.record?_eq {record : HouseholdRecord} (h : s.Holds record) (hs : s.Keyed) :
    s.record? record.household.id = some record := by
  rw [record?_eq_some hs h.household, fullRecord, h.members]

/-- A record is held until its household or one of its members is addressed. -/
theorem Effect.holds (h : s.Effect operation t) (hs : s.Keyed) {record : HouseholdRecord}
    (hrecord : s.Holds record)
    (hfree : ¬ operation.Addresses record.household.id (record.members.map Individual.id)) :
    t.Holds record := by
  rw [← hrecord.members] at hfree
  refine ⟨h.mem_households hrecord.household hfree, ?_⟩
  rw [h.allMembers_eq hs hrecord.household hfree, hrecord.members]

/-! ### Calls in turn -/

/-- What the effects of such operations keep is kept by calls of them in turn, be they answered or
refused. -/
theorem kept_after {P : Store → Prop} {Q : Operation → Prop}
    (hstep : ∀ s t operation, s.Keyed → P s → Q operation → s.Effect operation t → P t)
    {calls : List Call} (hcalls : ∀ call ∈ calls, Q call.operation) (hs : s.Keyed) (hP : P s)
    (h : (Database.mk (some s)).after calls = ⟨some u⟩) : P u := by
  induction calls generalizing s with
  | nil =>
    obtain rfl : s = u := Option.some.inj (Database.mk.inj h)
    exact hP
  | cons call rest ih =>
    obtain ⟨hcall, hrest⟩ := List.forall_mem_cons.mp hcalls
    rw [Database.after] at h
    cases hrun : s.run call.now call.operation with
    | error failure =>
      rw [run_eq_of_error hrun] at h
      exact ih hrest hs hP h
    | ok result =>
      obtain ⟨answer, t⟩ := result
      rw [run_eq_of_ok hrun] at h
      exact ih hrest (hs.step (step_of_run hrun))
        (hstep s t call.operation hs hP hcall (effect_of_run hs hrun)) h

/-- Identifiers stay distinct in calls. -/
theorem Keyed.after (hs : s.Keyed) {calls : List Call}
    (h : (Database.mk (some s)).after calls = ⟨some u⟩) : u.Keyed :=
  after_induction (P := Keyed) (fun _ _ hs hstep => hs.step hstep) hs h

/-- A record is read back until a call is about its household or one of its members. -/
theorem record?_after (hs : s.Keyed) {record : HouseholdRecord}
    (hrecord : s.Holds record) {calls : List Call}
    (hcalls : Untouched calls record.household.id (record.members.map Individual.id))
    (h : (Database.mk (some s)).after calls = ⟨some u⟩) :
    u.record? record.household.id = some record := by
  have hheld : u.Holds record :=
    kept_after (fun _ _ _ hs hrecord hfree heffect => heffect.holds hs hrecord hfree) hcalls hs
      hrecord h
  exact hheld.record?_eq (hs.after h)

/-- An individual is read back until a call is about it or its household. -/
theorem individual?_after (hs : s.Keyed) {i : Individual} (hi : i ∈ s.individuals)
    {calls : List Call} (hcalls : Untouched calls i.householdId [i.id])
    (h : (Database.mk (some s)).after calls = ⟨some u⟩) : u.individual? i.id = some i := by
  have hmem : i ∈ u.individuals :=
    kept_after (fun _ _ _ _ hi hfree heffect => heffect.mem_individuals hi hfree) hcalls hs hi h
  exact (hs.after h).individual?_eq_some hmem

end Store

/-! ### What is written -/

namespace HouseholdRecord

open Store

variable {record : HouseholdRecord}

/-- The record as it is read back from its rows, its members by registration id. -/
def kept (record : HouseholdRecord) : HouseholdRecord :=
  { household := record.household.stored
    members := sortedBy Individual.unicefId (record.members.map Individual.stored) }

/-- The members that are read back have the identifiers of the members. -/
theorem map_id_kept (record : HouseholdRecord) :
    record.kept.members.map Individual.id =
      (sortedBy Individual.unicefId record.members).map Individual.id := by
  have hmembers : sortedBy Individual.unicefId (record.members.map Individual.stored) =
      (sortedBy Individual.unicefId record.members).map Individual.stored :=
    sortedBy_map (fun _ => rfl) _
  rw [kept, hmembers, List.map_map]
  rfl

/-- All attributes in the record are legible. -/
structure IsLegible (record : HouseholdRecord) : Prop where
  household : record.household.flexFields.IsLegible
  members : ∀ member ∈ record.members, member.flexFields.IsLegible

/-- A record with legible attributes is read back as it is, but for the order of its members. -/
theorem IsLegible.kept_eq (h : record.IsLegible) :
    record.kept = { record with members := sortedBy Individual.unicefId record.members } := by
  have hmembers : record.members.map Individual.stored = record.members := by
    rw [List.map_congr_left fun member hmember =>
      Individual.stored_eq_self (h.members member hmember), List.map_id']
  rw [kept, Household.stored_eq_self h.household, hmembers]

end HouseholdRecord

namespace Store

variable {s t u : Store}

section Registration

variable {now : Moment} {programId : Uuid} {input : NewHousehold} {record : HouseholdRecord}

/-- A registration is written as the record that it answers with is kept. -/
theorem holds_of_createHousehold (hkeyed : s.Keyed) (hs : s.Populated)
    (h : s.createHousehold now programId input = .ok (record, t)) : t.Holds record.kept := by
  obtain ⟨program, headIndex, -, -, -, rfl, rfl⟩ := createHousehold_eq_ok_iff.mp h
  refine ⟨List.mem_append_right _ (List.mem_singleton_self _), ?_⟩
  refine allMembers_register fun i hi => ?_
  obtain ⟨household, hhousehold, hid⟩ := hs.individual_household i hi
  exact hid ▸ hkeyed.household_id_ne hhousehold

/-- Identifiers are distinct after a registration. -/
theorem Keyed.of_createHousehold (hkeyed : s.Keyed)
    (h : s.createHousehold now programId input = .ok (record, t)) : t.Keyed := by
  obtain ⟨program, headIndex, hprogram, hcheck, hnew, rfl, -⟩ := createHousehold_eq_ok_iff.mp h
  exact hkeyed.step (.household now programId program input headIndex hprogram hcheck hnew)

/-- The members of a registered record belong to its household and are written as they are kept. -/
theorem mem_of_createHousehold (h : s.createHousehold now programId input = .ok (record, t))
    {member : Individual} (hmember : member ∈ record.members) :
    member.householdId = record.household.id ∧ member.stored ∈ t.individuals := by
  obtain ⟨program, headIndex, -, -, -, rfl, rfl⟩ := createHousehold_eq_ok_iff.mp h
  obtain ⟨n, person, -, rfl⟩ := mem_registeredAll.mp hmember
  exact ⟨rfl, List.mem_append_right _ (List.mem_map_of_mem hmember)⟩

end Registration

/-- Identifiers are distinct after a recorded round. -/
theorem Keyed.of_recordRound (hs : s.Keyed) {id : Uuid} {input : NewRoundValue}
    {answer : Option Individual} (h : s.recordRound id input = .ok (answer, t)) : t.Keyed := by
  rcases recordRound_eq_ok_iff.mp h with ⟨-, -, rfl⟩ | ⟨individual, hfound, hround, rfl, -⟩
  · exact hs
  · obtain ⟨-, rfl⟩ := mem_of_individual? hfound
    exact hs.step (.recordRound individual input hfound hround)

/-- A recorded round is put among the attributes of the individual found. -/
theorem written_of_recordRound {id : Uuid} {input : NewRoundValue} {written : Individual}
    (h : s.recordRound id input = .ok (some written, t)) :
    ∃ individual, s.individual? id = some individual ∧
      written = individual.withRound input ∧ t = s.withRound individual input := by
  rcases recordRound_eq_ok_iff.mp h with ⟨-, hnone, -⟩ | ⟨individual, hfound, -, rfl, hsome⟩
  · cases hnone
  · exact ⟨individual, hfound, Option.some.inj hsome, rfl⟩

/-- The individual that a recorded round answers with is written as it is kept. -/
theorem mem_of_recordRound {id : Uuid} {input : NewRoundValue} {written : Individual}
    (h : s.recordRound id input = .ok (some written, t)) :
    written.id = id ∧ written.stored ∈ t.individuals := by
  obtain ⟨individual, hfound, rfl, rfl⟩ := written_of_recordRound h
  obtain ⟨hmem, rfl⟩ := mem_of_individual? hfound
  exact ⟨rfl, List.mem_map.mpr ⟨individual, hmem, if_pos rfl⟩⟩

/-! ### What is read -/

section Reading

variable {calls : List Call}

/-- A registered record is read back until a call is about its household or one of its members. -/
theorem record?_of_createHousehold (hs : s.Reachable) {now : Moment} {programId : Uuid}
    {input : NewHousehold} {record : HouseholdRecord}
    (h : s.createHousehold now programId input = .ok (record, t))
    (hu : (Database.mk (some t)).after calls = ⟨some u⟩)
    (huntouched : Untouched calls record.household.id (record.members.map Individual.id)) :
    u.record? record.household.id = some record.kept := by
  obtain ⟨hkeyed, hpopulated⟩ := hs.invariants
  refine record?_after (hkeyed.of_createHousehold h)
    (holds_of_createHousehold hkeyed hpopulated h) ?_ hu
  rw [record.map_id_kept]
  intro call hcall haddressed
  exact huntouched call hcall (haddressed.mono ((sortedBy_perm _ _).map _).subset)

/-- A registered member is read back until a call is about it or its household. -/
theorem individual?_of_createHousehold (hs : s.Reachable) {now : Moment} {programId : Uuid}
    {input : NewHousehold} {record : HouseholdRecord}
    (h : s.createHousehold now programId input = .ok (record, t))
    (hu : (Database.mk (some t)).after calls = ⟨some u⟩) {member : Individual}
    (hmember : member ∈ record.members)
    (huntouched : Untouched calls record.household.id [member.id]) :
    u.individual? member.id = some member.stored := by
  obtain ⟨hhousehold, hwritten⟩ := mem_of_createHousehold h hmember
  rw [← hhousehold] at huntouched
  exact individual?_after (hs.invariants.1.of_createHousehold h) hwritten huntouched hu

/-- The individual of a recorded round is read back until a call is about it or its household. -/
theorem individual?_of_recordRound (hs : s.Reachable) {id : Uuid} {input : NewRoundValue}
    {written : Individual} (h : s.recordRound id input = .ok (some written, t))
    (hu : (Database.mk (some t)).after calls = ⟨some u⟩)
    (huntouched : Untouched calls written.householdId [id]) :
    u.individual? id = some written.stored := by
  obtain ⟨rfl, hwritten⟩ := mem_of_recordRound h
  exact individual?_after (hs.invariants.1.of_recordRound h) hwritten huntouched hu

end Reading

/-- What is written to a reachable store is read back until a call is about it. The record that a
registration answered with is found by its household's identifier, its members by registration id,
and each member by its own identifier; the individual that a recorded round answered with is found
in its turn. All of it is read as it was answered when the attributes are legible, to which a
recorded value adds three levels. Of the columns that entities are kept in no other loses
anything. -/
theorem reads_back_until_addressed (hs : s.Reachable) :
    (∀ now programId input record t,
      s.createHousehold now programId input = .ok (record, t) →
      ∀ calls, ∃ u, (Database.mk (some t)).after calls = ⟨some u⟩ ∧
        (Untouched calls record.household.id (record.members.map Individual.id) →
          u.record? record.household.id = some record.kept ∧
          (record.IsLegible →
            record.kept = { record with members := sortedBy Individual.unicefId record.members })) ∧
        ∀ member ∈ record.members, Untouched calls record.household.id [member.id] →
          u.individual? member.id = some member.stored ∧
          (member.flexFields.IsLegible → member.stored = member)) ∧
    (∀ id input written t, s.recordRound id input = .ok (some written, t) →
      ∃ individual, s.individual? id = some individual ∧
        (individual.flexFields.IsLegible → input.value.json.keepsNumbers = true →
          (written.stored = written ↔ input.value.json.depth + 3 ≤ Json.depthLimit)) ∧
        ∀ calls, ∃ u, (Database.mk (some t)).after calls = ⟨some u⟩ ∧
          (Untouched calls written.householdId [id] →
            u.individual? id = some written.stored ∧
            (written.flexFields.IsLegible → written.stored = written))) ∧
    (∀ household : Household, Household.ofRow? household.row = some household.stored) ∧
    ∀ individual : Individual, Individual.ofRow? individual.row = some individual.stored := by
  refine ⟨?_, ?_, Household.ofRow?_row, Individual.ofRow?_row⟩
  · intro now programId input record t h calls
    obtain ⟨u, hu⟩ := exists_after_eq t calls
    refine ⟨u, hu, fun huntouched => ?_, fun member hmember huntouched => ?_⟩
    · exact ⟨record?_of_createHousehold hs h hu huntouched, fun hlegible => hlegible.kept_eq⟩
    · exact ⟨individual?_of_createHousehold hs h hu hmember huntouched, Individual.stored_eq_self⟩
  · intro id input written t h
    obtain ⟨individual, hfound, hwritten, -⟩ := written_of_recordRound h
    refine ⟨individual, hfound, fun hlegible hnumbers => ?_, fun calls => ?_⟩
    · rw [Individual.stored_eq_self_iff, hwritten]
      exact NewRoundValue.reread_addTo_iff hlegible hnumbers
    · obtain ⟨u, hu⟩ := exists_after_eq t calls
      refine ⟨u, hu, fun huntouched => ?_⟩
      exact ⟨individual?_of_recordRound hs h hu huntouched, Individual.stored_eq_self⟩

/-- A household with a date, attributes of its own and two members, of whom the second comes first by
registration id. -/
def newcomers : NewHousehold :=
  { exampleHousehold "HH-2" ["IND-3", "IND-2"] with
    firstRegistrationDate := some ⟨-44, 2, 29, by decide⟩
    flexFields := .of [("shelter", .array [.object [("tents", .ofInt 2)], .null])] }

/-- Calls about others: a withdrawal, a recorded round, and a registration that is refused. -/
def callsAboutOthers : List Call :=
  [ .withdrawHousehold (idAfter 5),
    .recordRound (idAfter 6) firstMeasure,
    .createHousehold (idAfter 0) newcomers ].map fun operation => { now := exampleMoment, operation }

/-- The newcomers are registered with the next identifiers, and their attributes are legible. -/
theorem sharedNameStore_registers :
    ∃ record t,
      sharedNameStore.createHousehold exampleMoment (idAfter 0) newcomers = .ok (record, t) ∧
      record.household.flexFields = newcomers.flexFields ∧ record.IsLegible ∧
      record.household.id = idAfter 7 ∧
      record.members.map Individual.id = [idAfter 8, idAfter 9] := by
  have haccepted : (sharedNameStore.createHousehold exampleMoment (idAfter 0)
      newcomers).toOption.isSome = true := by
    decide +kernel
  have hissued : sharedNameStore.issued = 7 := by
    decide +kernel
  have hlegible : newcomers.flexFields.IsLegible := ⟨by decide, by decide +kernel⟩
  have hempty : ∀ person ∈ newcomers.members, person.flexFields = .empty := by
    simp [newcomers, exampleHousehold]
  obtain ⟨⟨record, t⟩, h⟩ := Option.isSome_iff_exists.mp haccepted
  have h := toOption_eq_some_iff.mp h
  obtain ⟨program, headIndex, -, -, -, -, rfl⟩ := createHousehold_eq_ok_iff.mp h
  refine ⟨_, t, h, rfl, ⟨hlegible, fun member hmember => ?_⟩, ?_, ?_⟩
  · obtain ⟨n, person, hperson, rfl⟩ := mem_registeredAll.mp hmember
    change person.flexFields.IsLegible
    rw [hempty person (List.mem_of_getElem? hperson)]
    exact Json.Fields.isLegible_empty
  · rw [← hissued]
    rfl
  · rw [map_id_registeredAll, hissued]
    rfl

/-- The newcomers are read back after calls about others; so is a measure that is recorded on the
head of the earlier household before they come. -/
theorem newcomers_read_back :
    (∃ record t u, sharedNameStore.Reachable ∧
      sharedNameStore.createHousehold exampleMoment (idAfter 0) newcomers = .ok (record, t) ∧
      record.household.flexFields = newcomers.flexFields ∧ record.IsLegible ∧
      Untouched callsAboutOthers record.household.id (record.members.map Individual.id) ∧
      (Database.mk (some t)).after callsAboutOthers = ⟨some u⟩ ∧
      u.record? record.household.id =
        some { record with members := sortedBy Individual.unicefId record.members }) ∧
    ∃ written t u,
      sharedNameStore.recordRound (idAfter 6) firstMeasure = .ok (some written, t) ∧
      written.flexFields = firstMeasure.addTo thinFields ∧
      (Database.mk (some t)).after (callsAboutOthers.drop 2) = ⟨some u⟩ ∧
      u.individual? (idAfter 6) = some written := by
  obtain ⟨hregistered, hrecorded, -, -⟩ := reads_back_until_addressed sharedNameStore_reachable
  constructor
  · obtain ⟨record, t, h, hfields, hlegible, hid, hids⟩ := sharedNameStore_registers
    obtain ⟨u, hu, hrecord, -⟩ := hregistered _ _ _ _ _ h callsAboutOthers
    have huntouched : Untouched callsAboutOthers record.household.id
        (record.members.map Individual.id) := by
      rw [hid, hids]
      intro call hcall
      simp only [callsAboutOthers, List.map_cons, List.map_nil, List.mem_cons, List.not_mem_nil,
        or_false] at hcall
      rcases hcall with rfl | rfl | rfl
      · exact (ids_injective .counting).ne (by decide)
      · change idAfter 6 ∉ [idAfter 8, idAfter 9]
        decide
      · exact id
    obtain ⟨hread, hkept⟩ := hrecord huntouched
    refine ⟨record, t, u, sharedNameStore_reachable, h, hfields, hlegible, huntouched, hu, ?_⟩
    rw [hread, hkept hlegible]
  · have hthin : thinFields.IsLegible := ⟨by decide, by decide⟩
    obtain ⟨head, hfound, hid, hfields, hrecord, -⟩ := sharedNameStore_records
    obtain ⟨individual, hindividual, hkept, hcalls⟩ := hrecorded _ _ _ _ hrecord
    obtain rfl : individual = head := Option.some.inj (hindividual.symm.trans (hid ▸ hfound))
    have hstored := (hkept (hfields ▸ hthin) (by decide +kernel)).mpr (by decide)
    obtain ⟨u, hu, hread⟩ := hcalls (callsAboutOthers.drop 2)
    have huntouched : Untouched (callsAboutOthers.drop 2)
        (individual.withRound firstMeasure).householdId [idAfter 6] := by
      intro call hcall
      obtain rfl := List.mem_singleton.mp hcall
      exact id
    refine ⟨_, _, u, hrecord, ?_, hu, ?_⟩
    · rw [Individual.withRound, hfields]
    · rw [(hread huntouched).1, hstored]

/-- A measure so faint that its decimal is read as a neighbour: it is what `8e-25` is read as. -/
def faintMeasure : NewRoundValue :=
  { firstMeasure with value := .of (.number (.float (.ofDecimal false 7999999999999999 (-40)))) }

/-- A faint measure is recorded, and is not read back as it was answered. -/
theorem faintMeasure_drifts :
    ∃ written t, sharedNameStore.Reachable ∧
      sharedNameStore.recordRound (idAfter 6) faintMeasure = .ok (some written, t) ∧
      t.individual? (idAfter 6) ≠ some written := by
  have hdrift : (faintMeasure.addTo thinFields).reread ≠ faintMeasure.addTo thinFields := by
    decide +kernel
  obtain ⟨head, hfound, hid, hfields, hrecord, -⟩ := sharedNameStore_records
  rcases recordRound_eq_ok_iff.mp hrecord with ⟨-, hnone, -⟩ | ⟨individual, hi, hround, -, -⟩
  · cases hnone
  obtain rfl : individual = head := Option.some.inj (hi.symm.trans (hid ▸ hfound))
  have hwritten : sharedNameStore.recordRound (idAfter 6) faintMeasure =
      .ok (some (individual.withRound faintMeasure),
        sharedNameStore.withRound individual faintMeasure) :=
    recordRound_eq_ok_iff.mpr (.inr ⟨individual, hi, hround, rfl, rfl⟩)
  refine ⟨_, _, sharedNameStore_reachable, hwritten, fun hread => hdrift ?_⟩
  have hkeyed := sharedNameStore_reachable.invariants.1.of_recordRound hwritten
  have hstored : (sharedNameStore.withRound individual faintMeasure).individual? individual.id =
      some (individual.withRound faintMeasure).stored :=
    hkeyed.individual?_eq_some (mem_of_recordRound hwritten).2
  rw [hid, hread] at hstored
  have hflex := congrArg Individual.flexFields (Option.some.inj hstored)
  rw [← hfields]
  exact hflex.symm

end Store

end Beneficiary
