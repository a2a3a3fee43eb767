import Beneficiary.Proofs.Store.Updates

/-!
# Updates in any order

Updates that record no round twice can be run in any order. Each of them comes out as it would have
on the first store, and the stores in the end are equal, because what two updates make of one entity
does not depend on their order. A recorded round is not lost to a later one, and a withdrawal that is
repeated finds its work done.
-/

namespace Beneficiary

/-- Two operations record the same round of the same field on the same individual. -/
def Operation.SameRound : Operation → Operation → Prop
  | .recordRound id input, .recordRound other stated =>
    id = other ∧ input.field = stated.field ∧ input.round = stated.round
  | _, _ => False

/-- Recording the same round is mutual. -/
theorem Operation.SameRound.symm {a b : Operation} (h : a.SameRound b) : b.SameRound a := by
  cases a with
  | recordRound id input =>
    cases b with
    | recordRound other stated => exact ⟨h.1.symm, h.2.1.symm, h.2.2.symm⟩
    | _ => exact h.elim
  | _ => exact h.elim

/-- No two of the calls record the same round. -/
def DistinctRounds (calls : List Call) : Prop :=
  calls.Pairwise fun a b => ¬ a.operation.SameRound b.operation

namespace Store

variable {s : Store} {a b operation : Operation} {call : Call} {calls order : List Call}

/-- Two updates of a household can be exchanged. -/
theorem updateHousehold_comm (s : Store) (a b : Operation) (h : Household) :
    s.updateHousehold a (s.updateHousehold b h) = s.updateHousehold b (s.updateHousehold a h) := by
  have hsame (operation : Operation) (w : Bool) :
      s.withdrawsHousehold { h with withdrawn := w } operation =
        s.withdrawsHousehold h operation := by
    cases operation <;> rfl
  simp only [updateHousehold, hsame]
  rw [Bool.or_right_comm]

/-- An update of a household is done once it was made. -/
theorem updateHousehold_idem (s : Store) (operation : Operation) (h : Household) :
    s.updateHousehold operation (s.updateHousehold operation h) =
      s.updateHousehold operation h := by
  have hsame (w : Bool) : s.withdrawsHousehold { h with withdrawn := w } operation =
      s.withdrawsHousehold h operation := by
    cases operation <;> rfl
  simp only [updateHousehold, hsame, Bool.or_assoc, Bool.or_self]

/-- A round that an update records is stated for the individual. -/
theorem eq_of_recordedOn? {i : Individual} {input : NewRoundValue}
    (h : s.recordedOn? i operation = some input) : operation = .recordRound i.id input := by
  cases operation with
  | recordRound id stated =>
    rw [recordedOn?] at h
    split at h
    · next hid =>
      obtain rfl := Option.some.inj h
      rw [hid.1]
    · cases h
  | _ => cases h

private theorem recordedOn?_congr (s : Store) (i : Individual) (fields : Json.Fields) (w : Bool)
    (operation : Operation) :
    s.recordedOn? { i with flexFields := fields, withdrawn := w } operation =
      s.recordedOn? i operation := by
  cases operation <;> rfl

private theorem withdrawsIndividual_congr (i : Individual) (fields : Json.Fields) (w : Bool)
    (operation : Operation) :
    withdrawsIndividual { i with flexFields := fields, withdrawn := w } operation =
      withdrawsIndividual i operation := by
  cases operation <;> rfl

/-- Two updates of an individual can be exchanged unless they record the same round. -/
theorem updateIndividual_comm (s : Store) (h : ¬ a.SameRound b) (i : Individual) :
    s.updateIndividual a (s.updateIndividual b i) =
      s.updateIndividual b (s.updateIndividual a i) := by
  have hfields (fields : Json.Fields) :
      (s.recordedOn? i a).elim ((s.recordedOn? i b).elim fields fun y => y.addTo fields)
          (fun x => x.addTo ((s.recordedOn? i b).elim fields fun y => y.addTo fields)) =
        (s.recordedOn? i b).elim ((s.recordedOn? i a).elim fields fun x => x.addTo fields)
          (fun y => y.addTo ((s.recordedOn? i a).elim fields fun x => x.addTo fields)) := by
    cases hx : s.recordedOn? i a with
    | none => rfl
    | some x =>
      cases hy : s.recordedOn? i b with
      | none => rfl
      | some y =>
        -- both are recorded on this individual, so they differ in the field or in the round
        rw [eq_of_recordedOn? hx, eq_of_recordedOn? hy] at h
        apply x.addTo_comm
        by_contra hboth
        rw [not_or, not_not, not_not] at hboth
        exact h ⟨rfl, hboth⟩
  simp only [updateIndividual, recordedOn?_congr, withdrawsIndividual_congr, hfields]
  rw [Bool.or_right_comm]

/-- A withdrawal of an individual is done once it was made. -/
theorem updateIndividual_idem (s : Store) (h : operation.IsWithdrawal) (i : Individual) :
    s.updateIndividual operation (s.updateIndividual operation i) =
      s.updateIndividual operation i := by
  have hnone : s.recordedOn? i operation = none := by
    cases operation with
    | recordRound => exact h.elim
    | _ => rfl
  simp only [updateIndividual, recordedOn?_congr, withdrawsIndividual_congr, hnone,
    Option.elim_none, Bool.or_assoc, Bool.or_self]

/-- What updates in turn make of a household. -/
def updateHouseholdBy (s : Store) (calls : List Call) (h : Household) : Household :=
  calls.foldl (fun h call => s.updateHousehold call.operation h) h

/-- What updates in turn make of an individual. -/
def updateIndividualBy (s : Store) (calls : List Call) (i : Individual) : Individual :=
  calls.foldl (fun i call => s.updateIndividual call.operation i) i

/-- The store with every entity updated in turn. -/
def updated (s : Store) (calls : List Call) : Store :=
  s.revise (s.updateHouseholdBy calls) (s.updateIndividualBy calls)

/-- Updates in turn at most withdraw a household. -/
theorem keepsHousehold_updateBy (s : Store) (calls : List Call) :
    KeepsHousehold (s.updateHouseholdBy calls) := by
  induction calls with
  | nil => exact keepsHousehold_id
  | cons call rest ih => exact ih.comp (keepsHousehold_update s call.operation)

/-- Updates in turn change an individual in the attributes and in being withdrawn at most. -/
theorem keepsIndividual_updateBy (s : Store) (calls : List Call) :
    KeepsIndividual (s.updateIndividualBy calls) := by
  induction calls with
  | nil => exact fun i => ⟨i.flexFields, i.withdrawn, rfl⟩
  | cons call rest ih => exact ih.comp (keepsIndividual_update s call.operation)

/-- After one update the others make of the entities what they would have made of them at first. -/
theorem updated_revise (s : Store) (call : Call) (rest : List Call) :
    (s.revise (s.updateHousehold call.operation) (s.updateIndividual call.operation)).updated rest =
      s.updated (call :: rest) := by
  have hf := keepsHousehold_update s call.operation
  have hg := keepsIndividual_update s call.operation
  unfold updated updateHouseholdBy updateIndividualBy
  simp only [updateHousehold_revise hg, updateIndividual_revise hf hg, revise_revise]
  rfl

/-- Updates that are read back leave the entities updated in turn, and each comes out as it would
have on the first store. -/
theorem run_updates (hs : s.Keyed) (hupdates : ∀ call ∈ calls, call.operation.IsUpdate)
    (hread : (Database.mk (some s)).readsBack calls = true) :
    (Database.mk (some s)).after calls = ⟨some (s.updated calls)⟩ ∧
      (Database.mk (some s)).outcomes calls = calls.map (Database.mk (some s)).outcome := by
  induction calls generalizing s with
  | nil =>
    refine ⟨?_, rfl⟩
    change Database.mk (some s) = ⟨some (s.revise (fun h => h) fun i => i)⟩
    rw [revise, List.map_id', List.map_id']
  | cons call rest ih =>
    obtain ⟨hupdate, hupdates⟩ := List.forall_mem_cons.mp hupdates
    rw [Database.readsBack, Bool.and_eq_true] at hread
    have hrun := run_update hs hupdate hread.1
    have hf := keepsHousehold_update s call.operation
    have hg := keepsIndividual_update s call.operation
    rw [hrun] at hread
    obtain ⟨hafter, houtcomes⟩ := ih (hs.revise hf hg) hupdates hread.2
    constructor
    · rw [Database.after, hrun, hafter, updated_revise]
    · rw [Database.outcomes, hrun, houtcomes, List.map_cons]
      congr 1
      apply List.map_congr_left
      intro later hlater
      exact outcome_revise hf hg (hupdates later hlater)

private theorem updateIndividual_comm_of_mem (hdistinct : DistinctRounds calls) {x y : Call}
    (hx : x ∈ calls) (hy : y ∈ calls) (i : Individual) :
    s.updateIndividual y.operation (s.updateIndividual x.operation i) =
      s.updateIndividual x.operation (s.updateIndividual y.operation i) := by
  by_cases hxy : y = x
  · rw [hxy]
  · have hsymm : Std.Symm fun a b : Call => ¬ a.operation.SameRound b.operation :=
      ⟨fun _ _ h hsame => h hsame.symm⟩
    apply updateIndividual_comm
    exact hdistinct.forall hy hx hxy

/-- The order of updates that record no round twice does not matter. -/
theorem updated_eq_of_perm (hdistinct : DistinctRounds calls) (h : calls.Perm order) :
    s.updated calls = s.updated order := by
  unfold updated
  congr 1
  · funext household
    exact h.foldl_eq' (fun _ _ _ _ _ => updateHousehold_comm s _ _ _) household
  · funext i
    exact h.foldl_eq' (fun _ hx _ hy _ => updateIndividual_comm_of_mem hdistinct hx hy _) i

/-- Any of the updates can come last. -/
theorem exists_perm_concat (h : call ∈ calls) : ∃ rest, calls.Perm (rest ++ [call]) := by
  obtain ⟨before, after, rfl⟩ := List.append_of_mem h
  refine ⟨before ++ after, ?_⟩
  calc
    (before ++ call :: after).Perm (call :: (before ++ after)) := List.perm_middle
    (call :: (before ++ after)).Perm (before ++ after ++ [call]) :=
      (List.perm_append_singleton _ _).symm

/-- The last of updates in turn is made of what the others left. -/
theorem updated_concat (s : Store) (rest : List Call) (call : Call) :
    s.updated (rest ++ [call]) =
      s.revise (s.updateHousehold call.operation ∘ s.updateHouseholdBy rest)
        (s.updateIndividual call.operation ∘ s.updateIndividualBy rest) := by
  unfold updated updateHouseholdBy updateIndividualBy
  simp only [List.foldl_append, List.foldl_cons, List.foldl_nil]
  rfl

/-- A round that comes out as done is recorded. -/
theorem recordsRound_of_outcome {now : Moment} {id : Uuid} {input : NewRoundValue}
    (h : (Database.mk (some s)).outcome ⟨now, .recordRound id input⟩ = .done) :
    s.recordsRound id input = true := by
  unfold Database.outcome Database.run Store.run recordRound at h
  unfold recordsRound
  cases hi : s.individual? id with
  | none => simp [hi, Except.map, Outcome.of] at h
  | some i =>
    cases hround : s.checkRound i input.field input.round with
    | error failure => simp [hi, hround, Except.map, bind, Except.bind, Outcome.of] at h
    | ok u => simp [hround, Except.toOption]

/-- In the end each recorded round holds the value that was stated. -/
theorem round?_updated (hdistinct : DistinctRounds calls) {id : Uuid} {input : NewRoundValue}
    (hcall : call ∈ calls) (hoperation : call.operation = .recordRound id input)
    (h : s.recordsRound id input = true) :
    ∃ i, (s.updated calls).individual? id = some i ∧
      i.flexFields.round? input.field input.round = some input.value.json := by
  obtain ⟨rest, hperm⟩ := exists_perm_concat hcall
  obtain ⟨i, hi, -⟩ := recordsRound_iff.mp h
  have hkeeps := keepsIndividual_updateBy s rest
  have hid : (s.updateIndividualBy rest i).id = id := by
    rw [hkeeps.id_eq, (mem_of_individual? hi).2]
  have hrecorded : s.recordedOn? (s.updateIndividualBy rest i) call.operation = some input := by
    rw [hoperation, recordedOn?, if_pos ⟨hid, h⟩]
  refine ⟨s.updateIndividual call.operation (s.updateIndividualBy rest i), ?_, ?_⟩
  · rw [updated_eq_of_perm hdistinct hperm, updated_concat,
      individual?_revise ((keepsIndividual_update s call.operation).comp hkeeps), hi]
    rfl
  · rw [updateIndividual, hrecorded]
    exact input.round?_addTo_self _

/-- A withdrawal answers after changes what it would have answered before them. -/
theorem withdrawal_revise {f : Household → Household} {g : Individual → Individual}
    (hf : KeepsHousehold f) (hg : KeepsIndividual g) (h : operation.IsWithdrawal)
    (now later : Moment) :
    ((Database.mk (some (s.revise f g))).run later operation).1 =
      ((Database.mk (some s)).run now operation).1 := by
  cases operation with
  | withdrawHousehold id => simp [Database.run, Store.run, household?_revise hf]
  | withdrawIndividual id => simp [Database.run, Store.run, individual?_revise hg]
  | _ => exact h.elim

/-- A withdrawal is an update that is read back. -/
theorem isReadBack_of_isWithdrawal (h : operation.IsWithdrawal) (now : Moment) :
    operation.IsUpdate ∧ ((Database.mk (some s)).run now operation).1.toOption.all
      Answer.isReadBack = true := by
  cases operation with
  | withdrawHousehold id => exact ⟨h, rfl⟩
  | withdrawIndividual id => exact ⟨h, rfl⟩
  | _ => exact h.elim

/-- A withdrawal that was run changes nothing when it is repeated, and answers the same. -/
theorem repeated_withdrawal (hs : s.Keyed) (hdistinct : DistinctRounds calls)
    (hcall : call ∈ calls) (h : call.operation.IsWithdrawal) (later : Moment) :
    (Database.mk (some (s.updated calls))).run later call.operation =
      (((Database.mk (some s)).run call.now call.operation).1, ⟨some (s.updated calls)⟩) := by
  obtain ⟨rest, hperm⟩ := exists_perm_concat hcall
  have hf := keepsHousehold_updateBy s calls
  have hg := keepsIndividual_updateBy s calls
  obtain ⟨hupdate, hread⟩ := isReadBack_of_isWithdrawal (s := s.updated calls) h later
  have hrun : ((Database.mk (some (s.updated calls))).run later call.operation).2 =
      ⟨some ((s.updated calls).revise ((s.updated calls).updateHousehold call.operation)
        ((s.updated calls).updateIndividual call.operation))⟩ :=
    run_update (hs.revise hf hg) hupdate hread
  apply Prod.ext
  · exact withdrawal_revise hf hg h call.now later
  · rw [hrun, updated, updateHousehold_revise hg, updateIndividual_revise hf hg, ← updated]
    rw [updated_eq_of_perm hdistinct hperm, updated_concat, revise_revise]
    simp only [Function.comp_def, updateHousehold_idem, updateIndividual_idem s h]

/-- Updates that record no round twice have one result. Whatever the order in which they are run, as
long as what they write is read back as written, each of them comes out as it would have on the first
store, and the store in the end is the same. In it every round that was recorded holds the value that
was stated. A withdrawal among them, or one on its own, changes nothing when it is repeated and
answers what it answered. -/
theorem updates_in_any_order (hs : s.Reachable)
    (hupdates : ∀ call ∈ calls, call.operation.IsUpdate) (hdistinct : DistinctRounds calls) :
    (∃ t, (∀ order, order.Perm calls → (Database.mk (some s)).readsBack order = true →
        (Database.mk (some s)).after order = ⟨some t⟩ ∧
        (Database.mk (some s)).outcomes order = order.map (Database.mk (some s)).outcome) ∧
      (∀ call ∈ calls, ∀ id input, call.operation = .recordRound id input →
        (Database.mk (some s)).outcome call = .done →
        ∃ i, t.individual? id = some i ∧
          i.flexFields.round? input.field input.round = some input.value.json) ∧
      ∀ call ∈ calls, call.operation.IsWithdrawal → ∀ later,
        (Database.mk (some t)).run later call.operation =
          (((Database.mk (some s)).run call.now call.operation).1, ⟨some t⟩)) ∧
    ∀ operation : Operation, operation.IsWithdrawal → ∀ now later,
      ((Database.mk (some s)).run now operation).2.run later operation =
        (Database.mk (some s)).run now operation := by
  obtain ⟨hkeyed, -⟩ := hs.invariants
  refine ⟨⟨s.updated calls, ?_, ?_, ?_⟩, ?_⟩
  · intro order hperm hread
    have hmembers : ∀ call ∈ order, call.operation.IsUpdate := fun call hcall =>
      hupdates call (hperm.mem_iff.mp hcall)
    rw [updated_eq_of_perm hdistinct hperm.symm]
    exact run_updates hkeyed hmembers hread
  · intro call hcall id input hoperation hdone
    apply round?_updated hdistinct hcall hoperation
    obtain ⟨now, operation⟩ := call
    obtain rfl : operation = .recordRound id input := hoperation
    exact recordsRound_of_outcome hdone
  · intro call hcall hwithdrawal later
    exact repeated_withdrawal hkeyed hdistinct hcall hwithdrawal later
  · intro operation hwithdrawal now later
    obtain ⟨hupdate, hread⟩ := isReadBack_of_isWithdrawal (s := s) hwithdrawal now
    have hupdated : ((Database.mk (some s)).run now operation).2 =
        ⟨some (s.updated [⟨now, operation⟩])⟩ :=
      run_update hkeyed hupdate hread
    have hsingle : DistinctRounds [⟨now, operation⟩] := List.pairwise_singleton _ _
    rw [hupdated, repeated_withdrawal hkeyed hsingle List.mem_cons_self hwithdrawal later]
    exact Prod.ext rfl hupdated.symm

/-- Two rounds of the head's arm circumference and one that the field does not have, while the
household is withdrawn and an unknown person is. -/
def interleavedCalls : List Call :=
  [ .recordRound (idAfter 6) firstMeasure,
    .recordRound (idAfter 6) { firstMeasure with round := 2, value := .of (.ofNat 115) },
    .recordRound (idAfter 6) { firstMeasure with round := 3 },
    .withdrawHousehold (idAfter 5),
    .withdrawIndividual (idAfter 7) ].map fun operation => { now := exampleMoment, operation }

/-- Forwards and backwards the calls leave the same store behind, in which the first round is kept,
and each of them comes out alike. -/
theorem interleavedCalls_reversed :
    sharedNameStore.Reachable ∧ (∀ call ∈ interleavedCalls, call.operation.IsUpdate) ∧
      DistinctRounds interleavedCalls ∧
      (Database.mk (some sharedNameStore)).readsBack interleavedCalls = true ∧
      (Database.mk (some sharedNameStore)).readsBack interleavedCalls.reverse = true ∧
      (Database.mk (some sharedNameStore)).outcomes interleavedCalls =
        [.done, .done, .refused (.noSuchRound 3 2), .done, .nothing] ∧
      (Database.mk (some sharedNameStore)).outcomes interleavedCalls.reverse =
        [.nothing, .done, .refused (.noSuchRound 3 2), .done, .done] ∧
      ∃ t i, (Database.mk (some sharedNameStore)).after interleavedCalls = ⟨some t⟩ ∧
        (Database.mk (some sharedNameStore)).after interleavedCalls.reverse = ⟨some t⟩ ∧
        t.individual? (idAfter 6) = some i ∧ i.flexFields.round? "muac" 1 = some (.ofNat 110) := by
  have hupdates : ∀ call ∈ interleavedCalls, call.operation.IsUpdate := by
    simp [interleavedCalls, Operation.IsUpdate, Operation.IsWithdrawal]
  have hdistinct : DistinctRounds interleavedCalls := by
    simp [DistinctRounds, interleavedCalls, Operation.SameRound, firstMeasure]
  have hread : (Database.mk (some sharedNameStore)).readsBack interleavedCalls = true := by
    decide +kernel
  have hreversed : (Database.mk (some sharedNameStore)).readsBack interleavedCalls.reverse =
      true := by
    decide +kernel
  have houtcomes : interleavedCalls.map (Database.mk (some sharedNameStore)).outcome =
      [.done, .done, .refused (.noSuchRound 3 2), .done, .nothing] := by
    decide +kernel
  obtain ⟨⟨t, hany, hkept, -⟩, -⟩ :=
    updates_in_any_order sharedNameStore_reachable hupdates hdistinct
  obtain ⟨hafter, hforwards⟩ := hany _ (.refl _) hread
  obtain ⟨hafter', hbackwards⟩ := hany _ (List.reverse_perm _) hreversed
  obtain ⟨i, hi, hround⟩ := hkept ⟨exampleMoment, .recordRound (idAfter 6) firstMeasure⟩
    List.mem_cons_self (idAfter 6) firstMeasure rfl (by decide +kernel)
  refine ⟨sharedNameStore_reachable, hupdates, hdistinct, hread, hreversed, ?_, ?_, t, i, hafter,
    hafter', hi, hround⟩
  · rw [hforwards, houtcomes]
  · rw [hbackwards, List.map_reverse, houtcomes]
    rfl

end Store

end Beneficiary
