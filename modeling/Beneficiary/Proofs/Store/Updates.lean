import Beneficiary.Proofs.Store.Recording

/-!
# Updates of registered entities

A withdrawal and the recording of a round are updates: they register nothing and change entities one
by one. Whom an update concerns, and whether it is refused, depends on what entities were registered
with, which no update changes. So after any updates a further one comes out as it would have at
first, and makes of each entity what it would have made of it then.
-/

namespace Beneficiary

/-- The operation withdraws a household or an individual, or records a round. -/
def Operation.IsUpdate : Operation → Prop
  | .recordRound _ _ => True
  | operation => operation.IsWithdrawal

/-- How an operation comes out, the entity that it answers with aside. -/
inductive Outcome where
  | refused (failure : Failure)
  /-- There is no entity of the identifier. -/
  | nothing
  | done
deriving DecidableEq, Repr

/-- The outcome of an operation with an answer or a failure. -/
def Outcome.of : Except Failure Answer → Outcome
  | .error failure => .refused failure
  | .ok (.withdrawn false) => .nothing
  | .ok (.individual none) => .nothing
  | .ok _ => .done

/-- Whether the attributes of an individual that is answered are read back from their text as they
are. -/
def Answer.isReadBack : Answer → Bool
  | .individual (some written) => decide (written.flexFields.reread = written.flexFields)
  | _ => true

namespace Database

/-- How a call comes out. -/
def outcome (db : Database) (call : Call) : Outcome :=
  .of (db.run call.now call.operation).1

/-- How calls come out in turn. -/
def outcomes (db : Database) : List Call → List Outcome
  | [] => []
  | call :: rest => db.outcome call :: (db.run call.now call.operation).2.outcomes rest

/-- Whether all attributes that calls in turn write are read back from their text as they were
written. -/
def readsBack (db : Database) : List Call → Bool
  | [] => true
  | call :: rest =>
    (db.run call.now call.operation).1.toOption.all Answer.isReadBack &&
      (db.run call.now call.operation).2.readsBack rest

end Database

namespace Store

variable {s : Store} {f : Household → Household} {g : Individual → Individual}

/-- Changes one after the other are one change. -/
theorem revise_revise (s : Store) (f f' : Household → Household) (g g' : Individual → Individual) :
    (s.revise f g).revise f' g' = s.revise (f' ∘ f) (g' ∘ g) := by
  simp [revise]

/-- Two changes of households keep what each of them keeps. -/
theorem KeepsHousehold.comp {f' : Household → Household} (hf' : KeepsHousehold f')
    (hf : KeepsHousehold f) : KeepsHousehold (f' ∘ f) := by
  intro h
  obtain ⟨w, hw⟩ := hf h
  obtain ⟨w', hw'⟩ := hf' (f h)
  exact ⟨w', by rw [Function.comp_apply, hw', hw]⟩

/-- Two changes of individuals keep what each of them keeps. -/
theorem KeepsIndividual.comp {g' : Individual → Individual} (hg' : KeepsIndividual g')
    (hg : KeepsIndividual g) : KeepsIndividual (g' ∘ g) := by
  intro i
  obtain ⟨fields, w, hw⟩ := hg i
  obtain ⟨fields', w', hw'⟩ := hg' (g i)
  exact ⟨fields', w', by rw [Function.comp_apply, hw', hw]⟩

/-- Whether a household only wraps an individual does not depend on such changes. -/
theorem wraps_revise (hg : KeepsIndividual g) (h : Household) (id : Uuid) :
    (s.revise f g).wraps h id = s.wraps h id := by
  simp [wraps, revise, Function.comp_def, hg.id_eq, hg.householdId_eq]

/-- Whether a round can be recorded does not depend on such changes. -/
theorem checkRound_revise (hf : KeepsHousehold f) (hg : KeepsIndividual g) (i : Individual)
    (field : String) (round : UInt32) :
    (s.revise f g).checkRound (g i) field round = s.checkRound i field round := by
  have hfields : (s.revise f g).periodicFieldsFor (g i) = s.periodicFieldsFor i := by
    rw [periodicFieldsFor, household?_revise hf, hg.householdId_eq, periodicFieldsFor]
    cases s.household? i.householdId with
    | none => rfl
    | some h =>
      change s.periodicFieldsOf (f h).programId = s.periodicFieldsOf h.programId
      rw [hf.programId_eq]
  rw [checkRound, hfields, checkRound]

/-- Whether an update withdraws a household. -/
def withdrawsHousehold (s : Store) (h : Household) : Operation → Bool
  | .withdrawHousehold id => h.id == id
  | .withdrawIndividual id => s.wraps h id
  | _ => false

/-- Whether an update withdraws an individual. -/
def withdrawsIndividual (i : Individual) : Operation → Bool
  | .withdrawHousehold id => i.householdId == id
  | .withdrawIndividual id => i.id == id
  | _ => false

/-- Whether a round of an individual is recorded. -/
def recordsRound (s : Store) (id : Uuid) (input : NewRoundValue) : Bool :=
  (s.individual? id).any fun i => (s.checkRound i input.field input.round).toOption.isSome

/-- The round that an update records on an individual. -/
def recordedOn? (s : Store) (i : Individual) : Operation → Option NewRoundValue
  | .recordRound id input => if i.id = id ∧ s.recordsRound id input = true then some input else none
  | _ => none

/-- What an update makes of a household. -/
def updateHousehold (s : Store) (operation : Operation) (h : Household) : Household :=
  { h with withdrawn := h.withdrawn || s.withdrawsHousehold h operation }

/-- What an update makes of an individual. -/
def updateIndividual (s : Store) (operation : Operation) (i : Individual) : Individual :=
  { i with
    flexFields := (s.recordedOn? i operation).elim i.flexFields fun input =>
      input.addTo i.flexFields
    withdrawn := i.withdrawn || withdrawsIndividual i operation }

/-- An update at most withdraws a household. -/
theorem keepsHousehold_update (s : Store) (operation : Operation) :
    KeepsHousehold (s.updateHousehold operation) := fun _ => ⟨_, rfl⟩

/-- An update changes an individual in the attributes and in being withdrawn at most. -/
theorem keepsIndividual_update (s : Store) (operation : Operation) :
    KeepsIndividual (s.updateIndividual operation) := fun _ => ⟨_, _, rfl⟩

private theorem ite_withdraw_eq {p : Prop} [Decidable p] {w : Bool} (hw : w = true ↔ p)
    (h : Household) :
    (if p then h.withdraw else h) = { h with withdrawn := h.withdrawn || w } := by
  by_cases hp : p
  · rw [if_pos hp, hw.mpr hp, Bool.or_true, Household.withdraw]
  · rw [if_neg hp, Bool.eq_false_iff.mpr (mt hw.mp hp), Bool.or_false]

private theorem individual_ite_withdraw_eq {p : Prop} [Decidable p] {w : Bool} (hw : w = true ↔ p)
    (i : Individual) :
    (if p then i.withdraw else i) = { i with withdrawn := i.withdrawn || w } := by
  by_cases hp : p
  · rw [if_pos hp, hw.mpr hp, Bool.or_true, Individual.withdraw]
  · rw [if_neg hp, Bool.eq_false_iff.mpr (mt hw.mp hp), Bool.or_false]

/-- Withdrawing a household updates the entities. -/
theorem withdrawHousehold_eq (s : Store) (id : Uuid) :
    s.withdrawHousehold id =
      s.revise (s.updateHousehold (.withdrawHousehold id))
        (s.updateIndividual (.withdrawHousehold id)) := by
  unfold withdrawHousehold revise
  congr 1
  · apply List.map_congr_left
    intro h _
    exact ite_withdraw_eq beq_iff_eq h
  · apply List.map_congr_left
    intro i _
    exact individual_ite_withdraw_eq beq_iff_eq i

/-- Withdrawing an individual updates the entities. -/
theorem withdrawIndividual_eq (s : Store) (id : Uuid) :
    s.withdrawIndividual id =
      s.revise (s.updateHousehold (.withdrawIndividual id))
        (s.updateIndividual (.withdrawIndividual id)) := by
  unfold withdrawIndividual revise
  congr 1
  · apply List.map_congr_left
    intro h _
    exact ite_withdraw_eq Iff.rfl h
  · apply List.map_congr_left
    intro i _
    exact individual_ite_withdraw_eq beq_iff_eq i

/-- What an update makes of an entity does not depend on changes before it. -/
theorem updateHousehold_revise (hg : KeepsIndividual g) (operation : Operation) :
    (s.revise f g).updateHousehold operation = s.updateHousehold operation := by
  funext h
  rw [updateHousehold, updateHousehold]
  cases operation with
  | withdrawIndividual id => rw [withdrawsHousehold, wraps_revise hg, withdrawsHousehold]
  | _ => rfl

/-- Whether a round is recorded does not depend on changes before it. -/
theorem recordsRound_revise (hf : KeepsHousehold f) (hg : KeepsIndividual g) (id : Uuid)
    (input : NewRoundValue) :
    (s.revise f g).recordsRound id input = s.recordsRound id input := by
  rw [recordsRound, individual?_revise hg, Option.any_map, recordsRound]
  congr 1
  funext i
  rw [checkRound_revise hf hg]

/-- What an update makes of an individual does not depend on changes before it. -/
theorem updateIndividual_revise (hf : KeepsHousehold f) (hg : KeepsIndividual g)
    (operation : Operation) :
    (s.revise f g).updateIndividual operation = s.updateIndividual operation := by
  funext i
  rw [updateIndividual, updateIndividual]
  cases operation with
  | recordRound id input =>
    rw [recordedOn?, recordsRound_revise hf hg, recordedOn?]
  | _ => rfl

/-- A round is recorded exactly when its individual exists and the round passes its check. -/
theorem recordsRound_iff {id : Uuid} {input : NewRoundValue} :
    s.recordsRound id input = true ↔
      ∃ i, s.individual? id = some i ∧ s.checkRound i input.field input.round = .ok () := by
  unfold recordsRound
  cases s.individual? id with
  | none => simp
  | some i => cases h : s.checkRound i input.field input.round <;> simp [h, Except.toOption]

private theorem revise_update_of_not_recordsRound {id : Uuid} {input : NewRoundValue}
    (h : s.recordsRound id input = false) :
    s.revise (s.updateHousehold (.recordRound id input))
      (s.updateIndividual (.recordRound id input)) = s := by
  have hhousehold : s.updateHousehold (.recordRound id input) = fun h => h := by
    funext h
    simp [updateHousehold, withdrawsHousehold]
  have hindividual : s.updateIndividual (.recordRound id input) = fun i => i := by
    funext i
    simp [updateIndividual, withdrawsIndividual, recordedOn?, h]
  rw [revise, hhousehold, hindividual, List.map_id', List.map_id']

private theorem revise_update_of_recordsRound {id : Uuid} {input : NewRoundValue}
    (h : s.recordsRound id input = true) :
    s.revise (s.updateHousehold (.recordRound id input))
      (s.updateIndividual (.recordRound id input)) =
        s.revise (fun h => h) (input.recordOn id) := by
  have hhousehold : s.updateHousehold (.recordRound id input) = fun h => h := by
    funext h
    simp [updateHousehold, withdrawsHousehold]
  have hindividual : s.updateIndividual (.recordRound id input) = input.recordOn id := by
    funext i
    by_cases hid : i.id = id
    · simp [updateIndividual, withdrawsIndividual, recordedOn?, NewRoundValue.recordOn,
        Individual.withRound, h, hid]
    · simp [updateIndividual, withdrawsIndividual, recordedOn?, NewRoundValue.recordOn, hid]
  rw [hhousehold, hindividual]

/-- An update that is read back changes each entity by itself, be it answered or refused. -/
theorem run_update (hs : s.Keyed) {now : Moment} {operation : Operation}
    (hupdate : operation.IsUpdate)
    (hread : ((Database.mk (some s)).run now operation).1.toOption.all Answer.isReadBack = true) :
    ((Database.mk (some s)).run now operation).2 =
      ⟨some (s.revise (s.updateHousehold operation) (s.updateIndividual operation))⟩ := by
  cases operation with
  | withdrawHousehold id =>
    rw [← withdrawHousehold_eq]
    rfl
  | withdrawIndividual id =>
    rw [← withdrawIndividual_eq]
    rfl
  | recordRound id input =>
    cases hrun : s.recordRound id input with
    | error failure =>
      have hrefused : s.recordsRound id input = false := by
        by_contra h
        obtain ⟨i, hi, hround⟩ := recordsRound_iff.mp (Bool.eq_true_of_not_eq_false h)
        rw [recordRound_eq_ok_iff.mpr (.inr ⟨i, hi, hround, rfl, rfl⟩)] at hrun
        cases hrun
      rw [revise_update_of_not_recordsRound hrefused]
      simp [Database.run, Store.run, hrun, Except.map]
    | ok result =>
      obtain ⟨answer, t⟩ := result
      have hresult : (Database.mk (some s)).run now (.recordRound id input) =
          (.ok (.individual answer), ⟨some t⟩) := by
        simp [Database.run, Store.run, hrun, Except.map]
      rw [hresult] at hread ⊢
      rcases recordRound_eq_ok_iff.mp hrun with ⟨hnone, -, rfl⟩ | ⟨i, hi, hround, rfl, rfl⟩
      · rw [revise_update_of_not_recordsRound (by simp [recordsRound, hnone])]
      · obtain ⟨hmem, rfl⟩ := mem_of_individual? hi
        have hread : (i.withRound input).flexFields.reread = (i.withRound input).flexFields := by
          simpa [Except.toOption, Answer.isReadBack, Individual.withRound] using hread
        rw [revise_update_of_recordsRound (recordsRound_iff.mpr ⟨i, hi, hround⟩),
          withRound_eq_revise hs hmem hread]
        rfl
  | _ => exact hupdate.elim

/-- An update comes out after changes as it would have before them. -/
theorem outcome_revise (hf : KeepsHousehold f) (hg : KeepsIndividual g) {call : Call}
    (hupdate : call.operation.IsUpdate) :
    (Database.mk (some (s.revise f g))).outcome call = (Database.mk (some s)).outcome call := by
  obtain ⟨now, operation⟩ := call
  unfold Database.outcome
  cases operation with
  | withdrawHousehold id =>
    simp [Database.run, Store.run, household?_revise hf]
  | withdrawIndividual id =>
    simp [Database.run, Store.run, individual?_revise hg]
  | recordRound id input =>
    simp only [Database.run, Store.run, recordRound, individual?_revise hg]
    cases s.individual? id with
    | none => rfl
    | some i =>
      simp only [Option.map_some, checkRound_revise hf hg]
      cases s.checkRound i input.field input.round <;> rfl
  | _ => exact hupdate.elim

end Store

end Beneficiary
