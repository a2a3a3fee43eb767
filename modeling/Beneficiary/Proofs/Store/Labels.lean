import Beneficiary.Proofs.Store.Population

/-!
# Registration ids of a store

Households and individuals are registered under ids that are not blank, and no step changes the id
of an entity. So no id of a reachable store is blank.
-/

namespace Beneficiary

namespace Store

/-- Nothing is registered under a blank id. -/
structure Labelled (s : Store) : Prop where
  households : ∀ h ∈ s.households, Text.isBlankText h.unicefId = false
  individuals : ∀ i ∈ s.individuals, Text.isBlankText i.unicefId = false

variable {s t : Store}

/-- Empty tables hold no ids. -/
theorem labelled_emptyAfter (issued : Nat) (ids : IdSource) :
    (emptyAfter issued ids).Labelled := by
  constructor <;> simp [emptyAfter]

/-- A change one by one keeps the ids. -/
theorem Labelled.revise (hs : s.Labelled) {f : Household → Household}
    {g : Individual → Individual} (hf : KeepsHousehold f) (hg : KeepsIndividual g) :
    (s.revise f g).Labelled := by
  constructor
  · refine List.forall_mem_map.mpr fun h hh => ?_
    rw [hf.unicefId_eq h]
    exact hs.households h hh
  · refine List.forall_mem_map.mpr fun i hi => ?_
    rw [hg.unicefId_eq i]
    exact hs.individuals i hi

/-- A household that passes its check is registered with its members under ids that are not
blank. -/
theorem Labelled.register (hs : s.Labelled) {now : Moment} {programId : Uuid} {mode : ProgramMode}
    {input : NewHousehold} {headIndex : Nat} (hcheck : input.check mode = .ok headIndex) :
    (s.register now programId input headIndex).Labelled := by
  obtain ⟨hid, -, -, hpersons, -⟩ := (NewHousehold.check_eq_ok_iff s.nextId programId
    (s.ids.after (s.issued + 1 + headIndex)) now).mp hcheck
  constructor
  · exact forall_households_register hs.households hid
  · refine forall_individuals_register hs.individuals fun n person hperson => ?_
    exact ((NewIndividual.check_eq_ok_iff (s.ids.after (s.issued + 1 + n)) s.nextId).mp
      (hpersons person (List.mem_of_getElem? hperson))).1

/-- Every step keeps ids from being blank. -/
theorem Labelled.step (hs : s.Labelled) (hkeyed : s.Keyed) (h : s.Step t) : t.Labelled := by
  cases h with
  | unchanged => exact hs
  | program => exact ⟨hs.households, hs.individuals⟩
  | flexAttribute => exact ⟨hs.households, hs.individuals⟩
  | periodicField => exact ⟨hs.households, hs.individuals⟩
  | household now programId program input headIndex hprogram hcheck => exact hs.register hcheck
  | withdrawHousehold id =>
    exact hs.revise (keepsHousehold_withdraw _) (keepsIndividual_withdraw _)
  | withdrawIndividual id =>
    exact hs.revise (keepsHousehold_withdraw _) (keepsIndividual_withdraw _)
  | recordRound individual input hindividual =>
    rw [withRound_eq hkeyed (mem_of_individual? hindividual).1]
    exact hs.revise keepsHousehold_id (keepsIndividual_addTo _ input)

/-- No id of a reachable store is blank. -/
theorem Reachable.labelled (h : s.Reachable) : s.Labelled :=
  (Reachable.induction (P := fun s => s.Keyed ∧ s.Labelled)
    (fun issued ids => ⟨keyed_emptyAfter issued ids, labelled_emptyAfter issued ids⟩)
    (fun _ _ hs hstep => ⟨hs.1.step hstep, hs.2.step hs.1 hstep⟩) h).2

end Store

end Beneficiary
