import Beneficiary.Criteria.Compilation
import Beneficiary.Proofs.Outcome

/-!
# Compiling one condition

A condition compiles when its field is found, its round can be selected, the field describes the
entity at hand, its value can be found and its arguments can be read. The compiled comparison keeps
what was found, and the reference date has no part in whether a condition compiles.
-/

namespace Beneficiary

/-- The comparison, ages counted on another date. -/
def Atom.onDate (asOf : Date) (atom : Atom) : Atom := { atom with asOf }

namespace Condition

variable {resolve : Resolver} {asOf : Date} {context : EntityKind}

/-- The steps of compiling a condition, the check of the described entity among them. -/
theorem compile_eq (condition : Condition) :
    condition.compile resolve asOf context =
      resolve condition.field condition.classification >>= fun d =>
        condition.selector d >>= fun selector =>
          if d.owner = context then
            source d selector >>= fun source =>
              (d.comparison condition.method condition.arguments).map fun comparison =>
                { field := d.name, source, comparison, asOf }
          else .error (.crossEntity d.name d.owner context) := by
  unfold compile
  cases resolve condition.field condition.classification with
  | error e => rfl
  | ok d =>
    dsimp only [bind, Except.bind]
    cases condition.selector d with
    | error e => rfl
    | ok selector =>
      dsimp only
      by_cases howner : d.owner = context
      · rw [if_neg (not_not_intro howner), if_pos howner]
        rfl
      · rw [if_pos howner, if_neg howner]
        rfl

/-- A condition compiles to a comparison exactly when each step succeeds with what the comparison
keeps. -/
theorem compile_eq_ok_iff {condition : Condition} {atom : Atom} :
    condition.compile resolve asOf context = .ok atom ↔
      ∃ d selector source comparison,
        resolve condition.field condition.classification = .ok d ∧
        condition.selector d = .ok selector ∧ d.owner = context ∧
        Condition.source d selector = .ok source ∧
        d.comparison condition.method condition.arguments = .ok comparison ∧
        atom = { field := d.name, source, comparison, asOf } := by
  rw [compile_eq, bind_eq_ok_iff]
  constructor
  · rintro ⟨d, hd, h⟩
    obtain ⟨selector, hselector, h⟩ := bind_eq_ok_iff.mp h
    by_cases howner : d.owner = context
    · rw [if_pos howner] at h
      obtain ⟨source, hsource, h⟩ := bind_eq_ok_iff.mp h
      obtain ⟨comparison, hcomparison, rfl⟩ := map_eq_ok_iff.mp h
      exact ⟨d, selector, source, comparison, hd, hselector, howner, hsource, hcomparison, rfl⟩
    · rw [if_neg howner] at h
      cases h
  · rintro ⟨d, selector, source, comparison, hd, hselector, howner, hsource, hcomparison, rfl⟩
    refine ⟨d, hd, bind_eq_ok_iff.mpr ⟨selector, hselector, ?_⟩⟩
    rw [if_pos howner]
    exact bind_eq_ok_iff.mpr ⟨source, hsource, map_eq_ok_iff.mpr ⟨comparison, hcomparison, rfl⟩⟩

/-- A round is selected just for a periodic field that has it; other fields are given none. -/
theorem selector_cases {condition : Condition} {d : FieldDescriptor}
    {selector : Option RoundSelector} (h : condition.selector d = .ok selector) :
    (d.classification = .periodic ∧
      ∃ s, RoundSelector.of d condition.round = .ok s ∧ selector = some s) ∨
    (d.classification ≠ .periodic ∧ condition.round = none ∧ selector = none) := by
  unfold Condition.selector at h
  split at h
  · obtain ⟨s, hs, rfl⟩ := map_eq_ok_iff.mp h
    refine .inl ⟨?_, s, hs, rfl⟩
    by_contra hp
    simp [RoundSelector.of, FieldDescriptor.rounds?, hp] at hs
  · next hp =>
    obtain ⟨hp, hround⟩ := not_or.mp hp
    exact .inr ⟨hp, by simpa using hround, (Except.ok.inj h).symm⟩

/-- A compiled comparison finds its value in a core field, in a flex attribute of the field's name,
or in a round that the field has. -/
theorem source_cases {condition : Condition} {atom : Atom}
    (h : condition.compile resolve asOf context = .ok atom) :
    ∃ d, resolve condition.field condition.classification = .ok d ∧
      ((∃ field, CoreField.find? d.name = some field ∧ atom.source = .core field) ∨
        (d.classification = .flex ∧ atom.source = .flex d.name d.valueType) ∨
        ∃ selector, RoundSelector.of d condition.round = .ok selector ∧
          atom.source = .periodic selector) := by
  obtain ⟨d, selector, source, comparison, hd, hselector, -, hsource, -, rfl⟩ :=
    compile_eq_ok_iff.mp h
  refine ⟨d, hd, ?_⟩
  rcases selector_cases hselector with ⟨-, s, hs, rfl⟩ | ⟨-, -, rfl⟩
  · exact .inr (.inr ⟨s, hs, (Except.ok.inj hsource).symm⟩)
  · dsimp only [Condition.source] at hsource
    split at hsource
    · next hflex => exact .inr (.inl ⟨hflex, (Except.ok.inj hsource).symm⟩)
    · split at hsource
      · next field hfield => exact .inl ⟨field, hfield, (Except.ok.inj hsource).symm⟩
      · cases hsource

/-- A condition on a flex attribute judges what an entity stores under the attribute's name. -/
theorem holds_flex {α : Type} [FieldSubject α] {condition : Condition} {atom : Atom}
    {d : FieldDescriptor} (h : condition.compile resolve asOf context = .ok atom)
    (hd : resolve condition.field condition.classification = .ok d)
    (hflex : d.classification = .flex) (subject : α) :
    d.evaluate condition.method condition.arguments
        (((FieldSubject.flexFields subject).get? d.name).bind (Value.ofStored? d.valueType)) =
      .ok (atom.holds subject) := by
  obtain ⟨d', selector, source, comparison, hd', hselector, -, hsource, hcomparison, rfl⟩ :=
    compile_eq_ok_iff.mp h
  obtain rfl : d = d' := Except.ok.inj (hd.symm.trans hd')
  rcases selector_cases hselector with ⟨hperiodic, -⟩ | ⟨-, -, rfl⟩
  · simp [hflex] at hperiodic
  · dsimp only [Condition.source] at hsource
    rw [if_pos hflex] at hsource
    obtain rfl : ValueSource.flex d.name d.valueType = source := Except.ok.inj hsource
    rw [FieldDescriptor.evaluate, hcomparison]
    rfl

/-- A condition compiles on every date alike, up to the date that the comparison keeps. -/
theorem compile_onDate (resolve : Resolver) (a b : Date) (context : EntityKind)
    (condition : Condition) :
    condition.compile resolve b context =
      (condition.compile resolve a context).map (Atom.onDate b) := by
  rw [compile_eq, compile_eq]
  cases resolve condition.field condition.classification with
  | error e => rfl
  | ok d =>
    dsimp only [bind, Except.bind]
    cases condition.selector d with
    | error e => rfl
    | ok selector =>
      dsimp only
      by_cases howner : d.owner = context
      · rw [if_pos howner, if_pos howner]
        cases source d selector with
        | error e => rfl
        | ok source => cases d.comparison condition.method condition.arguments <;> rfl
      · rw [if_neg howner, if_neg howner]
        rfl

end Condition

end Beneficiary
