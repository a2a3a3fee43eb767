import Beneficiary.Proofs.Outcome
import Beneficiary.Targeting.Selection

/-!
# What a selection depends on

Of records a compiled request asks whether they qualify and whether they are excluded, and then by
which ids they are targeted. So two requests that answer alike select alike, and records that are
alike in these answers give the same preview, whatever else they hold.
-/

namespace Beneficiary

namespace Targeting

/-- What a compiled request selects, and how it splits records, is decided by which of them qualify
and which ids are excluded. -/
theorem select_partition_congr {targeting other : Targeting}
    (hexclusions : other.exclusions = targeting.exclusions) {records : List HouseholdRecord}
    (hqualifies : ∀ record ∈ records, other.qualifies record = targeting.qualifies record) :
    other.select records = targeting.select records ∧
      other.partition records = targeting.partition records := by
  constructor
  · apply List.filter_congr
    intro record hrecord
    rw [selects, hexclusions, hqualifies record hrecord, selects]
  · rw [partition, hexclusions, List.filter_congr hqualifies, partition]

/-- A compiled request cannot tell two records of a program apart. -/
structure Alike (targeting : Targeting) (mode : ProgramMode) (a b : HouseholdRecord) : Prop where
  qualifies : targeting.qualifies a = targeting.qualifies b
  excludes : targeting.exclusions.excludes a = targeting.exclusions.excludes b
  targetIds : a.targetIds mode = b.targetIds mode

/-- Records that cannot be told apart one by one are split alike. -/
theorem partition_of_alike {targeting : Targeting} {mode : ProgramMode}
    {as bs : List HouseholdRecord} (h : List.Forall₂ (targeting.Alike mode) as bs) :
    List.Forall₂ (targeting.Alike mode) (targeting.partition as).1 (targeting.partition bs).1 ∧
      List.Forall₂ (targeting.Alike mode) (targeting.partition as).2
        (targeting.partition bs).2 := by
  have hqualified : List.Forall₂ (targeting.Alike mode) (as.filter targeting.qualifies)
      (bs.filter targeting.qualifies) := by
    refine List.rel_filter ?_ h
    intro a b hab
    simp only [hab.qualifies]
  unfold partition
  rw [List.partition_eq_filter_filter, List.partition_eq_filter_filter]
  constructor
  · refine List.rel_filter ?_ hqualified
    intro a b hab
    simp only [hab.excludes]
  · refine List.rel_filter ?_ hqualified
    intro a b hab
    simp only [Function.comp_apply, hab.excludes]

end Targeting

/-- Populations that a compiled request cannot tell apart have the same preview. -/
theorem TargetingPreview.of_alike {program : Program} {targeting : Targeting}
    {as bs : List HouseholdRecord} (h : List.Forall₂ (targeting.Alike program.mode) as bs)
    (asOf : Date) : of program asOf targeting as = of program asOf targeting bs := by
  have hids {as bs : List HouseholdRecord}
      (h : List.Forall₂ (targeting.Alike program.mode) as bs) :
      (as.flatMap fun record => record.targetIds program.mode) =
        bs.flatMap fun record => record.targetIds program.mode := by
    induction h with
    | nil => rfl
    | cons hab _ ih => rw [List.flatMap_cons, List.flatMap_cons, hab.targetIds, ih]
  obtain ⟨hselected, hexcluded⟩ := Targeting.partition_of_alike h
  unfold of
  dsimp only
  rw [h.length_eq, hids hselected, hids hexcluded]

end Beneficiary
