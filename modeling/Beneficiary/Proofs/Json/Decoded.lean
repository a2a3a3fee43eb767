import Beneficiary.Json.Decoder
import Beneficiary.Proofs.Outcome

/-!
# What decoders give

A property of everything that a decoder gives, whatever the text, follows for a list from its items
and for a record part by part. Parts whose values the property does not look at are passed over.
-/

namespace Beneficiary.Json.Decoder

variable {α β : Type} {P : α → Prop} {Q : β → Prop} {decode : Decoder α}

/-- Every value that the decoder gives has a property. -/
def Gives (decode : Decoder α) (P : α → Prop) : Prop :=
  ∀ source a, decode source = .ok a → P a

/-- Every value that the part of a record gives has a property. -/
def Record.Gives (part : Record α) (P : α → Prop) : Prop :=
  ∀ slots a, part.read slots = .ok a → P a

namespace Record

/-- Two parts give what the first makes of the values of the second. -/
theorem Gives.seq {first : Record (α → β)} {second : Record α}
    (hfirst : first.Gives fun f => ∀ a, P a → Q (f a)) (hsecond : second.Gives P) :
    (first <*> second).Gives Q := by
  intro slots b h
  simp only [Seq.seq, Record.seq] at h
  split at h
  · next f a hf ha =>
    obtain rfl := Except.ok.inj h
    exact hfirst slots f hf a (hsecond slots a ha)
  all_goals cases h

/-- The values of the second part may be any. -/
theorem Gives.seq_any {first : Record (α → β)} {second : Record α}
    (hfirst : first.Gives fun f => ∀ a, Q (f a)) : (first <*> second).Gives Q :=
  Gives.seq (P := fun _ => True) (fun slots f hf a _ => hfirst slots f hf a)
    (fun _ _ _ => trivial)

/-- A part gives what a function makes of its values. -/
theorem Gives.map {part : Record α} {f : α → β} (hf : ∀ a, P a → Q (f a)) (h : part.Gives P) :
    (f <$> part).Gives Q := by
  refine Gives.seq (P := P) ?_ h
  intro slots g hg
  obtain rfl := Except.ok.inj hg
  exact hf

/-- A field that must be present gives what its decoder gives. -/
theorem gives_required (h : decode.Gives P) (name : String) :
    (required name decode).Gives P := by
  intro slots a hread
  simp only [required] at hread
  split at hread
  · next place source _ => exact h source a (mapError_eq_ok_iff.mp hread)
  · cases hread

/-- A field that may be `null` gives, where it is not, what its decoder gives. -/
theorem gives_nullable (h : decode.Gives P) (name : String) :
    (nullable name decode).Gives fun o => ∀ a ∈ o, P a := by
  intro slots o hread
  simp only [nullable] at hread
  split at hread
  · next place source _ =>
    have hoption := mapError_eq_ok_iff.mp hread
    unfold option at hoption
    split at hoption
    · obtain rfl := Except.ok.inj hoption
      simp
    · obtain ⟨a, ha, rfl⟩ := map_eq_ok_iff.mp hoption
      simpa using h _ a ha
  · split at hread
    · cases hread
    · obtain rfl := Except.ok.inj hread
      simp

end Record

/-- A text gives what its reader makes of some string. -/
theorem gives_text {read : String → Option α} (h : ∀ s a, read s = some a → P a) :
    (text read).Gives P := by
  intro source a hread
  obtain ⟨s, -, hread⟩ := bind_eq_ok_iff.mp hread
  split at hread
  · next b hb =>
    obtain rfl := Except.ok.inj hread
    exact h s b hb
  · cases hread

private theorem gives_items (h : decode.Gives P) {closed : Bool} {sources : List Source}
    {as : List α} (hread : items decode closed sources = .ok as) : ∀ a ∈ as, P a := by
  induction sources generalizing as with
  | nil =>
    rw [items] at hread
    split at hread
    · obtain rfl := Except.ok.inj hread
      simp
    · cases hread
  | cons source rest ih =>
    obtain ⟨first, hfirst, hread⟩ := bind_eq_ok_iff.mp hread
    obtain ⟨others, hothers, hread⟩ := bind_eq_ok_iff.mp hread
    obtain rfl := Except.ok.inj hread
    exact List.forall_mem_cons.mpr ⟨h source first hfirst, ih hothers⟩

/-- A list gives items that the decoder of the items gives. -/
theorem gives_list (h : decode.Gives P) : (list decode).Gives fun as => ∀ a ∈ as, P a := by
  intro source as hread
  unfold list at hread
  split at hread
  · exact gives_items h hread
  · cases hread
  · cases hread

private theorem settle_eq_ok {container : Option Placed} {parts : Except Placed α} {a : α}
    (h : settle container parts = .ok a) : parts = .ok a := by
  unfold settle at h
  split at h
  · obtain rfl := Except.ok.inj h
    rfl
  all_goals cases h

/-- A record that is written as an object gives what its parts give. -/
theorem gives_objectRecord {parts : Record α} (h : parts.Gives P) (skip : Source → Bool) :
    (objectRecord skip parts).Gives P := by
  intro source a hread
  unfold objectRecord at hread
  split at hread
  · exact h _ a (settle_eq_ok hread)
  · cases hread
  · cases hread

/-- A record gives what its parts give. -/
theorem gives_record {parts : Record α} (h : parts.Gives P) : (record parts).Gives P := by
  intro source a hread
  unfold record at hread
  split at hread
  · exact h _ a (settle_eq_ok hread)
  · cases hread
  · exact gives_objectRecord h _ _ a hread

end Beneficiary.Json.Decoder
