import PipelineArchive.Bytes

/-!
# Parts of byte strings

A part of a byte string is given by the place where it stands: `whole.HasAt offset part`. Parts
of parts are parts (`HasAt.trans`), and a slice of the right place and size is the part
(`HasAt.slice`).
-/

set_option autoImplicit false

namespace PipelineArchive.Bytes

/-- A byte string has a part that starts at an offset. -/
def HasAt (whole : Bytes) (offset : Nat) (part : Bytes) : Prop :=
  ∃ before after, whole = before ++ part ++ after ∧ before.length = offset

variable {whole part inner : Bytes} {offset : Nat}

theorem HasAt.trans {start : Nat} (h : whole.HasAt offset part) (h' : part.HasAt start inner) :
    whole.HasAt (offset + start) inner := by
  obtain ⟨before, after, rfl, rfl⟩ := h
  obtain ⟨before', after', rfl, rfl⟩ := h'
  exact ⟨before ++ before', after' ++ after, by simp only [List.append_assoc],
    List.length_append⟩

theorem HasAt.le_length (h : whole.HasAt offset part) : offset + part.length ≤ whole.length := by
  obtain ⟨before, after, rfl, rfl⟩ := h
  simp only [List.length_append]
  omega

/-- A part moves with the bytes it stands in. -/
theorem HasAt.prepend (h : whole.HasAt offset part) (before : Bytes) :
    (before ++ whole).HasAt (before.length + offset) part := by
  obtain ⟨first, after, rfl, rfl⟩ := h
  exact ⟨before ++ first, after, by simp only [List.append_assoc], List.length_append⟩

theorem HasAt.drop (h : whole.HasAt offset part) : ∃ after, whole.drop offset = part ++ after := by
  obtain ⟨before, after, rfl, rfl⟩ := h
  exact ⟨after, by rw [List.append_assoc, List.drop_left]⟩

theorem HasAt.slice (h : whole.HasAt offset part) : whole.slice offset part.length = part := by
  obtain ⟨after, hafter⟩ := h.drop
  rw [Bytes.slice, hafter, List.take_left]

end PipelineArchive.Bytes
