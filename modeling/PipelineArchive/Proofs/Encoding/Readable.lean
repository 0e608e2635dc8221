import PipelineArchive.Proofs.Decoding.Consumption
import PipelineArchive.Proofs.Encoding.Descriptions

/-!
# Encodings that can be read back

The bytes of a self-delimiting value tell the value. Those of a `Readable` one are also read: its
type has a decoder, put together from the decoders of its parts. Counts are clamped, so a value is
read back exactly if it can be counted (`Readable.reads_iff`). A value whose encoding is shorter
than the largest count can always be counted, because nothing that is counted is encoded as less
than a word.
-/

set_option autoImplicit false

namespace PipelineArchive

/-- Types whose values are read back from their encodings. -/
class Readable (α : Type) [Encode α] [Bounded α] where
  /-- Reads a value. -/
  decoder : Decoder α
  /-- An encoding takes a word at least. -/
  word_le (a : α) : 4 ≤ (encode a).length
  reads {a : α} : isBounded a → decoder.Reads (encode a) a
  /-- No value is read that cannot be counted. -/
  follows : decoder.Follows fun _ a => isBounded a
  isBounded_of_length {a : α} : (encode a).length < UInt32.size → isBounded a

namespace Readable

open Decoder

/-- A value is read back exactly if it can be counted. -/
theorem reads_iff {α : Type} [Encode α] [Bounded α] [Readable α] {a : α} :
    (decoder : Decoder α).Reads (encode a) a ↔ isBounded a := by
  refine ⟨fun h => ?_, reads⟩
  obtain ⟨_, -, hbounded⟩ := follows _ _ a (h 0 [])
  exact hbounded

/-! ## Words and texts -/

/-- Words are read as what they stand for. -/
abbrev ofWord {α : Type} [Encode α] [Word α] (value : UInt32 → α)
    (hvalue : ∀ a : α, value (Word.word a) = a := by intro a; cases a <;> rfl) : Readable α where
  decoder := do return value (← u32)
  word_le a := Nat.le_of_eq (by rw [Word.encode_eq, Bytes.length_ofU32])
  reads {a} _ := by
    have hread := (reads_u32 (Word.word a)).bind_pure (f := value)
    rwa [hvalue, ← Word.encode_eq] at hread
  follows := follows_u32.bind_pure fun _ _ _ => rfl
  isBounded_of_length _ := rfl

instance : Readable UInt32 := .ofWord id

instance : Readable StageSet := .ofWord StageSet.mk

instance : Readable ShaderStage :=
  .ofWord fun w => (ShaderStage.all.find? fun s => Word.word s = w).getD .vertex

instance : Readable String where
  decoder := text
  word_le s := by
    change 4 ≤ (Encode.sized _).length
    rw [Encode.length_sized]
    exact Nat.le_add_right _ _
  reads h := reads_text (of_decide_eq_true h)
  follows c c' s h := by
    obtain ⟨taken, hrest, -, hlength⟩ := follows_text c c' s h
    exact ⟨taken, hrest, decide_eq_true hlength⟩
  isBounded_of_length {s} h := by
    change (Encode.sized _).length < _ at h
    rw [Encode.length_sized] at h
    exact decide_eq_true (Nat.lt_of_le_of_lt (Nat.le_add_left _ _) h)

/-! ## Lists, pairs and records -/

theorem length_encode_list {α : Type} [Encode α] (xs : List α) :
    (encode xs).length = 4 + (xs.flatMap encode).length := by
  change (Encode.list xs).length = _
  rw [Encode.list, List.length_append, Encode.length_count]

theorem length_encode_le_flatMap {α : Type} [Encode α] {x : α} {xs : List α} (hx : x ∈ xs) :
    (encode x).length ≤ (xs.flatMap encode).length := by
  obtain ⟨front, back, rfl⟩ := List.append_of_mem hx
  simp only [List.flatMap_append, List.flatMap_cons, List.length_append]
  omega

theorem follows_many {α : Type} {d : Decoder α} {holds : α → Prop}
    (hd : d.Follows fun _ x => holds x) (n : Nat) :
    (many d n).Follows fun _ xs => xs.length = n ∧ ∀ x ∈ xs, holds x := by
  induction n with
  | zero => exact follows_pure ⟨rfl, List.forall_mem_nil _⟩
  | succ n ih =>
    refine hd.bind fun _ x hx => ih.bind_pure ?_
    rintro _ xs ⟨rfl, hxs⟩
    exact ⟨rfl, List.forall_mem_cons.2 ⟨hx, hxs⟩⟩

variable {α β : Type} [Encode α] [Bounded α] [Readable α] [Encode β] [Bounded β] [Readable β]

/-- The elements of a list take a word each. -/
theorem mul_length_le_flatMap (xs : List α) : xs.length * 4 ≤ (xs.flatMap encode).length := by
  induction xs with
  | nil => exact Nat.zero_le _
  | cons x rest ih =>
    have hx := word_le x
    rw [List.flatMap_cons, List.length_append, List.length_cons]
    omega

instance : Readable (List α) where
  decoder := do many decoder (← count 4)
  word_le xs := by
    rw [length_encode_list]
    exact Nat.le_add_right _ _
  reads {xs} h := by
    obtain ⟨hlength, hxs⟩ := isBounded_list.1 h
    exact Reads.count_bind hlength (mul_length_le_flatMap xs)
      (reads_many xs fun x hx => reads (hxs x hx))
  follows := by
    refine (follows_count 4).bind ?_
    rintro _ n ⟨-, hn⟩ c c' xs h
    obtain ⟨taken, hrest, rfl, hxs⟩ := follows_many follows n c c' xs h
    exact ⟨taken, hrest, isBounded_list.2 ⟨hn, hxs⟩⟩
  isBounded_of_length {xs} h := by
    rw [length_encode_list] at h
    have hcount := mul_length_le_flatMap xs
    refine isBounded_list.2 ⟨by omega, fun x hx => isBounded_of_length ?_⟩
    have hx := length_encode_le_flatMap hx
    omega

instance : Readable (α × β) where
  decoder := do
    let first ← decoder
    let second ← decoder
    return (first, second)
  word_le p := by
    have hfirst := word_le p.1
    rw [encode_mk, List.length_append]
    omega
  reads {p} h := by
    obtain ⟨hfirst, hsecond⟩ := Bool.and_eq_true_iff.1 h
    exact (reads hfirst).bind ((reads hsecond).bind_pure (f := (p.1, ·)))
  follows := follows.bind fun _ _ hfirst => follows.bind_pure fun _ _ hsecond =>
    Bool.and_eq_true_iff.2 ⟨hfirst, hsecond⟩
  isBounded_of_length {p} h := by
    rw [encode_mk, List.length_append] at h
    exact Bool.and_eq_true_iff.2
      ⟨isBounded_of_length (by omega), isBounded_of_length (by omega)⟩

/-- A record is read as the tuple of its fields. -/
abbrev ofTuple {ρ : Type} [Encode ρ] [Tupled ρ α] (record : α → ρ)
    (hrecord : ∀ r, record (Tupled.fields r) = r := by intro r; rfl)
    (hfields : ∀ a, Tupled.fields (record a) = a := by intro a; rfl) : Readable ρ where
  decoder := do return record (← (decoder : Decoder α))
  word_le r := by
    rw [Tupled.encode_eq]
    exact word_le (Tupled.fields r)
  reads {r} h := by
    have hread := (reads (a := Tupled.fields r) h).bind_pure (f := record)
    rwa [hrecord, ← Tupled.encode_eq] at hread
  follows := follows.bind_pure fun _ a ha => by
    change isBounded (Tupled.fields (record a)) = true
    rwa [hfields]
  isBounded_of_length {r} h := by
    rw [Tupled.encode_eq] at h
    exact isBounded_of_length (a := Tupled.fields r) h

end Readable

end PipelineArchive
