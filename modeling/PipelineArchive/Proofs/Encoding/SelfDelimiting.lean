import PipelineArchive.Encoding

/-!
# Encodings that tell where they end

An encoding has no tags and no separators: the fields of a record follow one another. Still it
tells its value, because the bytes of every field tell where they end. `SelfDelimiting` says so
of a type: of two values whose bytes begin the same byte string, one is the other, and what
follows is the same. Counts are clamped, so this is asked only of values whose texts and lists are
short enough to be counted (`Bounded`).

Words, texts, lists, optional values and pairs are self-delimiting. A record is encoded as the
tuple of its fields, which is all there is to say of it (`Tupled`).
-/

set_option autoImplicit false

namespace PipelineArchive

/-! ## Values that can be counted -/

/-- Types with a notion of size. -/
class Bounded (α : Type) where
  /-- Whether all texts and lists of a value are shorter than the largest count. -/
  isBounded : α → Bool

export Bounded (isBounded)

instance : Bounded String := ⟨fun s => (Bytes.ofText s).length < UInt32.size⟩

instance {α : Type} [Bounded α] : Bounded (List α) :=
  ⟨fun xs => xs.length < UInt32.size && xs.all isBounded⟩

instance {α : Type} [Bounded α] : Bounded (Option α) := ⟨fun x => x.all isBounded⟩

instance {α β : Type} [Bounded α] [Bounded β] : Bounded (α × β) :=
  ⟨fun p => isBounded p.1 && isBounded p.2⟩

/-! ## Self-delimiting encodings -/

instance {α : Type} [Encode α] : Encode (List α) := ⟨Encode.list⟩

instance {α : Type} [Encode α] : Encode (Option α) := ⟨Encode.option⟩

instance {α β : Type} [Encode α] [Encode β] : Encode (α × β) :=
  ⟨fun p => encode p.1 ++ encode p.2⟩

theorem encode_mk {α β : Type} [Encode α] [Encode β] (a : α) (b : β) :
    encode (a, b) = encode a ++ encode b := rfl

/-- Types whose encodings tell where they end. -/
class SelfDelimiting (α : Type) [Encode α] [Bounded α] : Prop where
  split {a b : α} {r s : Bytes} : isBounded a → isBounded b →
    encode a ++ r = encode b ++ s → a = b ∧ r = s

namespace SelfDelimiting

/-- Values with the same bytes are the same. -/
theorem encode_inj {α : Type} [Encode α] [Bounded α] [SelfDelimiting α] {a b : α}
    (ha : isBounded a) (hb : isBounded b) (h : encode a = encode b) : a = b :=
  (split (r := []) (s := []) ha hb (by rw [h])).1

end SelfDelimiting

theorem Bytes.ofU32_append_inj {a b : UInt32} {r s : Bytes} (h : ofU32 a ++ r = ofU32 b ++ s) :
    a = b ∧ r = s := by
  obtain ⟨hword, hrest⟩ := List.append_inj h (by simp)
  refine ⟨?_, hrest⟩
  rw [← UInt32.toNat_inj, ← toNat_ofU32, ← toNat_ofU32, hword]

/-- Types whose values are encoded as words. -/
class Word (α : Type) [Encode α] where
  /-- The word of a value. -/
  word : α → UInt32
  word_injective {a b : α} : word a = word b → a = b
  encode_eq (a : α) : encode a = Bytes.ofU32 (word a)

instance {α : Type} [Encode α] [Word α] : Bounded α := ⟨fun _ => true⟩

instance {α : Type} [Encode α] [Word α] : SelfDelimiting α where
  split {a b r s} _ _ h := by
    rw [Word.encode_eq, Word.encode_eq] at h
    obtain ⟨hword, hrest⟩ := Bytes.ofU32_append_inj h
    exact ⟨Word.word_injective hword, hrest⟩

/-- An enumeration is encoded by the positions of its constructors, which lead back to them. -/
abbrev Word.ofOrdinal {α : Type} [Encode α] (ordinal : α → Nat) (ofNat : Nat → α)
    (hofNat : ∀ a, ofNat (UInt32.ofNat (ordinal a)).toNat = a := by intro a; cases a <;> rfl)
    (hencode : ∀ a, encode a = Bytes.ofU32 (UInt32.ofNat (ordinal a)) := by intro a; rfl) :
    Word α where
  word a := UInt32.ofNat (ordinal a)
  word_injective {a b} h := by rw [← hofNat a, h, hofNat b]
  encode_eq := hencode

instance : Word UInt32 := ⟨id, id, fun _ => rfl⟩

instance : Word Int32 where
  word := Int32.toUInt32
  word_injective {a b} h := by
    cases a
    cases b
    cases h
    rfl
  encode_eq _ := rfl

instance : Word Single where
  word := Single.bits
  word_injective {a b} h := by
    cases a
    cases b
    cases h
    rfl
  encode_eq _ := rfl

instance : Bounded UInt8 := ⟨fun _ => true⟩

instance : SelfDelimiting UInt8 := ⟨fun _ _ h => List.cons_eq_cons.1 h⟩

instance : Bounded Bool := ⟨fun _ => true⟩

instance : SelfDelimiting Bool where
  split {a b r s} _ _ h := by
    obtain ⟨hbyte, hrest⟩ := List.cons_eq_cons.1 h
    refine ⟨?_, hrest⟩
    cases a <;> cases b <;> first | rfl | cases hbyte

/-! ## Counted values -/

namespace Encode

/-- A count that is not clamped tells its number. -/
theorem count_append_inj {m n : Nat} {r s : Bytes} (hm : m < UInt32.size) (hn : n < UInt32.size)
    (h : count m ++ r = count n ++ s) : m = n ∧ r = s := by
  obtain ⟨hword, hrest⟩ := Bytes.ofU32_append_inj h
  have hsize : UInt32.size = maxCount + 1 := rfl
  have hnat := congrArg UInt32.toNat hword
  rw [Nat.min_eq_left (by omega), Nat.min_eq_left (by omega), UInt32.toNat_ofNat_of_lt' hm,
    UInt32.toNat_ofNat_of_lt' hn] at hnat
  exact ⟨hnat, hrest⟩

/-- Lists of one length whose elements can be told apart, if only up to a function, can be told
apart up to it. -/
theorem flatMap_append_inj {α β : Type} [Encode α] {f : α → β} {holds : α → Prop}
    (hsplit : ∀ {a b : α} {r s : Bytes}, holds a → holds b → encode a ++ r = encode b ++ s →
      f a = f b ∧ r = s)
    {xs ys : List α} {r s : Bytes} (hxs : ∀ x ∈ xs, holds x) (hys : ∀ y ∈ ys, holds y)
    (hlength : xs.length = ys.length) (h : xs.flatMap encode ++ r = ys.flatMap encode ++ s) :
    xs.map f = ys.map f ∧ r = s := by
  induction xs generalizing ys with
  | nil =>
    obtain rfl := List.length_eq_zero_iff.1 hlength.symm
    exact ⟨rfl, h⟩
  | cons x xs ih =>
    cases ys with
    | nil => cases hlength
    | cons y ys =>
      rw [List.flatMap_cons, List.flatMap_cons, List.append_assoc, List.append_assoc] at h
      obtain ⟨hfirst, h⟩ := hsplit (hxs x List.mem_cons_self) (hys y List.mem_cons_self) h
      obtain ⟨hothers, hrest⟩ := ih (fun z hz => hxs z (List.mem_cons_of_mem _ hz))
        (fun z hz => hys z (List.mem_cons_of_mem _ hz)) (Nat.succ.inj hlength) h
      exact ⟨by rw [List.map_cons, List.map_cons, hfirst, hothers], hrest⟩

/-- Lists are told apart as far as their elements are. -/
theorem list_append_inj {α β : Type} [Encode α] {f : α → β} {holds : α → Prop}
    (hsplit : ∀ {a b : α} {r s : Bytes}, holds a → holds b → encode a ++ r = encode b ++ s →
      f a = f b ∧ r = s)
    {xs ys : List α} {r s : Bytes} (hxs : ∀ x ∈ xs, holds x) (hys : ∀ y ∈ ys, holds y)
    (hxsLength : xs.length < UInt32.size) (hysLength : ys.length < UInt32.size)
    (h : list xs ++ r = list ys ++ s) : xs.map f = ys.map f ∧ r = s := by
  rw [list, list, List.append_assoc, List.append_assoc] at h
  obtain ⟨hlength, h⟩ := count_append_inj hxsLength hysLength h
  exact flatMap_append_inj hsplit hxs hys hlength h

end Encode

instance : SelfDelimiting String where
  split {a b r s} ha hb h := by
    change Encode.sized _ ++ r = Encode.sized _ ++ s at h
    rw [Encode.sized, Encode.sized, List.append_assoc, List.append_assoc] at h
    obtain ⟨hlength, h⟩ := Encode.count_append_inj (of_decide_eq_true ha) (of_decide_eq_true hb) h
    obtain ⟨htext, hrest⟩ := List.append_inj h hlength
    exact ⟨Bytes.ofText_injective htext, hrest⟩

variable {α β : Type} [Encode α] [Bounded α] [SelfDelimiting α]

theorem isBounded_list {α : Type} [Bounded α] {xs : List α} :
    isBounded xs ↔ xs.length < UInt32.size ∧ ∀ x ∈ xs, isBounded x := by
  simp [isBounded]

instance : SelfDelimiting (List α) where
  split {xs ys r s} hxs hys h := by
    obtain ⟨hxsLength, hxs⟩ := isBounded_list.1 hxs
    obtain ⟨hysLength, hys⟩ := isBounded_list.1 hys
    have hlists := Encode.list_append_inj (f := id) SelfDelimiting.split hxs hys hxsLength
      hysLength h
    rwa [List.map_id, List.map_id] at hlists

instance : SelfDelimiting (Option α) where
  split {x y r s} hx hy h := by
    cases x with
    | none =>
      cases y with
      | none => exact ⟨rfl, (Bytes.ofU32_append_inj h).2⟩
      | some y =>
        change Bytes.ofU32 0 ++ r = (Bytes.ofU32 1 ++ encode y) ++ s at h
        rw [List.append_assoc] at h
        exact absurd (Bytes.ofU32_append_inj h).1 (by decide)
    | some x =>
      change (Bytes.ofU32 1 ++ encode x) ++ r = _ at h
      rw [List.append_assoc] at h
      cases y with
      | none => exact absurd (Bytes.ofU32_append_inj h).1 (by decide)
      | some y =>
        change _ = (Bytes.ofU32 1 ++ encode y) ++ s at h
        rw [List.append_assoc] at h
        obtain ⟨hvalue, hrest⟩ := SelfDelimiting.split (α := α) hx hy (Bytes.ofU32_append_inj h).2
        exact ⟨congrArg some hvalue, hrest⟩

instance [Encode β] [Bounded β] [SelfDelimiting β] : SelfDelimiting (α × β) where
  split {p q r s} hp hq h := by
    obtain ⟨hp₁, hp₂⟩ := Bool.and_eq_true_iff.1 hp
    obtain ⟨hq₁, hq₂⟩ := Bool.and_eq_true_iff.1 hq
    change (encode p.1 ++ encode p.2) ++ r = (encode q.1 ++ encode q.2) ++ s at h
    rw [List.append_assoc, List.append_assoc] at h
    obtain ⟨hfirst, h⟩ := SelfDelimiting.split hp₁ hq₁ h
    obtain ⟨hsecond, hrest⟩ := SelfDelimiting.split hp₂ hq₂ h
    exact ⟨Prod.ext hfirst hsecond, hrest⟩

/-! ## Records -/

/-- Records, which are encoded as the tuple of their fields. -/
class Tupled (α : Type) (β : outParam Type) [Encode α] [Encode β] where
  /-- All fields of a record. -/
  fields : α → β
  fields_injective {a b : α} : fields a = fields b → a = b := by rintro ⟨⟩ ⟨⟩ ⟨⟩; rfl
  encode_eq (a : α) : encode a = encode (fields a) := by
    intro a; simp only [encode_mk, ← List.append_assoc]; rfl

instance {α β : Type} [Encode α] [Encode β] [Tupled α β] [Bounded β] : Bounded α :=
  ⟨fun a => isBounded (Tupled.fields a)⟩

instance {α β : Type} [Encode α] [Encode β] [Tupled α β] [Bounded β] [SelfDelimiting β] :
    SelfDelimiting α where
  split {a b r s} ha hb h := by
    rw [Tupled.encode_eq a, Tupled.encode_eq b] at h
    obtain ⟨hfields, hrest⟩ := SelfDelimiting.split (α := β) ha hb h
    exact ⟨Tupled.fields_injective hfields, hrest⟩

end PipelineArchive
