/-!
# Byte strings

A byte string is a list of bytes. Words are written with their least significant byte
first: `Bytes.ofNat` splits a number into a fixed count of bytes and `Bytes.toNat` joins
bytes into a number. `toNat_ofNat` says that joining undoes splitting for every number that
fits, and `ofNat_toNat` that splitting undoes joining. Whole words are read and written likewise
(`toWords_ofWords`, `ofWords_toWords`). `Bytes.le` is a linear order, in which
names stand in an archive.
-/

set_option autoImplicit false

namespace PipelineArchive

/-- A byte string. -/
abbrev Bytes := List UInt8

namespace Bytes

/-- The `width` low-order bytes of a number, least significant first. -/
def ofNat : Nat → Nat → Bytes
  | 0, _ => []
  | width + 1, n => UInt8.ofNat n :: ofNat width (n / 256)

/-- The number whose bytes, least significant first, are given. -/
def toNat : Bytes → Nat
  | [] => 0
  | b :: rest => b.toNat + 256 * toNat rest

/-- The four bytes of a 32-bit word. -/
def ofU32 (word : UInt32) : Bytes := ofNat 4 word.toNat

/-- The eight bytes of a 64-bit word. -/
def ofU64 (word : UInt64) : Bytes := ofNat 8 word.toNat

/-- The UTF-8 bytes of a text. -/
def ofText (text : String) : Bytes := text.toByteArray.data.toList

/-- The bytes of a list of 32-bit words. -/
def ofWords (words : List UInt32) : Bytes := words.flatMap ofU32

/-- The 32-bit words of a byte string whose length is a multiple of four; bytes after the
last whole word are left out. -/
def toWords : Bytes → List UInt32
  | a :: b :: c :: d :: rest => UInt32.ofNat (toNat [a, b, c, d]) :: toWords rest
  | _ => []

/-- The number of zeros that extend `size` bytes to a multiple of `alignment`. -/
def padding (alignment size : Nat) : Nat := (alignment - size % alignment) % alignment

/-- The least multiple of `alignment` that is not below `size`. -/
def alignedSize (alignment size : Nat) : Nat := size + padding alignment size

/-- A byte string extended with zeros to a multiple of `alignment` bytes. -/
def padTo (alignment : Nat) (bytes : Bytes) : Bytes :=
  bytes ++ List.replicate (padding alignment bytes.length) 0

/-- The `size` bytes from `offset` on, fewer where the byte string ends before. -/
def slice (bytes : Bytes) (offset size : Nat) : Bytes := (bytes.drop offset).take size

/-- A byte string with the four bytes from `position` on replaced by a word. -/
def setU32 (bytes : Bytes) (position : Nat) (word : UInt32) : Bytes :=
  bytes.take position ++ ofU32 word ++ bytes.drop (position + 4)

/-- Lexicographic order of byte strings, which is the order of names in an archive. -/
def le : Bytes → Bytes → Bool
  | [], _ => true
  | _ :: _, [] => false
  | a :: as, b :: bs => if a < b then true else if b < a then false else le as bs

/-! ## Splitting and joining -/

@[simp] theorem length_ofNat (width n : Nat) : (ofNat width n).length = width := by
  induction width generalizing n with
  | zero => rfl
  | succ width ih => simp [ofNat, ih]

@[simp] theorem length_ofU32 (word : UInt32) : (ofU32 word).length = 4 := length_ofNat 4 _

@[simp] theorem length_ofU64 (word : UInt64) : (ofU64 word).length = 8 := length_ofNat 8 _

/-- The number of byte strings of a width. -/
def capacity : Nat → Nat
  | 0 => 1
  | width + 1 => 256 * capacity width

/-- Joining undoes splitting for a number that fits. -/
theorem toNat_ofNat (width n : Nat) (h : n < capacity width) : toNat (ofNat width n) = n := by
  induction width generalizing n with
  | zero =>
    rw [capacity] at h
    rw [ofNat, toNat]
    omega
  | succ width ih =>
    have hdiv : n / 256 < capacity width := Nat.div_lt_of_lt_mul h
    simp only [ofNat, toNat, ih _ hdiv, UInt8.toNat_ofNat']
    omega

/-- Splitting undoes joining. -/
theorem ofNat_toNat (bytes : Bytes) : ofNat bytes.length (toNat bytes) = bytes := by
  induction bytes with
  | nil => rfl
  | cons b rest ih =>
    have hb : b.toNat < 256 := b.toNat_lt
    have hdiv : (b.toNat + 256 * toNat rest) / 256 = toNat rest := by omega
    have hmod : UInt8.ofNat (b.toNat + 256 * toNat rest) = b := by
      apply UInt8.toNat_inj.1
      simp only [UInt8.toNat_ofNat']
      omega
    simp only [List.length_cons, ofNat, toNat, hdiv, hmod, ih]

theorem toNat_ofU32 (word : UInt32) : toNat (ofU32 word) = word.toNat :=
  toNat_ofNat 4 _ word.toNat_lt

theorem toNat_ofU64 (word : UInt64) : toNat (ofU64 word) = word.toNat :=
  toNat_ofNat 8 _ word.toNat_lt

theorem toNat_lt_capacity (bytes : Bytes) : toNat bytes < capacity bytes.length := by
  induction bytes with
  | nil => exact Nat.one_pos
  | cons b rest ih =>
    have hb : b.toNat < 256 := b.toNat_lt
    rw [toNat, List.length_cons, capacity]
    omega

/-- Four bytes are those of a word. -/
theorem ofU32_toNat {bytes : Bytes} (h : bytes.length = 4) :
    ofU32 (UInt32.ofNat (toNat bytes)) = bytes := by
  have hlt := toNat_lt_capacity bytes
  rw [h] at hlt
  rw [ofU32, UInt32.toNat_ofNat_of_lt' hlt, ← h, ofNat_toNat]

/-- A text is known by its bytes. -/
theorem ofText_injective {s t : String} (h : ofText s = ofText t) : s = t := by
  apply String.toByteArray_inj.1
  apply ByteArray.ext
  exact Array.toList_inj.1 h

/-! ## Words -/

/-- The words of a byte string made of words are these. -/
theorem toWords_ofWords (words : List UInt32) : (ofWords words).toWords = words := by
  induction words with
  | nil => rfl
  | cons word rest ih =>
    change UInt32.ofNat (ofU32 word).toNat :: (ofWords rest).toWords = word :: rest
    rw [toNat_ofU32, UInt32.ofNat_toNat, ih]

/-- Bytes that do not begin with a whole word are fewer than four. -/
theorem length_lt_four {bytes : Bytes}
    (h : ∀ a b c d rest, bytes = a :: b :: c :: d :: rest → False) : bytes.length < 4 := by
  match bytes, h with
  | [], _ | [_], _ | [_, _], _ | [_, _, _], _ => simp
  | a :: b :: c :: d :: rest, h => exact (h a b c d rest rfl).elim

theorem length_toWords (bytes : Bytes) : (toWords bytes).length = bytes.length / 4 := by
  fun_induction toWords bytes with
  | case1 a b c d rest ih =>
    simp only [List.length_cons, ih]
    omega
  | case2 bytes hshort =>
    rw [List.length_nil, Nat.div_eq_of_lt (length_lt_four hshort)]

/-- Whole words are written as the bytes that they were read from. -/
theorem ofWords_toWords {bytes : Bytes} (h : bytes.length % 4 = 0) :
    ofWords (toWords bytes) = bytes := by
  fun_induction toWords bytes with
  | case1 a b c d rest ih =>
    have hword : ofU32 (UInt32.ofNat (toNat [a, b, c, d])) = [a, b, c, d] := ofU32_toNat rfl
    have hrest : rest.length % 4 = 0 := by
      simp only [List.length_cons] at h
      omega
    change ofU32 _ ++ ofWords (toWords rest) = _
    rw [hword, ih hrest]
    rfl
  | case2 bytes hshort =>
    have hzero : bytes.length = 0 := by
      rw [← Nat.mod_eq_of_lt (length_lt_four hshort), h]
    rw [List.eq_nil_of_length_eq_zero hzero]
    rfl

/-! ## The order of names -/

theorem byte_trichotomy (x y : UInt8) : x < y ∨ x = y ∨ y < x := by
  simp only [UInt8.lt_iff_toNat_lt, ← UInt8.toNat_inj]
  omega

@[simp] theorem le_refl (a : Bytes) : le a a = true := by
  induction a with
  | nil => rfl
  | cons b rest ih => simp [le, ih]

theorem le_total (a b : Bytes) : le a b = true ∨ le b a = true := by
  induction a generalizing b with
  | nil => exact Or.inl (by simp [le])
  | cons x xs ih =>
    cases b with
    | nil => exact Or.inr (by simp [le])
    | cons y ys =>
      simp only [le]
      rcases byte_trichotomy x y with h | rfl | h
      · simp [h]
      · simpa using ih ys
      · simp [h]

theorem le_antisymm {a b : Bytes} (hab : le a b = true) (hba : le b a = true) : a = b := by
  induction a generalizing b with
  | nil =>
    cases b with
    | nil => rfl
    | cons y ys => simp [le] at hba
  | cons x xs ih =>
    cases b with
    | nil => simp [le] at hab
    | cons y ys =>
      simp only [le] at hab hba
      rcases byte_trichotomy x y with h | rfl | h
      · simp [h, UInt8.lt_asymm h] at hba
      · simp only [UInt8.lt_irrefl, if_false] at hab hba
        rw [ih hab hba]
      · simp [h, UInt8.lt_asymm h] at hab

theorem le_trans {a b c : Bytes} (hab : le a b = true) (hbc : le b c = true) : le a c = true := by
  induction a generalizing b c with
  | nil => simp [le]
  | cons x xs ih =>
    cases b with
    | nil => simp [le] at hab
    | cons y ys =>
      cases c with
      | nil => simp [le] at hbc
      | cons z zs =>
        simp only [le] at hab hbc ⊢
        rcases byte_trichotomy x y with hxy | rfl | hxy
        · rcases byte_trichotomy y z with hyz | rfl | hyz
          · simp [UInt8.lt_trans hxy hyz]
          · simp [hxy]
          · simp [hyz, UInt8.lt_asymm hyz] at hbc
        · rcases byte_trichotomy x z with hyz | rfl | hyz
          · simp [hyz]
          · simp only [UInt8.lt_irrefl, if_false] at hab hbc ⊢
            exact ih hab hbc
          · simp [hyz, UInt8.lt_asymm hyz] at hbc
        · simp [hxy, UInt8.lt_asymm hxy] at hab

end Bytes

end PipelineArchive
