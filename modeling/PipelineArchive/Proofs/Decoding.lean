import PipelineArchive.Decoding

/-!
# Decoders read what was encoded

`d.Reads bytes value` says that the decoder reads the byte string as the value, wherever it
stands and whatever follows it, and leaves the cursor behind it. Such readings follow one
another by `Reads.bind`, so that a composed decoder is read part by part along its own
definition. The primitive decoders read what the primitive encodings write: `reads_u32`,
`reads_sized`, `reads_text`, `reads_words`.

A count is refused if the bytes left cannot hold so many elements. `Reads.count_bind` therefore
speaks about a count together with its elements.
-/

set_option autoImplicit false

namespace PipelineArchive

namespace Encode

@[simp] theorem length_count (n : Nat) : (count n).length = 4 := Bytes.length_ofU32 _

@[simp] theorem length_sized (bytes : Bytes) : (sized bytes).length = 4 + bytes.length := by
  simp [sized]

theorem length_flatMap_const {α : Type} {f : α → Bytes} {width : Nat}
    (h : ∀ x, (f x).length = width) (xs : List α) :
    (xs.flatMap f).length = width * xs.length := by
  induction xs with
  | nil => rfl
  | cons x rest ih =>
    rw [List.flatMap_cons, List.length_append, ih, h, List.length_cons, Nat.mul_succ, Nat.add_comm]

@[simp] theorem length_ofWords (ws : List UInt32) : (Bytes.ofWords ws).length = 4 * ws.length :=
  length_flatMap_const Bytes.length_ofU32 ws

end Encode

namespace Decoder

variable {α β : Type}

/-- The decoder reads the bytes as the value, whatever follows them. -/
def Reads (d : Decoder α) (bytes : Bytes) (value : α) : Prop :=
  ∀ position rest,
    d ⟨position, bytes ++ rest⟩ = (.ok value, ⟨position + bytes.length, rest⟩)

theorem Reads.pure (value : α) : (Pure.pure value : Decoder α).Reads [] value :=
  fun _ _ => rfl

/-- After a decoder that succeeds the next one goes on where it has stopped. -/
theorem bind_ok {d : Decoder α} {next : α → Decoder β} {c c' : Cursor} {x : α}
    (h : d c = (.ok x, c')) : (d >>= next) c = next x c' := by
  show Decoder.bind d next c = _
  rw [Decoder.bind, h]

/-- Readings follow one another. -/
theorem Reads.bind {d : Decoder α} {next : α → Decoder β} {a b : Bytes} {x : α} {y : β}
    (hd : d.Reads a x) (hnext : (next x).Reads b y) : (d >>= next).Reads (a ++ b) y := by
  intro position rest
  rw [List.append_assoc, bind_ok (hd position (b ++ rest)), hnext]
  simp only [List.length_append, Nat.add_assoc]

/-- A reading whose value is passed on through a function. -/
theorem Reads.bind_pure {d : Decoder α} {f : α → β} {a : Bytes} {x : α} (hd : d.Reads a x) :
    (d >>= fun value => Pure.pure (f value)).Reads a (f x) := by
  have h : (d >>= fun value => Pure.pure (f value)).Reads (a ++ []) (f x) :=
    hd.bind (Reads.pure (f x))
  rwa [List.append_nil] at h

/-! ## Primitive decoders -/

theorem reads_take {bytes : Bytes} {count : Nat} (h : bytes.length = count) :
    (take count).Reads bytes bytes := by
  subst h
  intro position rest
  simp [take, Cursor.remaining, Cursor.advance]

theorem reads_u32 (word : UInt32) : u32.Reads (Bytes.ofU32 word) word := by
  have h := (reads_take (Bytes.length_ofU32 word)).bind_pure
    (f := fun bytes => UInt32.ofNat (Bytes.toNat bytes))
  rw [Bytes.toNat_ofU32, UInt32.ofNat_toNat] at h
  exact h

theorem reads_u64 (word : UInt64) : u64.Reads (Bytes.ofU64 word) word := by
  have h := (reads_take (Bytes.length_ofU64 word)).bind_pure
    (f := fun bytes => UInt64.ofNat (Bytes.toNat bytes))
  rw [Bytes.toNat_ofU64, UInt64.ofNat_toNat] at h
  exact h

theorem reads_u8 (byte : UInt8) : u8.Reads [byte] byte := by
  have h := (reads_take (rfl : [byte].length = 1)).bind_pure
    (f := fun bytes => UInt8.ofNat (Bytes.toNat bytes))
  rwa [Bytes.toNat, Bytes.toNat, Nat.mul_zero, Nat.add_zero, UInt8.ofNat_toNat] at h

theorem reads_i32 (n : Int32) : i32.Reads (encode n) n :=
  (reads_u32 n.toUInt32).bind_pure (f := UInt32.toInt32)

theorem reads_single (x : Single) : single.Reads (encode x) x :=
  (reads_u32 x.bits).bind_pure (f := Single.mk)

theorem reads_bool (b : Bool) : bool.Reads (encode b) b := by
  cases b with
  | false => exact (reads_u8 0).bind (Reads.pure false)
  | true => exact (reads_u8 1).bind (Reads.pure true)

/-- The number that an encoded count stands for, if it fits. -/
theorem toNat_count {n : Nat} (h : n < UInt32.size) :
    (UInt32.ofNat (min n maxCount)).toNat = n := by
  have hsize : UInt32.size = 4294967296 := rfl
  have hmin : min n maxCount = n := Nat.min_eq_left (by rw [maxCount]; omega)
  rw [hmin, UInt32.toNat_ofNat_of_lt' h]

theorem reads_sized {bytes : Bytes} (h : bytes.length < UInt32.size) :
    sized.Reads (Encode.sized bytes) bytes :=
  (reads_u32 _).bind (reads_take (toNat_count h).symm)

theorem reads_text {s : String} (h : (Bytes.ofText s).length < UInt32.size) :
    text.Reads (Encode.text s) s := by
  intro position rest
  -- the place of the length is needed for an error only
  refine (bind_ok (d := Decoder.position) rfl).trans ?_
  refine (bind_ok (reads_sized h position rest)).trans ?_
  simp only [Utf8.decode?_ofText]
  rfl

/-- A count is read if the bytes that follow can hold so many elements. -/
theorem count_eq {n least : Nat} {rest : Bytes} (hn : n < UInt32.size)
    (hleast : n * least ≤ rest.length) (position : Nat) :
    count least ⟨position, Encode.count n ++ rest⟩ = (.ok n, ⟨position + 4, rest⟩) := by
  have hword := reads_u32 (UInt32.ofNat (min n maxCount)) position rest
  rw [Bytes.length_ofU32] at hword
  -- the decoder refuses the count only if the bytes left are too few
  have hroom : ¬(0 < least ∧ rest.length < n * least) := by omega
  refine (bind_ok hword).trans ?_
  refine (bind_ok (d := remaining) rfl).trans ?_
  rw [toNat_count hn, Cursor.remaining, if_neg hroom]
  rfl

/-- A count before elements that take at least `least` bytes each. -/
theorem Reads.count_bind {next : Nat → Decoder β} {n least : Nat} {bytes : Bytes} {y : β}
    (hn : n < UInt32.size) (hleast : n * least ≤ bytes.length) (hnext : (next n).Reads bytes y) :
    (count least >>= next).Reads (Encode.count n ++ bytes) y := by
  intro position rest
  -- what follows the elements only makes more room
  have hroom : n * least ≤ (bytes ++ rest).length := by
    rw [List.length_append]
    omega
  rw [List.append_assoc, bind_ok (count_eq hn hroom position), hnext]
  simp only [List.length_append, Encode.length_count, Nat.add_assoc]

theorem reads_many {d : Decoder α} {encoded : α → Bytes} (values : List α)
    (h : ∀ value ∈ values, d.Reads (encoded value) value) :
    (many d values.length).Reads (values.flatMap encoded) values := by
  induction values with
  | nil => exact Reads.pure []
  | cons value rest ih =>
    have hrest := ih fun other hother => h other (List.mem_cons_of_mem _ hother)
    exact (h value List.mem_cons_self).bind (hrest.bind_pure (f := (value :: ·)))

theorem reads_words {ws : List UInt32} (h : ws.length < UInt32.size) :
    words.Reads (Encode.words ws) ws := by
  refine Reads.count_bind h ?_ (reads_many ws fun word _ => reads_u32 word)
  exact Nat.le_of_eq (by rw [Encode.length_ofWords, Nat.mul_comm])

end Decoder

end PipelineArchive
