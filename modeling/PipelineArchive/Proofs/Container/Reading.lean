import PipelineArchive.Container.Archive
import PipelineArchive.Proofs.Decoding
import PipelineArchive.Proofs.Parts

/-!
# Readers read what was written

The readers of an archive end at the first error. `r.Reads bytes value` says of them what
`Decoder.Reads` says of decoders, and composes in the same way. `Reads.ofFnM` reads one value
for every backend. The slices that a reader takes are the parts that were written
(`sliceBetween_eq`, `slicePart_eq`).
-/

set_option autoImplicit false

namespace PipelineArchive

namespace Container

/-! ## Slices -/

/-- The invalid place is the last 32-bit word, and nothing of 32 bits comes near the place where
sums saturate. -/
theorem offset_bounds : UInt32.size = invalidOffset.toNat + 1 ∧ UInt32.size ≤ maxOffset ∧
    maxOffset < UInt64.size := ⟨rfl, by decide, by decide⟩

theorem ne_invalidOffset {w : UInt32} (h : w.toNat < invalidOffset.toNat) : w ≠ invalidOffset := by
  rintro rfl
  exact Nat.lt_irrefl _ h

theorem sliceBetween_eq {whole part : Bytes} {start stop : Nat} (h : whole.HasAt start part)
    (hstop : stop = start + part.length) : sliceBetween whole start stop = .ok part := by
  have hle := h.le_length
  have hsize : stop - start = part.length := by omega
  rw [sliceBetween, if_pos ⟨by omega, by omega⟩, hsize, h.slice]

theorem saturatingAdd_eq {offset size : Nat} (h : offset + size ≤ maxOffset) :
    saturatingAdd offset size = offset + size := Nat.min_eq_left h

theorem slicePart_eq {whole bytes : Bytes} {offset size : Nat} {part : Part}
    (h : whole.HasAt offset bytes) (hsize : size = bytes.length)
    (hwhole : whole.length ≤ maxOffset) : slicePart whole offset size part = .ok bytes := by
  have hle := h.le_length
  -- the whole is short enough that no sum saturates
  have hstop : saturatingAdd offset size = offset + size := saturatingAdd_eq (by omega)
  simp only [slicePart, hstop]
  rw [if_neg (by omega), sliceBetween_eq h (by omega)]

/-! ## Readers -/

namespace Read

variable {α β : Type}

/-- The reader reads the bytes as the value, whatever follows them. -/
def Reads (r : Read α) (bytes : Bytes) (value : α) : Prop :=
  ∀ position rest, r ⟨position, bytes ++ rest⟩ = .ok (value, ⟨position + bytes.length, rest⟩)

theorem Reads.pure (value : α) : (Pure.pure value : Read α).Reads [] value :=
  fun _ _ => rfl

/-- After a reader that succeeds the next one goes on where it has stopped. -/
theorem bind_ok {r : Read α} {next : α → Read β} {c c' : Cursor} {x : α}
    (h : r c = .ok (x, c')) : (r >>= next) c = next x c' := by
  show StateT.bind r next c = _
  rw [StateT.bind, h]
  rfl

/-- Readings follow one another. -/
theorem Reads.bind {r : Read α} {next : α → Read β} {a b : Bytes} {x : α} {y : β}
    (hr : r.Reads a x) (hnext : (next x).Reads b y) : (r >>= next).Reads (a ++ b) y := by
  intro position rest
  rw [List.append_assoc, bind_ok (hr position (b ++ rest)), hnext]
  simp only [List.length_append, Nat.add_assoc]

/-- A reading whose value is passed on through a function. -/
theorem Reads.bind_pure {r : Read α} {f : α → β} {a : Bytes} {x : α} (hr : r.Reads a x) :
    (r >>= fun value => Pure.pure (f value)).Reads a (f x) := by
  have h : (r >>= fun value => Pure.pure (f value)).Reads (a ++ []) (f x) :=
    hr.bind (Reads.pure (f x))
  rwa [List.append_nil] at h

/-- A result that takes no bytes. -/
theorem Reads.lift {e : Except ReadError α} {value : α} (h : e = .ok value) :
    (liftM e : Read α).Reads [] value := by
  subst h
  exact fun _ _ => rfl

theorem Reads.ofDecoder {d : Decoder α} {bytes : Bytes} {value : α} (h : d.Reads bytes value) :
    (ofDecoder d).Reads bytes value := by
  intro position rest
  rw [Read.ofDecoder, h]

/-- A count before elements that take at least `least` bytes each. -/
theorem Reads.count_bind {next : Nat → Read β} {n least : Nat} {bytes : Bytes} {y : β}
    (hn : n < UInt32.size) (hleast : n * least ≤ bytes.length) (hnext : (next n).Reads bytes y) :
    (Read.ofDecoder (.count least) >>= next).Reads (Encode.count n ++ bytes) y := by
  intro position rest
  -- as for decoders: what follows the elements only makes more room
  have hroom : n * least ≤ (bytes ++ rest).length := by
    rw [List.length_append]
    omega
  have hcount : Read.ofDecoder (.count least) ⟨position, Encode.count n ++ (bytes ++ rest)⟩ =
      .ok (n, ⟨position + 4, bytes ++ rest⟩) := by
    rw [Read.ofDecoder, Decoder.count_eq hn hroom]
  rw [List.append_assoc, bind_ok hcount, hnext]
  simp only [List.length_append, Encode.length_count, Nat.add_assoc]

theorem reads_u32 (word : UInt32) : u32.Reads (encode word) word :=
  Reads.ofDecoder (Decoder.reads_u32 word)

theorem reads_u64 (word : UInt64) : u64.Reads (encode word) word :=
  Reads.ofDecoder (Decoder.reads_u64 word)

/-- One value for every backend is read in the order of the backends. -/
theorem Reads.ofFnM {f : Backend → Read α} {bytes : Backend → Bytes} {value : Backend → α}
    (h : ∀ b, (f b).Reads (bytes b) (value b)) :
    (PerBackend.ofFnM f).Reads (Backend.all.flatMap bytes) (PerBackend.ofFn value) :=
  (h .d3d11).bind <| (h .d3d12).bind <| (h .gl).bind <| (h .gles).bind <| (h .vulkan).bind <|
    (h .metalMacos).bind <| (h .metalIos).bind (Reads.pure _)

/-- A reader that reads the bytes reads a byte string that begins with them. -/
theorem Reads.value? {r : Read α} {bytes : Bytes} {value : α} (h : r.Reads bytes value)
    (rest : Bytes) : r.value? (bytes ++ rest) = .ok value := by
  rw [Read.value?, Cursor.start, h]
  rfl

theorem Reads.value?_self {r : Read α} {bytes : Bytes} {value : α} (h : r.Reads bytes value) :
    r.value? bytes = .ok value := by
  have hvalue := h.value? []
  rwa [List.append_nil] at hvalue

end Read

end Container

end PipelineArchive
