import PipelineArchive.Container.Archive
import PipelineArchive.Proofs.Container.Reading
import PipelineArchive.Proofs.Decoding.Consumption
import PipelineArchive.Proofs.Results

/-!
# Readers go forward

A reader of archives takes bytes from the front of those that are left, as the decoders do that it
is composed of, and where it succeeds it gives the same value when more bytes follow.
`Read.Forward` says so; it is preserved by everything that readers are composed of, and holds of
every reader of archives.

Whatever a reader refuses it refuses with an error that is reported to the caller
(`ReadError.IsReported`). The two other errors stand for a slice that does not lie in its bytes
and for a sum that does not fit: the program would not survive these.
-/

set_option autoImplicit false

namespace PipelineArchive

namespace Container

/-! ## Errors that are reported -/

/-- The error is one that the caller is told. The others stand for a slice that does not lie in
its bytes and for a sum that does not fit. -/
def ReadError.IsReported : ReadError → Prop
  | .badSlice .. => False
  | .wideSum _ => False
  | _ => True

/-- If something goes wrong then the caller is told. -/
def Reports {α : Type} (result : Except ReadError α) : Prop :=
  ∀ e, result = .error e → e.IsReported

namespace Reports

variable {α β : Type}

theorem ok (value : α) : Reports (.ok value) := by rintro e ⟨⟩

theorem error {e : ReadError} (h : e.IsReported) : Reports (.error e : Except ReadError α) := by
  rintro _ ⟨⟩
  exact h

theorem bind {result : Except ReadError α} {next : α → Except ReadError β} (h : Reports result)
    (hnext : ∀ value, result = .ok value → Reports (next value)) : Reports (result >>= next) := by
  cases result with
  | error e => exact error (h e rfl)
  | ok value => exact hnext value rfl

theorem map {result : Except ReadError α} (h : Reports result) (f : α → β) :
    Reports (result.map f) := by
  cases result with
  | error e => exact error (h e rfl)
  | ok value => exact ok (f value)

theorem mapM {f : α → Except ReadError β} {xs : List α} (h : ∀ x ∈ xs, Reports (f x)) :
    Reports (xs.mapM f) := by
  induction xs with
  | nil => exact ok []
  | cons x rest ih =>
    obtain ⟨hx, hrest⟩ := List.forall_mem_cons.1 h
    rw [List.mapM_cons]
    exact hx.bind fun y _ => (ih hrest).bind fun ys _ => ok (y :: ys)

theorem forM {f : α → Except ReadError Unit} {xs : List α} (h : ∀ x ∈ xs, Reports (f x)) :
    Reports (xs.forM f) := by
  induction xs with
  | nil => exact ok ()
  | cons x rest ih =>
    obtain ⟨hx, hrest⟩ := List.forall_mem_cons.1 h
    exact hx.bind fun _ _ => ih hrest

theorem ofFnM {f : Backend → Except ReadError α} (h : ∀ b, Reports (f b)) :
    Reports (PerBackend.ofFnM f) :=
  (h .d3d11).bind fun _ _ => (h .d3d12).bind fun _ _ => (h .gl).bind fun _ _ =>
    (h .gles).bind fun _ _ => (h .vulkan).bind fun _ _ => (h .metalMacos).bind fun _ _ =>
      (h .metalIos).bind fun _ _ => ok _

end Reports

/-- A part is taken from where it lies, or it is reported that it does not lie there. -/
theorem reports_slicePart (bytes : Bytes) {offset : Nat} (h : offset ≤ maxOffset) (size : Nat)
    (part : Part) : Reports (slicePart bytes offset size part) := by
  unfold slicePart
  simp only
  split
  · exact .error trivial
  · rename_i hstop
    -- a sum that saturates is no smaller than the offset either
    have hstart : offset ≤ saturatingAdd offset size := Nat.le_min.2 ⟨Nat.le_add_right _ _, h⟩
    rw [sliceBetween, if_pos ⟨hstart, Nat.le_of_not_lt hstop⟩]
    exact .ok _

/-- A slice of a byte string is the same slice of a longer one. -/
theorem sliceBetween_append {bytes part : Bytes} {start stop : Nat}
    (h : sliceBetween bytes start stop = .ok part) (more : Bytes) :
    sliceBetween (bytes ++ more) start stop = .ok part := by
  unfold sliceBetween at h
  split at h
  · rename_i hplace
    obtain ⟨hstart, hstop⟩ := hplace
    cases h
    rw [sliceBetween, if_pos ⟨hstart, by rw [List.length_append]; omega⟩, Bytes.slice, Bytes.slice,
      List.drop_append_of_le_length (by omega),
      List.take_append_of_le_length (by rw [List.length_drop]; omega)]
  · cases h

theorem slicePart_append {bytes found : Bytes} {offset size : Nat} {part : Part}
    (h : slicePart bytes offset size part = .ok found) (more : Bytes) :
    slicePart (bytes ++ more) offset size part = .ok found := by
  unfold slicePart at h ⊢
  simp only at h ⊢
  split at h
  · cases h
  · rw [if_neg (by rw [List.length_append]; omega)]
    exact sliceBetween_append h more

/-- Words of 32 bits stay far below the place where sums saturate. -/
theorem toNat_le_maxOffset (w : UInt32) : w.toNat ≤ maxOffset := by
  have hlt : w.toNat < UInt32.size := w.toNat_lt
  have hbounds := offset_bounds
  omega

/-! ## Readers -/

namespace Read

variable {α β : Type}

theorem bind_eq_ok_iff {r : Read α} {next : α → Read β} {c c'' : Cursor} {y : β} :
    (r >>= next) c = .ok (y, c'') ↔ ∃ x c', r c = .ok (x, c') ∧ next x c' = .ok (y, c'') := by
  show ((r c) >>= fun p => next p.1 p.2) = _ ↔ _
  rw [Results.bind_eq_ok_iff]
  exact ⟨fun ⟨⟨x, c'⟩, hx, hy⟩ => ⟨x, c', hx, hy⟩, fun ⟨x, c', hx, hy⟩ => ⟨⟨x, c'⟩, hx, hy⟩⟩

/-- A reader goes forward, and another one does the same on more bytes. The two differ only where
they take slices of something besides the bytes that they read. -/
structure ForwardTo (r r' : Read α) : Prop where
  reports (c : Cursor) : Reports (r c)
  passes {c c' : Cursor} {value : α} : r c = .ok (value, c') → ∃ taken, c.Passes taken c'
  appends {c c' : Cursor} {value : α} :
    r c = .ok (value, c') → ∀ more, r' (c.append more) = .ok (value, c'.append more)

/-- A reader that succeeds takes bytes from the front, and does the same where more follow. -/
abbrev Forward (r : Read α) : Prop := r.ForwardTo r

theorem forward_pure (value : α) : (Pure.pure value : Read α).Forward where
  reports c := .ok _
  passes h := by
    cases h
    exact ⟨[], Cursor.Passes.refl _⟩
  appends h more := by
    cases h
    rfl

theorem ForwardTo.bind {r r' : Read α} {next next' : α → Read β} (hr : r.ForwardTo r')
    (hnext : ∀ x, (next x).ForwardTo (next' x)) : (r >>= next).ForwardTo (r' >>= next') where
  reports c := (hr.reports c).bind fun p _ => (hnext p.1).reports p.2
  passes h := by
    obtain ⟨x, c', hx, hy⟩ := bind_eq_ok_iff.1 h
    obtain ⟨first, hfirst⟩ := hr.passes hx
    obtain ⟨second, hsecond⟩ := (hnext x).passes hy
    exact ⟨first ++ second, hfirst.trans hsecond⟩
  appends h more := by
    obtain ⟨x, c', hx, hy⟩ := bind_eq_ok_iff.1 h
    exact bind_eq_ok_iff.2 ⟨x, _, hr.appends hx more, (hnext x).appends hy more⟩

theorem forward_throw {e : ReadError} (h : e.IsReported) :
    Forward (throw e : Read α) where
  reports c := .error h
  passes h := by cases h
  appends h := by cases h

/-- A result takes no bytes. -/
theorem forwardTo_lift {e e' : Except ReadError α} (h : Reports e)
    (hsame : ∀ value, e = .ok value → e' = .ok value) :
    (liftM e : Read α).ForwardTo (liftM e') := by
  cases e with
  | error reason => exact ⟨fun _ => .error (h reason rfl), by rintro _ _ _ ⟨⟩, by rintro _ _ _ ⟨⟩⟩
  | ok value =>
    rw [hsame value rfl]
    exact forward_pure value

theorem forward_ofDecoder {d : Decoder α} (h : d.Forward) : (ofDecoder d).Forward where
  reports c := by
    unfold ofDecoder
    rcases d c with ⟨e | value, c'⟩
    · exact .error trivial
    · exact .ok _
  passes {c c' value} hr := by
    unfold ofDecoder at hr
    cases hd : d c with
    | mk result c'' =>
    rw [hd] at hr
    cases result with
    | error e => cases hr
    | ok decoded =>
      cases hr
      exact h.passes hd
  appends {c c' value} hr more := by
    unfold ofDecoder at hr ⊢
    cases hd : d c with
    | mk result c'' =>
    rw [hd] at hr
    cases result with
    | error e => cases hr
    | ok decoded =>
      cases hr
      rw [h.appends hd more]

theorem forward_u32 : u32.Forward := forward_ofDecoder Decoder.forward_u32

theorem forward_u64 : u64.Forward := forward_ofDecoder Decoder.forward_u64

theorem forward_ofFnM {f : Backend → Read α} (h : ∀ b, (f b).Forward) :
    (PerBackend.ofFnM f).Forward :=
  (h .d3d11).bind fun _ => (h .d3d12).bind fun _ => (h .gl).bind fun _ => (h .gles).bind fun _ =>
    (h .vulkan).bind fun _ => (h .metalMacos).bind fun _ => (h .metalIos).bind fun _ =>
      forward_pure _

theorem ForwardTo.value?_reports {r r' : Read α} (h : r.ForwardTo r') (bytes : Bytes) :
    Reports (r.value? bytes) := (h.reports _).map _

/-- What is read from a byte string is read from a longer one. -/
theorem ForwardTo.value?_append {r r' : Read α} (h : r.ForwardTo r') {bytes : Bytes} {value : α}
    (hr : r.value? bytes = .ok value) (more : Bytes) : r'.value? (bytes ++ more) = .ok value := by
  obtain ⟨⟨_, c'⟩, hread, rfl⟩ := Results.map_eq_ok_iff.1 hr
  rw [value?, ← Cursor.start_append, h.appends hread more]
  rfl

end Read

/-! ## The readers of archives -/

open Read

theorem Header.forward_read : Header.read.Forward :=
  forward_u32.bind fun _ => forward_u32.bind fun _ => forward_u32.bind fun _ =>
    (forward_ofFnM fun _ => forward_u64).bind fun _ => forward_u64.bind fun _ => forward_pure _

theorem ChunkHeader.forward_readAll (count : Nat) (seen : List ChunkHeader) :
    (readAll count seen).Forward := by
  induction count generalizing seen with
  | zero => exact forward_pure []
  | succ count ih =>
    refine forward_u32.bind fun number => forward_u32.bind fun size =>
      forward_u32.bind fun offset => ?_
    cases ChunkKind.ofOrdinal? number.toNat with
    | none => exact forward_throw trivial
    | some kind =>
      simp only
      split
      · exact forward_throw trivial
      · exact (ih _).bind fun _ => forward_pure _

namespace ChunkBody

theorem reports_nameAt (kind : ChunkKind) (body : Bytes) (offset : Nat) :
    Reports (nameAt kind body offset) := by
  unfold nameAt
  simp only
  split
  · cases Utf8.decode? ((body.drop offset).takeWhile (· ≠ 0)) with
    | error e => exact .error trivial
    | ok name => exact .ok name
  · exact .error trivial

theorem forward_readEntries (kind : ChunkKind) (body : Bytes) (count : Nat) :
    (readEntries kind body count).Forward := by
  induction count with
  | zero => exact forward_pure []
  | succ count ih =>
    exact forward_u32.bind fun nameOffset => forward_u32.bind fun offset =>
      forward_u32.bind fun size =>
        (forwardTo_lift (reports_nameAt kind body nameOffset.toNat) fun _ h => h).bind fun name =>
          ih.bind fun _ => forward_pure _

theorem forward_readTable : readTable.Forward :=
  forward_u32.bind fun _ => forward_u32.bind fun _ => forward_pure _

theorem forward_read (kind : ChunkKind) (body : Bytes) : (read kind body).Forward := by
  have hnamed : (do
      let count ← Read.ofDecoder (.count namedEntrySize)
      return .named (← readEntries kind body count) : Read ChunkBody).Forward :=
    (forward_ofDecoder (Decoder.forward_count _)).bind fun count =>
      (forward_readEntries kind body count).bind fun _ => forward_pure _
  cases kind with
  | debugInfo =>
    exact forward_u32.bind fun _ => (forward_ofDecoder Decoder.forward_text).bind fun _ =>
      forward_pure _
  | shaders => exact (forward_ofFnM fun _ => forward_readTable).bind fun _ => forward_pure _
  | _ => exact hnamed

end ChunkBody

namespace Archive

theorem forward_readDataHeader : readDataHeader.Forward :=
  forward_u32.bind fun _ => (forward_ofFnM fun _ => forward_u32).bind fun _ =>
    (forward_ofFnM fun _ => forward_u32).bind fun _ => forward_pure _

theorem forward_readIndices : readIndices.Forward := forward_ofDecoder Decoder.forward_words

theorem forward_readLayoutIds (pipeline : String) (count : Nat) :
    (readLayoutIds pipeline count).Forward := by
  induction count with
  | zero => exact forward_pure []
  | succ count ih =>
    refine forward_u32.bind fun number => ?_
    cases Backend.ofOrdinal? number.toNat with
    | none => exact forward_throw trivial
    | some b => exact forward_u64.bind fun _ => ih.bind fun _ => forward_pure _

theorem forward_readPipeline (name : String) : (readPipeline name).Forward :=
  (forward_ofDecoder Decoder.forward_sized).bind fun _ => forward_readIndices.bind fun _ =>
    forward_u32.bind fun _ => (forward_ofDecoder (Decoder.forward_count 12)).bind fun count =>
      (forward_readLayoutIds name count).bind fun _ => forward_pure _

theorem forward_readDevice : readDevice.Forward :=
  forward_readIndices.bind fun _ => (forward_ofDecoder Decoder.forward_sized).bind fun _ =>
    forward_pure _

theorem forward_readShader (b : Backend) (index : Nat) : (readShader b index).Forward := by
  refine forward_u32.bind fun bits => ?_
  cases ShaderStage.all.find? fun stage => (StageSet.singleton stage).bits == bits with
  | none => exact forward_throw trivial
  | some stage =>
    exact (forward_ofDecoder Decoder.forward_text).bind fun _ => forward_u32.bind fun _ =>
      (forward_ofDecoder Decoder.forward_sized).bind fun _ => forward_pure _

section

variable (b : Backend) {region region' : Bytes} (hsame : ∀ {offset size part bytes},
  slicePart region offset size part = .ok bytes → slicePart region' offset size part = .ok bytes)
include hsame

/-- Shaders are read through the entries of a table, and the same ones where what these lead to is
the same. -/
theorem forwardTo_readShaders (index count : Nat) :
    (readShaders b region index count).ForwardTo (readShaders b region' index count) := by
  induction count generalizing index with
  | zero => exact forward_pure []
  | succ count ih =>
    refine forward_u32.bind fun offset => forward_u32.bind fun size => ?_
    refine (forwardTo_lift (reports_slicePart region (toNat_le_maxOffset offset) _ _)
      fun _ h => hsame h).bind fun bytes => ?_
    exact (forwardTo_lift ((forward_readShader b index).value?_reports bytes) fun _ h => h).bind
      fun _ => (ih (index + 1)).bind fun _ => forward_pure _

theorem forwardTo_readShaderTable :
    Read.ForwardTo
      (do
        let count ← Read.ofDecoder (.count shaderEntrySize)
        readShaders b region 0 count)
      (do
        let count ← Read.ofDecoder (.count shaderEntrySize)
        readShaders b region' 0 count) :=
  (forward_ofDecoder (Decoder.forward_count _)).bind fun count =>
    forwardTo_readShaders b hsame 0 count

end

end Archive

end Container

end PipelineArchive
