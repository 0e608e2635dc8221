import PipelineArchive.Proofs.Container.Forward
import PipelineArchive.Proofs.Container.Regions

/-!
# Readers read nothing but what is written

Readers give back what was written (`Read.Reads`). `r.Follows format` says the converse: the bytes
that a reader takes for a value are of the format. Readers that follow their formats are put
together by `Follows.bind`, part by part along the definition of a reader. So pipelines, their data
and shaders are read only from bytes that begin with one that was encoded
(`exists_readPipeline_iff`, `exists_readDevice_iff`, `readShader_eq_ok_iff`).
-/

set_option autoImplicit false

namespace PipelineArchive

namespace Container

open Results

/-! ## Readers -/

namespace Read

variable {α β : Type}

/-- The bytes that the reader takes for a value are of a format. -/
def Follows (r : Read α) (format : Bytes → α → Prop) : Prop :=
  ∀ c c' x, r c = .ok (x, c') → ∃ taken, c.rest = taken ++ c'.rest ∧ format taken x

theorem follows_pure {value : α} {format : Bytes → α → Prop} (h : format [] value) :
    (Pure.pure value : Read α).Follows format := by
  rintro c _ _ ⟨⟩
  exact ⟨[], rfl, h⟩

theorem Follows.bind {r : Read α} {next : α → Read β} {part : Bytes → α → Prop}
    {whole : Bytes → β → Prop} (hr : r.Follows part)
    (hnext : ∀ first x, part first x → (next x).Follows fun second => whole (first ++ second)) :
    (r >>= next).Follows whole := by
  intro c c'' y h
  obtain ⟨x, c', hx, hy⟩ := bind_eq_ok_iff.1 h
  obtain ⟨first, hfirst, hpart⟩ := hr c c' x hx
  obtain ⟨second, hsecond, hwhole⟩ := hnext first x hpart c' c'' y hy
  exact ⟨first ++ second, by rw [hfirst, hsecond, List.append_assoc], hwhole⟩

/-- A result takes no bytes. -/
theorem follows_lift (e : Except ReadError α) :
    (liftM e : Read α).Follows fun bytes x => bytes = [] ∧ e = .ok x := by
  intro c c' x h
  cases e with
  | error reason => cases h
  | ok value =>
    cases h
    exact ⟨[], rfl, rfl, rfl⟩

theorem follows_throw (e : ReadError) (format : Bytes → α → Prop) :
    (throw e : Read α).Follows format := by
  rintro _ _ _ ⟨⟩

theorem follows_ofDecoder {d : Decoder α} {format : Bytes → α → Prop} (h : d.Follows format) :
    (ofDecoder d).Follows format := by
  intro c c' x hr
  unfold ofDecoder at hr
  cases hd : d c with
  | mk result c'' =>
  rw [hd] at hr
  cases result with
  | error e => cases hr
  | ok value =>
    cases hr
    exact h c c' x hd

theorem follows_u32 : u32.Follows fun bytes w => bytes = encode w :=
  follows_ofDecoder Decoder.follows_u32

theorem follows_u64 : u64.Follows fun bytes w => bytes = encode w :=
  follows_ofDecoder Decoder.follows_u64

/-- What is read from a byte string stands at its beginning. -/
theorem Follows.value? {r : Read α} {format : Bytes → α → Prop} (h : r.Follows format)
    {bytes : Bytes} {value : α} (hr : r.value? bytes = .ok value) :
    ∃ taken more, bytes = taken ++ more ∧ format taken value := by
  obtain ⟨⟨_, c'⟩, hread, rfl⟩ := map_eq_ok_iff.1 hr
  obtain ⟨taken, hrest, hformat⟩ := h _ c' _ hread
  exact ⟨taken, c'.rest, hrest, hformat⟩

end Read

namespace Archive

open Read

/-! ## Pipelines -/

/-- The number that a backend is read from is the one that it is written as. -/
theorem encode_of_ofOrdinal? {number : UInt32} {b : Backend}
    (h : Backend.ofOrdinal? number.toNat = some b) : encode b = encode number := by
  have hordinal : Backend.all[b.ordinal]? = some b := by cases b <;> rfl
  obtain ⟨hlt, -⟩ := List.getElem?_eq_some_iff.1 h
  have hnumber : number.toNat = b.ordinal :=
    (List.getElem?_inj hlt (by decide)).1 (h.trans hordinal.symm)
  change Bytes.ofU32 (UInt32.ofNat b.ordinal) = Bytes.ofU32 number
  rw [← hnumber, UInt32.ofNat_toNat]

theorem follows_readLayoutIds (pipeline : String) (count : Nat) :
    (readLayoutIds pipeline count).Follows fun bytes ids =>
      bytes = (ids.flatMap fun (b, id) => encode b ++ encode id) ∧ ids.length = count := by
  induction count with
  | zero => exact follows_pure ⟨rfl, rfl⟩
  | succ count ih =>
    refine follows_u32.bind ?_
    rintro _ number rfl
    cases hb : Backend.ofOrdinal? number.toNat with
    | none => exact follows_throw _ _
    | some b =>
      refine follows_u64.bind ?_
      rintro _ id rfl
      refine ih.bind ?_
      rintro _ ids ⟨rfl, rfl⟩
      apply follows_pure
      refine ⟨?_, rfl⟩
      rw [List.append_nil, ← encode_of_ofOrdinal? hb, ← List.append_assoc]
      rfl

theorem follows_readPipeline (name : String) :
    (readPipeline name).Follows fun bytes _ =>
      ∃ p signatures renderPass, bytes = pipelinePayload p signatures renderPass := by
  refine (follows_ofDecoder Decoder.follows_sized).bind ?_
  rintro _ desc ⟨rfl, -⟩
  refine (follows_ofDecoder Decoder.follows_words).bind ?_
  rintro _ signatures ⟨rfl, -⟩
  refine follows_u32.bind ?_
  rintro _ renderPass rfl
  refine (follows_ofDecoder (Decoder.follows_count 12)).bind ?_
  rintro _ count ⟨rfl, -⟩
  refine (follows_readLayoutIds name count).bind ?_
  rintro _ layoutIds ⟨rfl, rfl⟩
  apply follows_pure
  refine ⟨⟨[], desc, [], none, layoutIds, .replicate none⟩, signatures, renderPass, ?_⟩
  simp only [pipelinePayload, List.append_assoc, List.append_nil]
  rfl

/-- A payload reads as that of a pipeline exactly if it begins with one. -/
theorem exists_readPipeline_iff (name : String) {bytes : Bytes} (h : bytes.length < UInt32.size) :
    (∃ view, (readPipeline name).value? bytes = .ok view) ↔
      ∃ p signatures renderPass more, bytes = pipelinePayload p signatures renderPass ++ more := by
  constructor
  · rintro ⟨view, hview⟩
    obtain ⟨_, more, rfl, p, signatures, renderPass, rfl⟩ :=
      (follows_readPipeline name).value? hview
    exact ⟨p, signatures, renderPass, more, rfl⟩
  · rintro ⟨p, signatures, renderPass, more, rfl⟩
    rw [List.length_append] at h
    exact ⟨_, (reads_pipeline name p signatures renderPass (by omega)).value? more⟩

theorem follows_readDevice :
    readDevice.Follows fun bytes _ => ∃ d, bytes = devicePayload d := by
  refine (follows_ofDecoder Decoder.follows_words).bind ?_
  rintro _ shaders ⟨rfl, -⟩
  refine (follows_ofDecoder Decoder.follows_sized).bind ?_
  rintro _ header ⟨rfl, -⟩
  apply follows_pure
  refine ⟨⟨shaders.map UInt32.toNat, header⟩, ?_⟩
  have hwords : (shaders.map UInt32.toNat).map UInt32.ofNat = shaders := by
    simp [Function.comp_def]
  rw [devicePayload, hwords, List.append_nil]
  rfl

/-- Data read as those of a pipeline exactly if they begin with such data. -/
theorem exists_readDevice_iff {bytes : Bytes} (h : bytes.length < UInt32.size) :
    (∃ view, readDevice.value? bytes = .ok view) ↔ ∃ d more, bytes = devicePayload d ++ more := by
  constructor
  · rintro ⟨view, hview⟩
    obtain ⟨_, more, rfl, d, rfl⟩ := follows_readDevice.value? hview
    exact ⟨d, more, rfl⟩
  · rintro ⟨d, more, rfl⟩
    rw [List.length_append] at h
    exact ⟨_, (reads_device d (by omega)).value? more⟩

/-! ## Shaders -/

theorem follows_readShader (b : Backend) (index : Nat) :
    (readShader b index).Follows fun bytes view => bytes = view.bytes := by
  refine follows_u32.bind ?_
  rintro _ bits rfl
  cases hstage : ShaderStage.all.find? fun stage => (StageSet.singleton stage).bits == bits with
  | none => exact follows_throw _ _
  | some stage =>
    have hbits : (StageSet.singleton stage).bits = bits :=
      eq_of_beq (List.find?_some (p := fun stage => (StageSet.singleton stage).bits == bits) hstage)
    refine (follows_ofDecoder Decoder.follows_text).bind ?_
    rintro _ entryPoint ⟨rfl, -⟩
    refine follows_u32.bind ?_
    rintro _ language rfl
    refine (follows_ofDecoder Decoder.follows_sized).bind ?_
    rintro _ code ⟨rfl, -⟩
    apply follows_pure
    subst hbits
    simp only [ShaderView.bytes, List.append_assoc, List.append_nil]
    rfl

/-- A shader is read exactly from bytes that begin with it. -/
theorem readShader_eq_ok_iff (b : Backend) (index : Nat) (view : ShaderView) {bytes : Bytes}
    (h : bytes.length < UInt32.size) :
    (readShader b index).value? bytes = .ok view ↔ ∃ more, bytes = view.bytes ++ more := by
  constructor
  · intro hview
    obtain ⟨_, more, rfl, rfl⟩ := (follows_readShader b index).value? hview
    exact ⟨more, rfl⟩
  · rintro ⟨more, rfl⟩
    rw [List.length_append] at h
    exact (reads_shaderView b index view (by omega)).value? more

end Archive

end Container

end PipelineArchive
