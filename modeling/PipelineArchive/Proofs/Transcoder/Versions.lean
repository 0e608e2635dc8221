import PipelineArchive.Glsl.Emission
import PipelineArchive.Proofs.Glsl.Directives
import PipelineArchive.Proofs.Results
import PipelineArchive.Transcoder.Standard

/-!
# Versions of GLSL texts for OpenGL

A final text begins with the lines of its configuration (`headLines`), whose only version directive
comes first (`versions_head`). Behind them the text is meant to stand without its own directive
(`Conforms`). The directive is looked for as the word `#version` at the start of the text, and taken
off up to the first line feed. This is what it should be exactly if the text begins with that word
behind blanks alone, and the directive and the line are the same up to blanks (`FillsLine`); a
comment before the directive, one in it that goes on over the end of the line, or a carriage return
alone at its end make the difference (`glslToGlsl_conforms_iff`). A macro may make one as well,
if it leaves a comment open in which the text then begins (`UncoverNothing`).
-/

set_option autoImplicit false

namespace PipelineArchive.Transcoder

open Glsl Results Text

/-! ## The lines before a text -/

/-- The version directive of a configuration. -/
def versionLine (backend : Backend) (config : Config) : List Char :=
  if backend = .gles then
    "#version ".toList ++ (toString config.glesVersion.toNat).toList ++ " es".toList
  else "#version ".toList ++ (toString config.glVersion.toNat).toList

/-- The default precisions of OpenGL ES. -/
def precisionLines (backend : Backend) : List (List Char) :=
  if backend = .gles then ["precision highp float;".toList, "precision highp int;".toList] else []

/-- The directive that defines a macro. -/
def defineLine (m : ShaderMacro) : List Char :=
  ("#define " ++ m.name ++ " " ++ m.definition).toList

/-- The lines that a final text begins with. -/
def headLines (backend : Backend) (config : Config) (macros : List ShaderMacro) :
    List (List Char) :=
  versionLine backend config :: (precisionLines backend ++ macros.map defineLine)

theorem preamble_eq (backend : Backend) (config : Config) (macros : List ShaderMacro) :
    preamble backend config macros = written (headLines backend config macros) := by
  have hfeed : "\n".toList = ['\n'] := rfl
  have hprecisions : " es\nprecision highp float;\nprecision highp int;\n".toList =
      " es".toList ++ '\n' ::
        written ["precision highp float;".toList, "precision highp int;".toList] := by
    decide
  have hdefines : (macros.flatMap fun m => s!"#define {m.name} {m.definition}\n".toList) =
      written (macros.map defineLine) := by
    rw [written, List.flatMap_map]
    refine List.flatMap_congr fun m _ => ?_
    rw [String.toList_append, defineLine, ← hfeed]
    rfl
  simp only [preamble, hdefines, headLines, versionLine, precisionLines]
  simp only [written, List.flatMap_cons, List.flatMap_append, ← List.append_assoc]
  congr 1
  split
  · simp only [toString, String.toList_append, hprecisions, written, List.append_assoc]
    rfl
  · simp only [toString, String.toList_append, hfeed, List.flatMap_nil, List.append_nil]

theorem isInLine_of_digit {number : Nat} {c : Char} (hc : c ∈ (toString number).toList) :
    isInLine c := by
  have hdigits : (toString number).toList = Nat.toDigits 10 number := by simp
  rw [hdigits] at hc
  have hdigit := Nat.isDigit_of_mem_toDigits (by decide) (by decide) hc
  simp only [isInLine, isPlain, Bool.and_eq_true, decide_eq_true_eq]
  refine ⟨⟨⟨?_, ?_⟩, ?_⟩, ?_⟩
  all_goals
    rintro rfl
    cases hdigit

theorem versionLine_inLine (backend : Backend) (config : Config) :
    ∀ c ∈ versionLine backend config, isInLine c := by
  have hword : ∀ c ∈ "#version ".toList, isInLine c := List.all_eq_true.1 (by decide)
  have hes : ∀ c ∈ " es".toList, isInLine c := List.all_eq_true.1 (by decide)
  have hdigits {number : Nat} : ∀ c ∈ (toString number).toList, isInLine c :=
    fun _ => isInLine_of_digit
  rw [versionLine]
  split
  · exact List.forall_mem_append.2 ⟨List.forall_mem_append.2 ⟨hword, hdigits⟩, hes⟩
  · exact List.forall_mem_append.2 ⟨hword, hdigits⟩

theorem precisionLines_inLine {backend : Backend} {line : List Char}
    (hline : line ∈ precisionLines backend) :
    (∀ c ∈ line, isInLine c) ∧ isVersion line = false := by
  have hall : (precisionLines backend).all (fun line => line.all isInLine && !isVersion line) := by
    cases backend <;> decide
  have h := List.all_eq_true.1 hall line hline
  rw [Bool.and_eq_true, List.all_eq_true, Bool.not_eq_true'] at h
  exact h

/-- A number sign and the word `version` make a directive, whatever stands behind a blank. -/
theorem isVersion_append (number : List Char) : isVersion ("#version ".toList ++ number) := by
  have hword : "#version ".toList ++ number = '#' :: ("version".toList ++ ' ' :: number) := rfl
  have htrim : trimStart ("version".toList ++ ' ' :: number) = "version".toList ++ ' ' :: number :=
    rfl
  rw [hword, isVersion, trimStart, List.dropWhile_cons_of_neg (by decide)]
  simp only [htrim, after?_append]
  rfl

theorem isVersion_versionLine (backend : Backend) (config : Config) :
    isVersion (versionLine backend config) := by
  rw [versionLine]
  split
  · rw [List.append_assoc]
    exact isVersion_append _
  · exact isVersion_append _

theorem isVersion_defineLine (m : ShaderMacro) : isVersion (reading (defineLine m)) = false := by
  have hline : defineLine m = "#define ".toList ++ (m.name ++ " " ++ m.definition).toList := by
    rw [defineLine]
    simp only [String.toList_append, List.append_assoc]
  rw [hline, reading_append (List.all_eq_true.1 (by decide))]
  rfl

/-- The version directive of the configuration comes first, those behind the precisions follow. -/
theorem versions_head (backend : Backend) (config : Config) (macros : List ShaderMacro)
    (kept : List Char) :
    versions (written (headLines backend config macros) ++ kept) =
      versionLine backend config :: versions (written (macros.map defineLine) ++ kept) := by
  have hown : ∀ line ∈ versionLine backend config :: precisionLines backend, IsWholeLine line :=
    List.forall_mem_cons.2 ⟨isWholeLine_of_isInLine (versionLine_inLine backend config),
      fun line hline => isWholeLine_of_isInLine (precisionLines_inLine hline).1⟩
  have hprecisions : ((precisionLines backend).map reading).filter isVersion = [] := by
    rw [List.filter_eq_nil_iff, List.forall_mem_map]
    intro line hline
    rw [reading_of_isInLine (precisionLines_inLine hline).1, (precisionLines_inLine hline).2]
    exact Bool.false_ne_true
  have hwritten : written (headLines backend config macros) ++ kept =
      written (versionLine backend config :: precisionLines backend) ++
        (written (macros.map defineLine) ++ kept) := by
    rw [headLines, ← List.cons_append, written, List.flatMap_append, List.append_assoc]
    rfl
  rw [hwritten, versions_written hown, List.map_cons,
    reading_of_isInLine (versionLine_inLine backend config),
    List.filter_cons_of_pos (isVersion_versionLine backend config), hprecisions]
  rfl

/-- Macros that are whole lines add no version directive, and hide none. -/
theorem versions_defines {macros : List ShaderMacro}
    (hmacros : ∀ m ∈ macros, IsWholeLine (defineLine m)) (kept : List Char) :
    versions (written (macros.map defineLine) ++ kept) = versions kept := by
  have hdefines : ((macros.map defineLine).map reading).filter isVersion = [] := by
    rw [List.filter_eq_nil_iff, List.forall_mem_map, List.forall_mem_map]
    intro m _
    rw [isVersion_defineLine]
    exact Bool.false_ne_true
  rw [versions_written (List.forall_mem_map.2 hmacros), hdefines]
  rfl

/-! ## The text behind them -/

/-- The text behind the end of its first line, if that is where it begins. -/
def withoutLineEnd : List Char → List Char
  | '\r' :: '\n' :: rest => rest
  | '\r' :: rest => rest
  | '\n' :: rest => rest
  | rest => rest

theorem trimStart_withoutLineEnd (text : List Char) :
    trimStart (withoutLineEnd text) = trimStart text := by
  fun_cases withoutLineEnd text <;> rfl

theorem length_withoutLineEnd_le (text : List Char) :
    (withoutLineEnd text).length ≤ text.length := by
  fun_cases withoutLineEnd text <;> grind

/-- A text begins with `#version` behind its blanks. -/
def BeginsWithVersion (text : List Char) : Prop := "#version".toList <+: trimStart text

theorem withoutVersion_of_begins {text : List Char} (h : BeginsWithVersion text) :
    withoutVersion text = ((trimStart text).dropWhile (· ≠ '\n')).drop 1 := by
  rw [withoutVersion, if_pos (List.isPrefixOf_iff_prefix.2 h)]

theorem withoutVersion_of_not_begins {text : List Char} (h : ¬BeginsWithVersion text) :
    withoutVersion text = text := by
  rw [withoutVersion, if_neg fun hprefix => h (List.isPrefixOf_iff_prefix.1 hprefix)]

/-- A directive and the line of the text that it begins with are the same but for blanks at the
end of the longer one. -/
def FillsLine (line text : List Char) : Prop :=
  ∃ blanks, (∀ c ∈ blanks, isBlank c) ∧
    (text.takeWhile (· ≠ '\n') = line ++ blanks ∨
      line = text.takeWhile (· ≠ '\n') ++ '\n' :: blanks)

/-- What is left behind the first line of a text is the same, up to blanks, as what is left behind
the directive, exactly if the directive fills that line. -/
theorem trimStart_behind_iff {line rest : List Char} :
    trimStart (((line ++ rest).dropWhile (· ≠ '\n')).drop 1) = trimStart (withoutLineEnd rest) ↔
      FillsLine line (line ++ rest) := by
  have hcut : (line ++ rest).takeWhile (· ≠ '\n') ++ (line ++ rest).dropWhile (· ≠ '\n') =
      line ++ rest := List.takeWhile_append_dropWhile
  have hfeed := dropWhile_line_feed (line ++ rest)
  rw [trimStart_withoutLineEnd, FillsLine]
  generalize (line ++ rest).takeWhile (· ≠ '\n') = first at *
  generalize (line ++ rest).dropWhile (· ≠ '\n') = behind at *
  have hdrop : trimStart (behind.drop 1) = trimStart behind := by
    obtain rfl | ⟨more, rfl⟩ := hfeed <;> rfl
  rw [hdrop]
  obtain ⟨between, hline, hbehind⟩ | ⟨between, hfirst, hrest⟩ := List.append_eq_append_iff.1 hcut
  · -- the first line ends within the directive
    rw [hbehind, trimStart_append_eq_iff]
    subst hbehind
    cases between with
    | nil =>
      rw [List.append_nil] at hline
      subst hline
      exact ⟨fun h => ⟨[], h, .inl (List.append_nil _).symm⟩, fun _ => List.forall_mem_nil _⟩
    | cons c more =>
      obtain rfl : c = '\n' := by
        obtain h | ⟨_, h⟩ := hfeed
        · cases h
        · exact (List.cons.inj h).1
      constructor
      · exact fun h => ⟨more, (List.forall_mem_cons.1 h).2, .inr hline⟩
      · rintro ⟨blanks, hblanks, hfirst | hother⟩
        · have hlength := congrArg List.length (hfirst.trans (congrArg (· ++ blanks) hline))
          simp at hlength
        · have hblanks' := List.append_cancel_left (hline.symm.trans hother)
          rw [List.cons.injEq] at hblanks'
          rw [hblanks'.2]
          exact List.forall_mem_cons.2 ⟨by decide, hblanks⟩
  · -- the directive ends on the first line
    rw [hrest, eq_comm, trimStart_append_eq_iff]
    constructor
    · exact fun h => ⟨between, h, .inl hfirst⟩
    · rintro ⟨blanks, hblanks, hother | hline⟩
      · rwa [List.append_cancel_left (hfirst.symm.trans hother)]
      · have hlength := congrArg List.length (hline.trans (congrArg (· ++ '\n' :: blanks) hfirst))
        simp at hlength

theorem BeginsWithVersion.exists_trimStart {text : List Char} (h : BeginsWithVersion text) :
    ∃ more, trimStart text = '#' :: more := by
  obtain ⟨more, hmore⟩ := h
  exact ⟨"version".toList ++ more, hmore.symm⟩

/-- A text is kept as it is exactly if it does not begin with `#version`. -/
theorem trimStart_withoutVersion_iff {text : List Char} :
    trimStart (withoutVersion text) = trimStart text ↔ ¬BeginsWithVersion text := by
  constructor
  · intro htrim hbegins
    obtain ⟨more, hmore⟩ := hbegins.exists_trimStart
    rw [withoutVersion_of_begins hbegins, hmore, List.dropWhile_cons_of_pos (by decide)] at htrim
    -- what is left is shorter than the text by its number sign
    have hlength := congrArg List.length htrim
    have hstart := (List.dropWhile_suffix isBlank
      (l := (more.dropWhile fun c => decide (c ≠ '\n')).drop 1)).length_le
    have hline := (List.dropWhile_suffix (fun c => decide (c ≠ '\n')) (l := more)).length_le
    rw [← trimStart] at hstart
    rw [List.length_drop] at hstart
    rw [List.length_cons] at hlength
    omega
  · intro hbegins
    rw [withoutVersion_of_not_begins hbegins]

variable {text before line rest : List Char}

/-- Behind blanks, a text begins with its directive. -/
theorem trimStart_of_versioned (h : Versioned text before line rest)
    (hblank : ∀ c ∈ before, isBlank c) : trimStart text = line ++ rest := by
  obtain ⟨directive, rfl⟩ := List.head?_eq_some_iff.1 h.starts
  rw [h.text_eq, trimStart, List.dropWhile_append_of_pos hblank]
  rfl

/-- A text is another one without its directive. -/
theorem trimStart_ne_of_versioned (h : Versioned text before line rest) :
    trimStart text ≠ trimStart (before ++ withoutLineEnd rest) := by
  intro htrim
  -- behind what both begin with, the text goes on with the directive and is longer
  obtain ⟨directive, hline⟩ := List.head?_eq_some_iff.1 h.starts
  have hlonger : ∀ {shorter}, line ++ rest = shorter → ¬shorter.length ≤ rest.length := by
    rintro _ rfl
    rw [hline, List.length_append, List.length_cons]
    omega
  cases hbefore : trimStart before with
  | nil =>
    have hblank : ∀ c ∈ before, isBlank c := List.dropWhile_eq_nil_iff.1 hbefore
    rw [trimStart_of_versioned h hblank, trimStart_append_eq_iff.2 hblank,
      trimStart_withoutLineEnd] at htrim
    exact hlonger htrim (List.dropWhile_suffix isBlank).length_le
  | cons c other =>
    have hstart : ∀ behind, trimStart (before ++ behind) = c :: other ++ behind := fun behind => by
      rw [trimStart, List.dropWhile_append, ← trimStart, hbefore]
      rfl
    rw [h.text_eq, hstart, hstart] at htrim
    exact hlonger (List.append_cancel_left htrim) (length_withoutLineEnd_le rest)

/-- A directive is taken off, and nothing else, if the text begins with `#version` and the directive
fills the line that it begins on. -/
theorem trimStart_withoutVersion_iff_of_versioned (h : Versioned text before line rest) :
    trimStart (withoutVersion text) = trimStart (before ++ withoutLineEnd rest) ↔
      BeginsWithVersion text ∧ FillsLine line (trimStart text) := by
  by_cases hbegins : BeginsWithVersion text
  · obtain ⟨more, hmore⟩ := hbegins.exists_trimStart
    have hblank := h.blank_of_starts hmore
    have hbefore : trimStart (before ++ withoutLineEnd rest) = trimStart (withoutLineEnd rest) :=
      trimStart_append_eq_iff.2 hblank
    rw [hbefore, withoutVersion_of_begins hbegins, trimStart_of_versioned h hblank,
      trimStart_behind_iff, and_iff_right hbegins]
  · refine iff_of_false ?_ fun h => hbegins h.1
    rw [withoutVersion_of_not_begins hbegins]
    exact trimStart_ne_of_versioned h

/-- A text from which its directive was taken off has none. -/
theorem versions_withoutVersion_of_versioned (h : Versioned text before line rest)
    (hbegins : BeginsWithVersion text) (hfills : FillsLine line (trimStart text)) :
    versions (withoutVersion text) = [] := by
  obtain ⟨more, hmore⟩ := hbegins.exists_trimStart
  refine versions_eq_nil_of_trimStart ?_ h.once
  rw [(trimStart_withoutVersion_iff_of_versioned h).2 ⟨hbegins, hfills⟩,
    trimStart_append_eq_iff.2 (h.blank_of_starts hmore), trimStart_withoutLineEnd]

/-! ## Final texts -/

/-- A final text as it is meant to be: the version directive of the configuration first, which is
its only one, then the precisions of OpenGL ES, the macros, and a text that is the given one but for
leading blanks. -/
def Conforms (backend : Backend) (config : Config) (macros : List ShaderMacro) (source : List Char)
    (code : Bytes) : Prop :=
  ∃ kept, code = Bytes.ofText (String.ofList (written (headLines backend config macros) ++ kept)) ∧
    trimStart kept = trimStart source ∧
    versions (written (headLines backend config macros) ++ kept) = [versionLine backend config]

/-- Every macro is a whole line, or in spite of those that are not, nothing that follows is read as
a version directive. -/
def UncoverNothing (macros : List ShaderMacro) (kept : List Char) : Prop :=
  (∀ m ∈ macros, IsWholeLine (defineLine m)) ∨
    versions (written (macros.map defineLine) ++ kept) = []

theorem uncoverNothing_iff {macros : List ShaderMacro} {kept : List Char}
    (hkept : versions kept = []) :
    UncoverNothing macros kept ↔ versions (written (macros.map defineLine) ++ kept) = [] := by
  rw [UncoverNothing, or_iff_right_of_imp]
  intro hmacros
  rw [versions_defines hmacros, hkept]

variable {compiler : Glsl.Compiler} {backend : Backend} {config : Config} {shader : Shader}
  {source : String} {result : Transcoded}

theorem code_of_glslToGlsl (hsource : shader.source = .glsl source)
    (h : glslToGlsl compiler backend config shader = .ok result) :
    result.code = Bytes.ofText (String.ofList
      (written (headLines backend config shader.macros) ++ withoutVersion source.toList)) := by
  rw [glslToGlsl, hsource] at h
  obtain ⟨_, htext, h⟩ := bind_eq_ok_iff.1 h
  cases htext
  obtain ⟨interface, -, h⟩ := bind_eq_ok_iff.1 h
  cases h
  have hverbatim : isVerbatim shader = false := by
    rw [isVerbatim, hsource]
    rfl
  rw [finalGlsl, hverbatim, preamble_eq]
  rfl

theorem conforms_iff (hsource : shader.source = .glsl source)
    (h : glslToGlsl compiler backend config shader = .ok result) {meant : List Char} :
    Conforms backend config shader.macros meant result.code ↔
      trimStart (withoutVersion source.toList) = trimStart meant ∧
        versions (written (shader.macros.map defineLine) ++ withoutVersion source.toList) = [] := by
  rw [code_of_glslToGlsl hsource h, Conforms]
  constructor
  · rintro ⟨kept, hcode, htrim, hversions⟩
    obtain rfl := List.append_cancel_left
      (String.ofList_injective (Bytes.ofText_injective hcode))
    rw [versions_head, List.cons.injEq] at hversions
    exact ⟨htrim, hversions.2⟩
  · rintro ⟨htrim, hversions⟩
    exact ⟨_, rfl, htrim, by rw [versions_head, hversions]⟩

/-- A text without a version directive is kept, unless it begins with `#version` all the same; a
text with one is kept without it exactly if it begins with `#version` and the directive fills the
line that it begins on. In both cases no macro may uncover a directive. The texts with one directive
can be cut there wherever it is the first line that is not read as blanks. -/
theorem glslToGlsl_conforms_iff (hsource : shader.source = .glsl source)
    (h : glslToGlsl compiler backend config shader = .ok result) :
    (versions source.toList = [] →
      (Conforms backend config shader.macros source.toList result.code ↔
        ¬BeginsWithVersion source.toList ∧ UncoverNothing shader.macros source.toList)) ∧
    (∀ before line rest, Versioned source.toList before line rest →
      (Conforms backend config shader.macros (before ++ withoutLineEnd rest) result.code ↔
        (BeginsWithVersion source.toList ∧ FillsLine line (trimStart source.toList)) ∧
          UncoverNothing shader.macros (withoutVersion source.toList))) ∧
    ((∃ before line rest, Versioned source.toList before line rest) ↔
      (versions source.toList).length = 1 ∧ isVersion (firstLine (reading source.toList))) := by
  refine ⟨fun hnone => ?_, fun before line rest hversioned => ?_, exists_versioned_iff⟩
  · rw [conforms_iff hsource h, trimStart_withoutVersion_iff]
    refine and_congr_right fun hbegins => ?_
    rw [withoutVersion_of_not_begins hbegins, uncoverNothing_iff hnone]
  · rw [conforms_iff hsource h, trimStart_withoutVersion_iff_of_versioned hversioned]
    refine and_congr_right fun ⟨hbegins, hfills⟩ => ?_
    rw [uncoverNothing_iff (versions_withoutVersion_of_versioned hversioned hbegins hfills)]

/-- A compute shader with a macro, and with a directive on its first line. -/
def versionedShader : Shader where
  name := "fill"
  stage := .compute
  entryPoint := "main"
  source := .glsl "#version 450\nvoid main() {}\n"
  macros := [⟨"SIZE", "64"⟩]

theorem glslToGlsl_conforms_iff_versionedShader :
    ∃ result, glslToGlsl interfaceCompiler .gles {} versionedShader = .ok result ∧
      Conforms .gles {} versionedShader.macros "void main() {}\n".toList result.code := by
  have hmacros : ∀ m ∈ versionedShader.macros, IsWholeLine (defineLine m) := by
    refine List.forall_mem_singleton.2 (isWholeLine_of_isInLine ?_)
    exact List.all_eq_true.1 (by decide)
  have hversioned : Versioned "#version 450\nvoid main() {}\n".toList [] "#version 450".toList
      "\nvoid main() {}\n".toList := by
    refine ⟨by decide, by decide, List.all_eq_true.1 ?_, by decide, by decide, by decide,
      .inr (.inl (by decide)), by decide⟩
    decide
  have hresult : ∃ result, glslToGlsl interfaceCompiler .gles {} versionedShader = .ok result :=
    ⟨_, rfl⟩
  have hbegins : BeginsWithVersion "#version 450\nvoid main() {}\n".toList := by
    unfold BeginsWithVersion
    decide
  have hfills : FillsLine "#version 450".toList
      (trimStart "#version 450\nvoid main() {}\n".toList) :=
    ⟨[], List.forall_mem_nil _, .inl (by decide)⟩
  obtain ⟨result, h⟩ := hresult
  exact ⟨result, h, ((glslToGlsl_conforms_iff rfl h).2.1 _ _ _ hversioned).2
    ⟨⟨hbegins, hfills⟩, .inl hmacros⟩⟩

/-- A compute shader with a comment on the line before its directive. -/
def commentedShader : Shader where
  name := "fill"
  stage := .compute
  entryPoint := "main"
  source := .glsl "// c\n#version 450\nvoid main() {}\n"
  macros := []

/-- A directive behind a comment is not taken off. -/
theorem not_conforms_commentedShader :
    Versioned "// c\n#version 450\nvoid main() {}\n".toList "// c\n".toList "#version 450".toList
        "\nvoid main() {}\n".toList ∧
      ∃ result, glslToGlsl interfaceCompiler .gl {} commentedShader = .ok result ∧
        ¬Conforms .gl {} [] ("// c\n".toList ++ "void main() {}\n".toList) result.code := by
  have hversioned : Versioned "// c\n#version 450\nvoid main() {}\n".toList "// c\n".toList
      "#version 450".toList "\nvoid main() {}\n".toList := by
    refine ⟨by decide, by decide, List.all_eq_true.1 ?_, by decide, by decide, by decide,
      .inr (.inl (by decide)), by decide⟩
    decide
  have hresult : ∃ result, glslToGlsl interfaceCompiler .gl {} commentedShader = .ok result :=
    ⟨_, rfl⟩
  obtain ⟨result, h⟩ := hresult
  refine ⟨hversioned, result, h, fun hconforms => ?_⟩
  have hbegins := ((trimStart_withoutVersion_iff_of_versioned hversioned).1
    ((conforms_iff rfl h).1 hconforms).1).1
  unfold BeginsWithVersion at hbegins
  revert hbegins
  decide

end PipelineArchive.Transcoder
