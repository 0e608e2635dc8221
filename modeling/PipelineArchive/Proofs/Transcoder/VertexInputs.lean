import Mathlib.Data.List.Induction
import Mathlib.Data.Nat.Digits.Defs
import PipelineArchive.Proofs.Spirv.Locations
import PipelineArchive.Transcoder.Compile

/-!
# Locations of vertex inputs

The inputs of an HLSL vertex shader ask for their locations by their semantics
(`attributeLocation?_eq_some_iff`). The locations are collected under the names of the inputs, so
that inputs of one name all get the location that one of them asks for. They get what they ask for
exactly if inputs of one name ask for the same (`compile_vertexInputs`).
-/

set_option autoImplicit false

namespace PipelineArchive

open Results

/-! ## Semantics -/

/-- A semantic that is `ATTRIB`, in letters of any case, and then a decimal numeral. -/
def IsAttribute (semantic : String) (number : Nat) : Prop :=
  ∃ letters digits : List Char, semantic.toList = letters ++ digits ∧
    letters.map Char.toUpper = ['A', 'T', 'T', 'R', 'I', 'B'] ∧
    digits ≠ [] ∧ (∀ c ∈ digits, c.isDigit) ∧
    Nat.ofDigits 10 (digits.reverse.map fun c => c.toNat - '0'.toNat) = number

/-- The number that is read digit by digit is the one that the numeral has by its places. -/
theorem foldl_eq_ofDigits (digits : List Char) :
    digits.foldl (fun acc c => acc * 10 + (c.toNat - '0'.toNat)) 0 =
      Nat.ofDigits 10 (digits.reverse.map fun c => c.toNat - '0'.toNat) := by
  induction digits using List.reverseRecOn with
  | nil => rfl
  | append_singleton digits c ih =>
    rw [List.foldl_append, List.reverse_append, List.reverse_singleton, List.singleton_append,
      List.map_cons, Nat.ofDigits_cons, ← ih, List.foldl_cons, List.foldl_nil]
    exact (Nat.add_comm _ _).trans (congrArg (_ + ·) (Nat.mul_comm _ _))

theorem decimalU32?_eq_some_iff {digits : List Char} {number : UInt32} :
    decimalU32? digits = some number ↔ digits ≠ [] ∧ (∀ c ∈ digits, c.isDigit) ∧
      Nat.ofDigits 10 (digits.reverse.map fun c => c.toNat - '0'.toNat) = number.toNat := by
  unfold decimalU32?
  rw [foldl_eq_ofDigits]
  generalize Nat.ofDigits 10 (digits.reverse.map fun c => c.toNat - '0'.toNat) = value
  have hcheck : (digits.isEmpty || !digits.all Char.isDigit) = true ↔
      ¬(digits ≠ [] ∧ ∀ c ∈ digits, c.isDigit) := by
    simp [imp_iff_not_or]
  split
  · rename_i hbad
    have hbad := hcheck.1 hbad
    constructor
    · intro h
      cases h
    · rintro ⟨hsome, hdigits, -⟩
      exact absurd ⟨hsome, hdigits⟩ hbad
  · rename_i hgood
    obtain ⟨hsome, hdigits⟩ := not_not.1 (mt hcheck.2 hgood)
    constructor
    · intro h
      simp only at h
      split at h
      · rename_i hlt
        cases h
        exact ⟨hsome, hdigits, (UInt32.toNat_ofNat_of_lt' hlt).symm⟩
      · cases h
    · rintro ⟨-, -, rfl⟩
      rw [if_pos number.toNat_lt, UInt32.ofNat_toNat]

/-- The location that is read from a semantic is the number of the attribute that it names. -/
theorem attributeLocation?_eq_some_iff {semantic : String} {location : UInt32} :
    attributeLocation? semantic = some location ↔ IsAttribute semantic location.toNat := by
  unfold attributeLocation?
  constructor
  · intro h
    simp only at h
    split at h
    · rename_i hletters
      obtain ⟨hsome, hdigits, hvalue⟩ := decimalU32?_eq_some_iff.1 h
      exact ⟨_, _, (List.take_append_drop 6 _).symm, hletters, hsome, hdigits, hvalue⟩
    · cases h
  · rintro ⟨letters, digits, htext, hletters, hsome, hdigits, hvalue⟩
    have hlength : letters.length = 6 := by
      have := congrArg List.length hletters
      rwa [List.length_map] at this
    simp only [htext, ← hlength, List.take_left, List.drop_left, hletters, if_true]
    exact decimalU32?_eq_some_iff.2 ⟨hsome, hdigits, hvalue⟩

namespace VertexInput

/-- The location that the semantic of an input asks for. -/
def askedLocation? (input : VertexInput) : Option UInt32 := input.semantic.bind attributeLocation?

theorem askedLocation?_eq_some_iff {input : VertexInput} {location : UInt32} :
    input.askedLocation? = some location ↔
      ∃ semantic, input.semantic = some semantic ∧ IsAttribute semantic location.toNat := by
  rw [askedLocation?, Option.bind_eq_some_iff]
  simp only [attributeLocation?_eq_some_iff]

end VertexInput

namespace CompiledShader

open Spirv (Module)

variable {compiled result : CompiledShader} {shader : Shader} {shaderName : String}
  {inputs : List VertexInput} {asked : List (String × UInt32)}

/-! ## Locations by name -/

/-- Locations are collected if all inputs ask for one. -/
theorem asks_of_locations (h : locations shaderName inputs = .ok asked) :
    List.Forall₂ (fun input pair => pair.1 = input.name ∧ input.askedLocation? = some pair.2)
      inputs asked := by
  induction inputs generalizing asked with
  | nil =>
    cases h
    exact .nil
  | cons input rest ih =>
    simp only [locations] at h
    split at h
    · cases h
    · rename_i location hlocation
      obtain ⟨others, hothers, rfl⟩ := map_eq_ok_iff.1 h
      refine .cons ⟨rfl, ?_⟩ (ih hothers)
      cases hsemantic : input.semantic with
      | none =>
        rw [hsemantic] at hlocation
        cases hlocation
      | some semantic =>
        rw [hsemantic] at hlocation
        rw [VertexInput.askedLocation?, hsemantic]
        exact hlocation

theorem exists_askedLocation (h : locations shaderName inputs = .ok asked) {input : VertexInput}
    (hinput : input ∈ inputs) : ∃ location, input.askedLocation? = some location := by
  obtain ⟨pair, -, -, hlocation⟩ := exists_of_mem_left (asks_of_locations h) hinput
  exact ⟨pair.2, hlocation⟩

/-- The location that is found for the name of an input is one that an input of this name asks
for. -/
theorem exists_asked (h : locations shaderName inputs = .ok asked) {input : VertexInput}
    (hinput : input ∈ inputs) :
    ∃ other ∈ inputs, ∃ location, other.name = input.name ∧
      other.askedLocation? = some location ∧
      asked.reverse.lookup input.name = some location := by
  have hasked := asks_of_locations h
  obtain ⟨pair, hpair, hname, -⟩ := exists_of_mem_left hasked hinput
  obtain ⟨location, hlookup⟩ := exists_lookup_reverse hpair
  obtain ⟨other, hother, hname', hlocation⟩ :=
    exists_of_mem_right hasked (mem_of_lookup_reverse hlookup)
  rw [hname] at hlookup hname'
  exact ⟨other, hother, location, hname'.symm, hlocation, hlookup⟩

/-- Mapping collects the locations that inputs ask for, and remaps the module by the names of its
inputs. -/
theorem mapVertexInputs_eq_ok_iff : compiled.mapVertexInputs shader = .ok result ↔
    ∃ asked m n, locations shader.name compiled.reflection.vertexInputs = .ok asked ∧
      Module.ofBytes compiled.code = .ok m ∧
      (m.remapLocations fun input =>
        (asked.reverse.lookup input.name).getD input.location).module? = .ok n ∧
      { compiled with
        code := n.toBytes
        reflection := { compiled.reflection with
          vertexInputs := (n.reflect shader.stage compiled.entryPoint).vertexInputs } } =
        result := by
  constructor
  · intro h
    obtain ⟨asked, hasked, h⟩ := bind_eq_ok_iff.1 h
    obtain ⟨n, hn, hresult⟩ := bind_eq_ok_iff.1 h
    obtain ⟨m, hm, hn⟩ := bind_eq_ok_iff.1 (mapError_eq_ok_iff.1 hn)
    exact ⟨asked, m, n, hasked, hm, hn, Except.ok.inj hresult⟩
  · rintro ⟨asked, m, n, hasked, hm, hn, rfl⟩
    refine bind_eq_ok_iff.2 ⟨asked, hasked, bind_eq_ok_iff.2 ⟨n, ?_, rfl⟩⟩
    exact mapError_eq_ok_iff.2 (bind_eq_ok_iff.2 ⟨m, hm, hn⟩)

/-- What mapping does to a module with inputs of their own identifiers: no words change but the
literals of locations, and each input is in the location that is found for its name, which is one
that an input of this name asks for. -/
theorem exists_mapped {m : Module} {name : String}
    (h : compiled.mapVertexInputs shader = .ok result)
    (hstage : shader.stage = .vertex) (hmodule : Module.ofBytes compiled.code = .ok m)
    (hreflection : compiled.reflection = m.reflect .vertex name)
    (hids : (m.vertexInputs.map (·.1)).Nodup) :
    ∃ (final : Module) (location : String → UInt32), Module.ofBytes result.code = .ok final ∧
      result.reflection.vertexInputs = final.vertexInputs.map (·.2) ∧
      final.words.length = m.words.length ∧
      (∀ p, final.words[p]? ≠ m.words[p]? →
        ∃ entry ∈ m.vertexInputs, m.literal? entry.1 Spirv.Decoration.location = some p) ∧
      final.vertexInputs.Perm (m.vertexInputs.map fun (id, input) =>
        (id, { input with location := location input.name })) ∧
      (∀ entry ∈ m.vertexInputs, ∃ own, entry.2.askedLocation? = some own) ∧
      ∀ entry ∈ m.vertexInputs, ∃ other ∈ m.vertexInputs, other.2.name = entry.2.name ∧
        other.2.askedLocation? = some (location entry.2.name) := by
  obtain ⟨asked, m', n, hasked, hm, hremap, rfl⟩ := mapVertexInputs_eq_ok_iff.1 h
  obtain rfl : m' = m := Except.ok.inj (hm.symm.trans hmodule)
  have hparse := Module.ofBytes_eq_ok hm
  obtain ⟨hwords, -⟩ := Module.parse_eq_ok hparse
  obtain ⟨hlength, hkept, final, hfinal, hsame, hperm⟩ :=
    Module.reads_remapLocations hparse hids hremap
  obtain ⟨hfinalWords, -⟩ := Module.parse_eq_ok hfinal
  rw [hreflection] at hasked
  have hasksFor (entry : UInt32 × VertexInput) (hentry : entry ∈ m'.vertexInputs) :
      ∃ other ∈ m'.vertexInputs, ∃ location, other.2.name = entry.2.name ∧
        other.2.askedLocation? = some location ∧
        asked.reverse.lookup entry.2.name = some location := by
    obtain ⟨other, hother, location, hname, hlocation, hlookup⟩ :=
      exists_asked hasked (List.mem_map_of_mem (f := (·.2)) hentry)
    obtain ⟨entry', hentry', rfl⟩ := List.mem_map.1 hother
    exact ⟨entry', hentry', location, hname, hlocation, hlookup⟩
  refine ⟨final, fun name => (asked.reverse.lookup name).getD 0, ?_, ?_, ?_, ?_, ?_, ?_, ?_⟩
  · rw [Module.ofBytes_toBytes]
    exact hfinal
  · rw [hsame, hstage]
    rfl
  · rw [hfinalWords, hlength, hwords]
  · intro p hne
    rw [hfinalWords, hwords] at hne
    exact hkept p hne
  · refine hperm.trans (List.Perm.of_eq (List.map_congr_left ?_))
    rintro ⟨id, input⟩ hentry
    obtain ⟨-, -, location, -, -, hlookup⟩ := hasksFor _ hentry
    simp only at hlookup
    simp only [VertexInput.located, hlookup, Option.getD_some]
  · intro entry hentry
    exact exists_askedLocation hasked (List.mem_map_of_mem (f := (·.2)) hentry)
  · intro entry hentry
    obtain ⟨other, hother, location, hname, hlocation, hlookup⟩ := hasksFor entry hentry
    exact ⟨other, hother, hname, by simp only [hlookup, Option.getD_some, hlocation]⟩

end CompiledShader

namespace Registry

open Spirv (Module)

variable {σ : Type} {registry : Registry σ} {t : Transcoder σ} {config : Config} {shader : Shader}
  {state next : σ} {code : Bytes} {entryPoint name : String} {reflection : Reflection} {m : Module}
  {compiled : CompiledShader}

/-- The inputs of an HLSL vertex shader for Vulkan are mapped when it is transcoded. -/
theorem compile_eq_mapVertexInputs (hlanguage : shader.source.language = .hlsl)
    (hstage : shader.stage = .vertex) (hroute : registry.find? (.vulkan, .hlsl) = some t)
    (hrun : t.run .vulkan config shader state = (.ok (code, entryPoint, reflection), next)) :
    (registry.compile config .vulkan shader state).1 =
      (CompiledShader.mk .vulkan .hlsl code entryPoint reflection).mapVertexInputs shader := by
  simp only [compile, hlanguage, hroute, hrun, finish, hstage, and_self, if_true]

/-- Compiling an HLSL vertex shader for Vulkan changes no words of the SPIR-V but the literals of
the locations of its inputs, and the reflection shows the inputs of the new words. Their semantics
are all attributes, and every input is in a location that an input of its name asks for. So the
location of each input is the number of its attribute exactly if inputs of one name ask for the
same location. -/
theorem compile_vertexInputs (hlanguage : shader.source.language = .hlsl)
    (hstage : shader.stage = .vertex) (hroute : registry.find? (.vulkan, .hlsl) = some t)
    (hrun : t.run .vulkan config shader state = (.ok (code, entryPoint, reflection), next))
    (hmodule : Module.ofBytes code = .ok m) (hreflection : reflection = m.reflect .vertex name)
    (hids : (m.vertexInputs.map (·.1)).Nodup)
    (hcompile : (registry.compile config .vulkan shader state).1 = .ok compiled) :
    ∃ (final : Module) (location : String → UInt32), Module.ofBytes compiled.code = .ok final ∧
      compiled.reflection.vertexInputs = final.vertexInputs.map (·.2) ∧
      final.words.length = m.words.length ∧
      (∀ p, final.words[p]? ≠ m.words[p]? →
        ∃ entry ∈ m.vertexInputs, m.literal? entry.1 Spirv.Decoration.location = some p) ∧
      final.vertexInputs.Perm (m.vertexInputs.map fun (id, input) =>
        (id, { input with location := location input.name })) ∧
      (∀ entry ∈ final.vertexInputs, ∃ semantic number,
        entry.2.semantic = some semantic ∧ IsAttribute semantic number) ∧
      ((∀ entry ∈ final.vertexInputs, ∃ semantic, entry.2.semantic = some semantic ∧
          IsAttribute semantic entry.2.location.toNat) ↔
        ∀ x ∈ m.vertexInputs, ∀ y ∈ m.vertexInputs, x.2.name = y.2.name →
          x.2.askedLocation? = y.2.askedLocation?) := by
  rw [compile_eq_mapVertexInputs hlanguage hstage hroute hrun] at hcompile
  obtain ⟨final, location, hfinal, hinputs, hlength, hkept, hperm, hown, hasked⟩ :=
    CompiledShader.exists_mapped hcompile hstage hmodule hreflection hids
  -- the inputs of the new words are those of the old ones in other locations
  have hforall (p : VertexInput → Prop) : (∀ entry ∈ final.vertexInputs, p entry.2) ↔
      ∀ entry ∈ m.vertexInputs, p { entry.2 with location := location entry.2.name } := by
    simp only [hperm.mem_iff, List.forall_mem_map]
  refine ⟨final, location, hfinal, hinputs, hlength, hkept, hperm, ?_, ?_⟩
  · apply (hforall fun input => ∃ semantic number, input.semantic = some semantic ∧
      IsAttribute semantic number).2
    intro entry hentry
    obtain ⟨own, hown⟩ := hown entry hentry
    obtain ⟨semantic, hsemantic, hattribute⟩ := VertexInput.askedLocation?_eq_some_iff.1 hown
    exact ⟨semantic, own.toNat, hsemantic, hattribute⟩
  · have hlocated : (∀ entry ∈ final.vertexInputs, ∃ semantic, entry.2.semantic = some semantic ∧
        IsAttribute semantic entry.2.location.toNat) ↔
          ∀ entry ∈ m.vertexInputs, entry.2.askedLocation? = some (location entry.2.name) := by
      rw [hforall fun input => ∃ semantic, input.semantic = some semantic ∧
        IsAttribute semantic input.location.toNat]
      simp only [VertexInput.askedLocation?_eq_some_iff]
    rw [hlocated]
    constructor
    · intro h x hx y hy hname
      rw [h x hx, h y hy, hname]
    · intro h entry hentry
      obtain ⟨other, hother, hname, hlocation⟩ := hasked entry hentry
      rw [← h other hother entry hentry hname]
      exact hlocation

/-! ## Two inputs -/

/-- A vertex shader with inputs of the attributes 0 and 1, in the locations 5 and 6. Each of the
words holds the name of an input. -/
def twoInputs (first second : UInt32) : Module where
  words := [Spirv.magic, 0x10000, 0, 20, 0,
    0x5000F, 0, 1, 0x6E69616D, 0, 0x30005, 10, first, 0x30005, 11, second,
    0x51600, 10, 5635, 0x52545441, 0x304249, 0x51600, 11, 5635, 0x52545441, 0x314249,
    0x40047, 10, 30, 5, 0x40047, 11, 30, 6,
    0x30016, 3, 32, 0x40020, 13, 1, 3, 0x4003B, 13, 10, 1, 0x4003B, 13, 11, 1]
  instructions := [
    ⟨5, Spirv.Op.entryPoint, [0, 1, 0x6E69616D, 0]⟩,
    ⟨10, Spirv.Op.name, [10, first]⟩,
    ⟨13, Spirv.Op.name, [11, second]⟩,
    ⟨16, Spirv.Op.decorateString, [10, Spirv.Decoration.userSemantic, 0x52545441, 0x304249]⟩,
    ⟨21, Spirv.Op.decorateString, [11, Spirv.Decoration.userSemantic, 0x52545441, 0x314249]⟩,
    ⟨26, Spirv.Op.decorate, [10, Spirv.Decoration.location, 5]⟩,
    ⟨30, Spirv.Op.decorate, [11, Spirv.Decoration.location, 6]⟩,
    ⟨34, 22, [3, 32]⟩,
    ⟨37, Spirv.Op.typePointer, [13, Spirv.StorageClass.input, 3]⟩,
    ⟨41, Spirv.Op.variableOp, [13, 10, Spirv.StorageClass.input]⟩,
    ⟨45, Spirv.Op.variableOp, [13, 11, Spirv.StorageClass.input]⟩]

/-- The inputs `a` and `b`. -/
def ownNames : Module := twoInputs 0x61 0x62

/-- Two inputs `a`. -/
def sharedName : Module := twoInputs 0x61 0x61

theorem vertexInputs_ownNames : ownNames.vertexInputs =
    [(10, ⟨"a", some "ATTRIB0", 5⟩), (11, ⟨"b", some "ATTRIB1", 6⟩)] := by
  rw [Module.vertexInputs_of_pairwise (by decide +kernel)]
  decide +kernel

theorem vertexInputs_sharedName : sharedName.vertexInputs =
    [(10, ⟨"a", some "ATTRIB0", 5⟩), (11, ⟨"a", some "ATTRIB1", 6⟩)] := by
  rw [Module.vertexInputs_of_pairwise (by decide +kernel)]
  decide +kernel

/-- A compiler that makes one module of all shaders. -/
def compilerOf (m : Module) : Transcoder Unit :=
  .stateless (fun _ _ _ => .ok ⟨m.toBytes, "main", some (m.reflect .vertex "main")⟩)
    fun _ _ => .error ""

def inputRegistry (m : Module) : Registry Unit :=
  Registry.empty.insert (.vulkan, .hlsl) (compilerOf m)

def inputShader : Shader := ⟨"shader", .vertex, "main", .hlsl "", []⟩

/-- A shader compiles if its inputs ask for locations, which can be written. -/
theorem exists_compiled {m : Module} (n : Module) (asked : List (String × UInt32))
    (hasked : CompiledShader.locations "shader" (m.vertexInputs.map (·.2)) = .ok asked)
    (hmodule : Module.ofBytes m.toBytes = .ok m)
    (hremap : (m.remapLocations fun input =>
      (asked.reverse.lookup input.name).getD input.location).module? = .ok n) :
    ∃ compiled, ((inputRegistry m).compile {} .vulkan inputShader ()).1 = .ok compiled :=
  ⟨_, CompiledShader.mapVertexInputs_eq_ok_iff.2 ⟨asked, m, n, hasked, hmodule, hremap, rfl⟩⟩

theorem ofBytes_ownNames : Module.ofBytes ownNames.toBytes = .ok ownNames := by decide +kernel

theorem ofBytes_sharedName : Module.ofBytes sharedName.toBytes = .ok sharedName := by
  decide +kernel

theorem exists_compiled_ownNames :
    ∃ compiled, ((inputRegistry ownNames).compile {} .vulkan inputShader ()).1 = .ok compiled := by
  refine exists_compiled { ownNames with words := (ownNames.words.set 29 0).set 33 1 }
    [("a", 0), ("b", 1)] ?_ ofBytes_ownNames ?_
  · rw [vertexInputs_ownNames]
    decide +kernel
  · rw [Module.remapLocations, vertexInputs_ownNames]
    decide +kernel

theorem exists_compiled_sharedName :
    ∃ compiled,
      ((inputRegistry sharedName).compile {} .vulkan inputShader ()).1 = .ok compiled := by
  refine exists_compiled { sharedName with words := (sharedName.words.set 29 1).set 33 1 }
    [("a", 0), ("a", 1)] ?_ ofBytes_sharedName ?_
  · rw [vertexInputs_sharedName]
    decide +kernel
  · rw [Module.remapLocations, vertexInputs_sharedName]
    decide +kernel

/-- Inputs of different names get the locations that they ask for. -/
theorem compile_vertexInputs_ownNames :
    inputShader.source.language = .hlsl ∧ inputShader.stage = .vertex ∧
    (inputRegistry ownNames).find? (.vulkan, .hlsl) = some (compilerOf ownNames) ∧
    (compilerOf ownNames).run .vulkan {} inputShader () =
      (.ok (ownNames.toBytes, "main", ownNames.reflect .vertex "main"), ()) ∧
    Module.ofBytes ownNames.toBytes = .ok ownNames ∧
    (ownNames.vertexInputs.map (·.1)).Nodup ∧
    ∃ compiled, ((inputRegistry ownNames).compile {} .vulkan inputShader ()).1 = .ok compiled ∧
      ∃ final, Module.ofBytes compiled.code = .ok final ∧
        ∀ entry ∈ final.vertexInputs, ∃ semantic, entry.2.semantic = some semantic ∧
          IsAttribute semantic entry.2.location.toNat := by
  have hids : (ownNames.vertexInputs.map (·.1)).Nodup := by
    rw [vertexInputs_ownNames]
    decide
  have hroute : (inputRegistry ownNames).find? (.vulkan, .hlsl) = some (compilerOf ownNames) := rfl
  have hrun : (compilerOf ownNames).run .vulkan {} inputShader () =
      (.ok (ownNames.toBytes, "main", ownNames.reflect .vertex "main"), ()) := rfl
  obtain ⟨compiled, hcompiled⟩ := exists_compiled_ownNames
  obtain ⟨final, -, hfinal, -, -, -, -, -, hlocated⟩ :=
    compile_vertexInputs rfl rfl hroute hrun ofBytes_ownNames rfl hids hcompiled
  refine ⟨rfl, rfl, hroute, hrun, ofBytes_ownNames, hids, compiled, hcompiled, final, hfinal,
    hlocated.2 ?_⟩
  rw [vertexInputs_ownNames]
  decide +kernel

/-- Inputs of one name get one location, also where they ask for different ones. -/
theorem not_always_located :
    ¬∀ (registry : Registry Unit) (t : Transcoder Unit) (config : Config) (shader : Shader)
      (code : Bytes) (entryPoint name : String) (reflection : Reflection) (m : Module)
      (compiled : CompiledShader),
      shader.source.language = .hlsl → shader.stage = .vertex →
      registry.find? (.vulkan, .hlsl) = some t →
      t.run .vulkan config shader () = (.ok (code, entryPoint, reflection), ()) →
      Module.ofBytes code = .ok m → reflection = m.reflect .vertex name →
      (m.vertexInputs.map (·.1)).Nodup →
      (registry.compile config .vulkan shader ()).1 = .ok compiled →
      ∃ final, Module.ofBytes compiled.code = .ok final ∧
        ∀ entry ∈ final.vertexInputs, ∃ semantic, entry.2.semantic = some semantic ∧
          IsAttribute semantic entry.2.location.toNat := by
  intro h
  have hinputs := vertexInputs_sharedName
  have hids : (sharedName.vertexInputs.map (·.1)).Nodup := by
    rw [hinputs]
    decide
  obtain ⟨compiled, hcompiled⟩ := exists_compiled_sharedName
  obtain ⟨final, hfinal, hlocated⟩ := h (inputRegistry sharedName) (compilerOf sharedName) {}
    inputShader _ _ _ _ sharedName compiled rfl rfl rfl rfl ofBytes_sharedName rfl hids hcompiled
  have hmapped : (CompiledShader.mk .vulkan .hlsl sharedName.toBytes "main"
      (sharedName.reflect .vertex "main")).mapVertexInputs inputShader = .ok compiled := hcompiled
  obtain ⟨final', location, hfinal', -, -, -, hperm, -⟩ :=
    CompiledShader.exists_mapped hmapped rfl ofBytes_sharedName rfl hids
  obtain rfl : final' = final := Except.ok.inj (hfinal'.symm.trans hfinal)
  rw [hinputs] at hperm
  -- both inputs are in the location of their name
  have hasks (entry : UInt32 × VertexInput) (hentry : entry ∈ final'.vertexInputs) :
      entry.2.askedLocation? = some entry.2.location :=
    VertexInput.askedLocation?_eq_some_iff.2 (hlocated entry hentry)
  have hfirst := hasks (10, ⟨"a", some "ATTRIB0", location "a"⟩) (hperm.mem_iff.2 (by simp))
  have hsecond := hasks (11, ⟨"a", some "ATTRIB1", location "a"⟩) (hperm.mem_iff.2 (by simp))
  have hzero : attributeLocation? "ATTRIB0" = some 0 := by decide +kernel
  have hone : attributeLocation? "ATTRIB1" = some 1 := by decide +kernel
  have hsame : (some 0 : Option UInt32) = some 1 := by
    rw [← hzero, ← hone]
    exact hfirst.trans hsecond.symm
  exact absurd hsame (by decide)

end Registry

end PipelineArchive
