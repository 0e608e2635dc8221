import PipelineArchive.Proofs.Spirv.Remapping

/-!
# Remapped locations

Remapping the locations of a module writes one literal for each vertex input. Where the inputs have
identifiers of their own, the module that is read from the new words has the old inputs, each in
the location that it was assigned (`reads_remapLocations`), and the remapped module itself shows
the same inputs before it is read again.
-/

set_option autoImplicit false

namespace PipelineArchive

open Results

/-- An input in the location that is assigned to it. -/
def VertexInput.located (assign : VertexInput → UInt32) (input : VertexInput) : VertexInput :=
  { input with location := assign input }

namespace Spirv.Module

variable {m n o : Module} {assign : VertexInput → UInt32}

/-! ## Remapping is writing -/

/-- The write that gives an input its location. -/
def locationWrite (assign : VertexInput → UInt32) (entry : UInt32 × VertexInput) : Write :=
  ⟨entry.1, Decoration.location, assign entry.2⟩

theorem writes_remapLocationsOf {entries : List (UInt32 × VertexInput)}
    (h : (remapLocationsOf assign entries m).outcome = .ok ()) :
    Writes (entries.map (locationWrite assign)) m (remapLocationsOf assign entries m).module := by
  induction entries generalizing m with
  | nil => exact .nil m
  | cons entry rest ih =>
    obtain ⟨id, input⟩ := entry
    unfold remapLocationsOf at h ⊢
    cases hset : m.setDecoration id Decoration.location (assign input) "Location" with
    | error e =>
      simp only [hset] at h
      cases h
    | ok m₁ =>
      simp only [hset] at h ⊢
      exact (setDecoration_eq_ok hset).append (ih h)

/-- Inputs of different variables are written apart. -/
theorem pairwise_locationWrite (assign : VertexInput → UInt32)
    {entries : List (UInt32 × VertexInput)} (hids : (entries.map (·.1)).Nodup) :
    (entries.map (locationWrite assign)).Pairwise Write.Apart := by
  apply List.pairwise_map.2
  apply (List.pairwise_map.1 hids).imp
  intro entry entry' hne hsame
  exact hne hsame.1

/-! ## The inputs of a remapped module -/

theorem vertexInputs_perm (m : Module) :
    m.vertexInputs.Perm (m.declaredVariables.filterMap fun v => (m.vertexInput? v).map (v.id, ·)) :=
  List.mergeSort_perm _ _

/-- Where the locations of the inputs were written, each is in the location that was assigned to
it. -/
theorem vertexInput?_written (hm : m.LiteralsApart)
    (hwritten : Written (m.vertexInputs.map (locationWrite assign)) m n) (hshows : Shows m n o)
    {v : Variable} (hv : v ∈ m.declaredVariables) :
    o.vertexInput? v = (m.vertexInput? v).map (VertexInput.located assign) := by
  rw [hshows.alike.vertexInput?_eq hm hshows.length]
  apply Option.map_congr
  intro input hinput
  have hmem : (v.id, input) ∈ m.vertexInputs := by
    rw [(vertexInputs_perm m).mem_iff, List.mem_filterMap]
    exact ⟨v, hv, by rw [hinput]; rfl⟩
  have hvalue := hwritten.value _ (List.mem_map_of_mem (f := locationWrite assign) hmem)
  simp only [locationWrite] at hvalue
  rw [hshows.value, hvalue]
  rfl

theorem filterMap_vertexInput? (hm : m.LiteralsApart)
    (hwritten : Written (m.vertexInputs.map (locationWrite assign)) m n) (hshows : Shows m n o) :
    (o.declaredVariables.filterMap fun v => (o.vertexInput? v).map (v.id, ·)) =
      (m.declaredVariables.filterMap fun v => (m.vertexInput? v).map (v.id, ·)).map
        fun (id, input) => (id, input.located assign) := by
  rw [hshows.alike.declaredVariables_eq, List.map_filterMap]
  apply List.filterMap_congr
  intro v hv
  rw [vertexInput?_written hm hwritten hshows hv, Option.map_map, Option.map_map]
  rfl

/-- A remapping of locations that succeeds changes no words but the literals of the locations of
inputs. Its words are those of a module with the old inputs, each in the location that was assigned
to it, and these are the inputs that the remapped module shows. -/
theorem reads_remapLocations {words : List UInt32} {next : Module} (hparse : parse words = .ok m)
    (hids : (m.vertexInputs.map (·.1)).Nodup)
    (hremap : (m.remapLocations assign).module? = .ok next) :
    next.words.length = words.length ∧
    (∀ p, next.words[p]? ≠ words[p]? →
      ∃ entry ∈ m.vertexInputs, m.literal? entry.1 Decoration.location = some p) ∧
    ∃ parsed, parse next.words = .ok parsed ∧ parsed.vertexInputs = next.vertexInputs ∧
      parsed.vertexInputs.Perm
        (m.vertexInputs.map fun (id, input) => (id, input.located assign)) := by
  obtain ⟨⟨⟩, houtcome, rfl⟩ := map_eq_ok_iff.1 hremap
  have hm := literalsApart_parse hparse
  have hwritten := (writes_remapLocationsOf houtcome).written hm
    (pairwise_locationWrite assign hids)
  obtain ⟨parsed, hparsed, hshows⟩ := hwritten.exists_parse hparse
  obtain ⟨rfl, -⟩ := parse_eq_ok hparse
  have hlist := filterMap_vertexInput? hm hwritten hshows
  -- the remapped module still has its old instructions, but shows the same inputs
  have hown := filterMap_vertexInput? hm hwritten hwritten.shows
  refine ⟨hwritten.length, ?_, parsed, hparsed, ?_, ?_⟩
  · intro p hne
    obtain ⟨w, hw, hliteral, -⟩ := hwritten.exists_write hne
    obtain ⟨entry, hentry, rfl⟩ := List.mem_map.1 hw
    exact ⟨entry, hentry, hliteral⟩
  · change List.mergeSort _ inputLe = List.mergeSort _ inputLe
    rw [hlist]
    exact congrArg (List.mergeSort · inputLe) hown.symm
  · exact (vertexInputs_perm parsed).trans (hlist ▸ ((vertexInputs_perm m).map _).symm)

/-- Inputs that are declared in their order stay in it. -/
theorem vertexInputs_of_pairwise
    (h : (m.declaredVariables.filterMap fun v => (m.vertexInput? v).map (v.id, ·)).Pairwise
      fun a b => inputLe a b) :
    m.vertexInputs = m.declaredVariables.filterMap fun v => (m.vertexInput? v).map (v.id, ·) :=
  List.mergeSort_of_pairwise h

end Spirv.Module

end PipelineArchive
