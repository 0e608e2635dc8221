import PipelineArchive.Patch.Binding
import PipelineArchive.Proofs.Results

/-!
# Places of resources

Looking up the resources of a shader succeeds exactly if the layout has a binding for each of
them, and pairs each with this binding (`resolveAll_eq_ok_iff`).
-/

set_option autoImplicit false

namespace PipelineArchive

open Results

/-- The binding of a name and a type is one of the layout, with the name and the range of the
type. -/
theorem PipelineLayout.find?_spec {layout : PipelineLayout} {name : String}
    {resourceType : ResourceType} {b : LayoutBinding}
    (h : layout.find? name resourceType = some b) :
    b ∈ layout.bindings ∧ b.name = name ∧ b.resourceType.range = resourceType.range := by
  obtain ⟨signature, hsignature, hfind⟩ := List.exists_of_findSome?_eq_some h
  refine ⟨List.mem_flatMap.2 ⟨signature, hsignature, List.mem_of_find?_eq_some hfind⟩, ?_⟩
  have hfound := List.find?_some hfind
  rw [Bool.and_eq_true, Bool.or_eq_true, beq_iff_eq, beq_iff_eq, beq_iff_eq] at hfound
  obtain ⟨hname, htype | hrange⟩ := hfound
  · exact ⟨hname, congrArg ResourceType.range htype⟩
  · exact ⟨hname, hrange⟩

namespace Patch

variable {backend : Backend} {layout : PipelineLayout}

theorem resolve_eq_ok_iff {stage : ShaderStage} {r : ReflectedResource}
    {pair : ReflectedResource × LayoutBinding} :
    resolve backend layout stage r = .ok pair ↔
      pair.1 = r ∧ layout.find? r.name r.resourceType = some pair.2 := by
  obtain ⟨r', b⟩ := pair
  unfold resolve
  split
  · rename_i b' hb
    rw [hb]
    simp [eq_comm]
  · rename_i hnone
    rw [hnone]
    simp

/-- Each resource of a shader is paired with the binding that is found for it. -/
theorem resolveAll_eq_ok_iff {shader : CompiledShader}
    {places : List (ReflectedResource × LayoutBinding)} :
    resolveAll backend layout shader = .ok places ↔
      places.map (·.1) = shader.reflection.resources ∧
        ∀ p ∈ places, layout.find? p.1.name p.1.resourceType = some p.2 := by
  rw [resolveAll, mapM_eq_ok_iff]
  generalize shader.reflection.resources = resources
  constructor
  · intro h
    induction h with
    | nil => exact ⟨rfl, List.forall_mem_nil _⟩
    | @cons r p resources places hp _ ih =>
      obtain ⟨hmap, hall⟩ := ih
      obtain ⟨rfl, hfind⟩ := resolve_eq_ok_iff.1 hp
      exact ⟨by rw [List.map_cons, hmap], List.forall_mem_cons.2 ⟨hfind, hall⟩⟩
  · rintro ⟨rfl, hall⟩
    induction places with
    | nil => exact .nil
    | cons p places ih =>
      rw [List.forall_mem_cons] at hall
      exact .cons (resolve_eq_ok_iff.2 ⟨rfl, hall.1⟩) (ih hall.2)

section

variable {κ α : Type} [DecidableEq κ] {key : κ} {pairs : List (κ × α)}

theorem lastValue?_eq_none_iff : lastValue? key pairs = none ↔ ∀ p ∈ pairs, p.1 ≠ key := by
  rw [lastValue?, List.lookup_eq_none_iff]
  simp only [List.mem_reverse, bne_iff_ne, ne_comm]

/-- Values that are paired with the keys of their elements are found with the last element of a
key. -/
theorem lastValue?_map {β : Type} (keyOf : β → κ) (valueOf : β → α) (xs : List β) :
    lastValue? key (xs.map fun x => (keyOf x, valueOf x)) =
      (xs.reverse.find? fun x => keyOf x = key).map valueOf := by
  rw [lastValue?, ← List.map_reverse]
  induction xs.reverse with
  | nil => rfl
  | cons x xs ih =>
    rw [List.map_cons, List.lookup_cons, List.find?_cons, ih]
    by_cases hx : keyOf x = key
    · simp [hx]
    · simp [hx, beq_false_of_ne (Ne.symm hx)]

end

end Patch

end PipelineArchive
