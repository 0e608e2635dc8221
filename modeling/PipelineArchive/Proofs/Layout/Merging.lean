import Mathlib.Data.List.Nodup
import PipelineArchive.Contents.Table
import PipelineArchive.Layout.Synthesis
import PipelineArchive.Proofs.Description.Stages
import PipelineArchive.Proofs.Results

/-!
# Signatures that do not depend on the order of shaders

A signature is made from declarations that are merged one after another, and the first two of one
name that differ in type or array size end it. All the same nothing depends on the order. A merge
does one of two things: it appends a declaration, or it adds stages to the one of its name
(`merge_cases`). So the declarations merged so far are one for every name that was seen, with all
the stages that were seen with it (`Gathers`), and a merge succeeds as long as no two declarations
disagree (`exists_mergeAll`).

`Signature.Unites` says what the signature is without saying how it is made. Its resources are those
of the merged declarations in a strict order, so there is only one such signature, and declarations
in another order have the same one (`Unites.eq`). `synthesize_unites` puts this together.
-/

set_option autoImplicit false

namespace PipelineArchive

open Results

namespace Synthesis

/-! ## Declarations -/

/-- Declarations of one name have one type and one array size. -/
def Agree (declared : List ReflectedResource) : Prop :=
  ∀ x ∈ declared, ∀ y ∈ declared, x.name = y.name →
    x.resourceType = y.resourceType ∧ x.arraySize = y.arraySize

/-- All the stages that the declarations of a name are visible to. -/
def stagesOf (declared : List ReflectedResource) (name : String) : StageSet :=
  (declared.filter (·.name = name)).foldl (fun stages r => stages.union r.stages) .empty

theorem stagesOf_append (seen : List ReflectedResource) (r : ReflectedResource) (name : String) :
    stagesOf (seen ++ [r]) name =
      if r.name = name then (stagesOf seen name).union r.stages else stagesOf seen name := by
  by_cases hname : r.name = name
  · simp [stagesOf, hname]
  · simp [stagesOf, hname]

theorem stagesOf_eq_empty {seen : List ReflectedResource} {name : String}
    (h : name ∉ seen.map (·.name)) : stagesOf seen name = .empty := by
  have hfilter : seen.filter (·.name = name) = [] := by
    rw [List.filter_eq_nil_iff]
    intro r hr hname
    apply h
    rw [← of_decide_eq_true hname]
    exact List.mem_map_of_mem hr
  rw [stagesOf, hfilter]
  rfl

/-- The stages of a name do not depend on the order of declarations. -/
theorem stagesOf_perm {declared declared' : List ReflectedResource}
    (h : declared.Perm declared') (name : String) :
    stagesOf declared name = stagesOf declared' name := by
  apply (h.filter _).foldl_eq'
  intro x _ y _ stages
  exact stages.union_right_comm x.stages y.stages

/-- The stages of a declaration are among those of its name. -/
theorem contains_stagesOf {declared : List ReflectedResource} {r : ReflectedResource}
    (hr : r ∈ declared) {stage : ShaderStage} (h : r.stages.contains stage) :
    (stagesOf declared r.name).contains stage := by
  obtain ⟨front, rest, rfl⟩ := List.append_of_mem hr
  have hlast : (front ++ r :: rest).Perm (front ++ rest ++ [r]) :=
    List.perm_middle.trans (List.perm_append_singleton r (front ++ rest)).symm
  rw [stagesOf_perm hlast, stagesOf_append, if_pos rfl, StageSet.contains_union, h, Bool.or_true]

/-! ## One merge -/

theorem conflict?_eq_none {stage : ShaderStage} {first r : ReflectedResource} :
    conflict? stage first r = none ↔
      first.resourceType = r.resourceType ∧ first.arraySize = r.arraySize := by
  unfold conflict?
  by_cases htype : first.resourceType = r.resourceType
  · by_cases hsize : first.arraySize = r.arraySize
    · simp [htype, hsize]
    · simp [htype, hsize]
  · simp [htype]

/-- A merged declaration with the stages of another one of its name. -/
def absorb (r m : ReflectedResource) : ReflectedResource :=
  if m.name = r.name then { m with stages := m.stages.union r.stages } else m

@[simp] theorem name_absorb (r m : ReflectedResource) : (absorb r m).name = m.name := by
  unfold absorb
  split <;> rfl

@[simp] theorem resourceType_absorb (r m : ReflectedResource) :
    (absorb r m).resourceType = m.resourceType := by
  unfold absorb
  split <;> rfl

@[simp] theorem arraySize_absorb (r m : ReflectedResource) :
    (absorb r m).arraySize = m.arraySize := by
  unfold absorb
  split <;> rfl

theorem map_name_absorb (r : ReflectedResource) (merged : Merged) :
    (merged.map (absorb r)).map (·.name) = merged.map (·.name) := by
  rw [List.map_map]
  apply List.map_congr_left
  intro m _
  exact name_absorb r m

theorem map_absorb_eq_self {r : ReflectedResource} {merged : Merged}
    (h : r.name ∉ merged.map (·.name)) : merged.map (absorb r) = merged := by
  have hself : ∀ m ∈ merged, absorb r m = id m := by
    intro m hm
    apply if_neg
    intro hname
    apply h
    rw [← hname]
    exact List.mem_map_of_mem hm
  rw [List.map_congr_left hself, List.map_id]

/-- What a merge does where every name has one declaration: a name that is new is appended, and a
declaration of a name that is there, with which it agrees, adds its stages. -/
theorem merge_cases {stage : ShaderStage} {merged next : Merged} {r : ReflectedResource}
    (hnodup : (merged.map (·.name)).Nodup) (h : merge stage merged r = .ok next) :
    (r.name ∉ merged.map (·.name) ∧ next = merged ++ [r]) ∨
      (r.name ∈ merged.map (·.name) ∧
        (∀ m ∈ merged, m.name = r.name →
          m.resourceType = r.resourceType ∧ m.arraySize = r.arraySize) ∧
        next = merged.map (absorb r)) := by
  induction merged generalizing next with
  | nil =>
    cases h
    exact .inl ⟨by simp, rfl⟩
  | cons first rest ih =>
    rw [List.map_cons, List.nodup_cons] at hnodup
    obtain ⟨hfirst, hrest⟩ := hnodup
    unfold merge at h
    split at h
    · rename_i hname
      split at h
      · cases h
      · rename_i hconflict
        cases h
        rw [hname] at hfirst
        refine .inr ⟨by simp [hname], ?_, ?_⟩
        · intro m hm hsame
          rcases List.mem_cons.1 hm with rfl | hm
          · exact conflict?_eq_none.1 hconflict
          · -- no other declaration has the name of the first one
            exact absurd (hsame ▸ List.mem_map_of_mem hm) hfirst
        · rw [List.map_cons, map_absorb_eq_self hfirst, absorb, if_pos hname]
    · rename_i hname
      obtain ⟨others, hothers, rfl⟩ := map_eq_ok_iff.1 h
      rcases ih hrest hothers with ⟨hnew, rfl⟩ | ⟨hold, hagree, rfl⟩
      · refine .inl ⟨?_, rfl⟩
        rw [List.map_cons, List.mem_cons]
        rintro (hsame | hmem)
        · exact hname hsame.symm
        · exact hnew hmem
      · refine .inr ⟨List.mem_cons_of_mem _ hold, ?_, ?_⟩
        · intro m hm hsame
          rcases List.mem_cons.1 hm with rfl | hm
          · exact absurd hsame hname
          · exact hagree m hm hsame
        · rw [List.map_cons, absorb, if_neg hname]

/-- A declaration that agrees with all of its name is merged. -/
theorem exists_merge {stage : ShaderStage} {merged : Merged} {r : ReflectedResource}
    (h : ∀ m ∈ merged, m.name = r.name →
      m.resourceType = r.resourceType ∧ m.arraySize = r.arraySize) :
    ∃ next, merge stage merged r = .ok next := by
  induction merged with
  | nil => exact ⟨[r], rfl⟩
  | cons first rest ih =>
    unfold merge
    by_cases hname : first.name = r.name
    · rw [if_pos hname, conflict?_eq_none.2 (h first List.mem_cons_self hname)]
      exact ⟨_, rfl⟩
    · rw [if_neg hname]
      obtain ⟨next, hnext⟩ := ih fun m hm => h m (List.mem_cons_of_mem _ hm)
      exact ⟨first :: next, map_eq_ok_iff.2 ⟨next, hnext, rfl⟩⟩

/-! ## All merges -/

/-- The merged declarations of what was seen: one for every name, which agrees with all of that name
and has all of their stages. -/
structure Gathers (seen : List ReflectedResource) (merged : Merged) : Prop where
  nodup : (merged.map (·.name)).Nodup
  exact (name : String) : name ∈ merged.map (·.name) ↔ name ∈ seen.map (·.name)
  stages {m : ReflectedResource} : m ∈ merged → m.stages = stagesOf seen m.name
  agree {m x : ReflectedResource} : m ∈ merged → x ∈ seen → x.name = m.name →
    x.resourceType = m.resourceType ∧ x.arraySize = m.arraySize

namespace Gathers

variable {seen : List ReflectedResource} {merged next : Merged} {r : ReflectedResource}

theorem nil : Gathers [] [] where
  nodup := List.nodup_nil
  exact _ := Iff.rfl
  stages h := absurd h List.not_mem_nil
  agree h := absurd h List.not_mem_nil

/-- A declaration of a new name is one of its own. -/
theorem append (h : Gathers seen merged) (hnew : r.name ∉ merged.map (·.name)) :
    Gathers (seen ++ [r]) (merged ++ [r]) where
  nodup := by
    rw [List.map_append, List.nodup_append]
    refine ⟨h.nodup, List.nodup_singleton _, ?_⟩
    intro name hname other hother
    rw [List.mem_singleton.1 hother]
    exact ne_of_mem_of_not_mem hname hnew
  exact name := by simp only [List.map_append, List.mem_append, h.exact]
  stages {m} hm := by
    rw [stagesOf_append]
    rcases List.mem_append.1 hm with hm | hm
    · have hname : r.name ≠ m.name := fun hname => hnew (hname ▸ List.mem_map_of_mem hm)
      rw [if_neg hname]
      exact h.stages hm
    · rw [List.mem_singleton.1 hm, if_pos rfl,
        stagesOf_eq_empty fun hseen => hnew ((h.exact _).2 hseen), StageSet.empty_union]
  agree {m x} hm hx hname := by
    rcases List.mem_append.1 hm with hm | hm
    · rcases List.mem_append.1 hx with hx | hx
      · exact h.agree hm hx hname
      · rw [List.mem_singleton.1 hx] at hname
        exact absurd (hname ▸ List.mem_map_of_mem hm) hnew
    · rw [List.mem_singleton.1 hm] at hname ⊢
      rcases List.mem_append.1 hx with hx | hx
      · exact absurd ((h.exact _).2 (hname ▸ List.mem_map_of_mem hx)) hnew
      · rw [List.mem_singleton.1 hx]
        exact ⟨rfl, rfl⟩

/-- A declaration of a name that was seen adds its stages to those seen with it. -/
theorem absorb (h : Gathers seen merged) (hold : r.name ∈ merged.map (·.name))
    (hagree : ∀ m ∈ merged, m.name = r.name →
      m.resourceType = r.resourceType ∧ m.arraySize = r.arraySize) :
    Gathers (seen ++ [r]) (merged.map (Synthesis.absorb r)) where
  nodup := by
    rw [map_name_absorb]
    exact h.nodup
  exact name := by
    rw [map_name_absorb, h.exact, List.map_append, List.mem_append]
    refine (or_iff_left_of_imp fun hname => ?_).symm
    rw [List.map_singleton, List.mem_singleton] at hname
    rw [hname]
    exact (h.exact _).1 hold
  stages {m} hm := by
    obtain ⟨n, hn, rfl⟩ := List.mem_map.1 hm
    rw [stagesOf_append, name_absorb, ← h.stages hn, Synthesis.absorb]
    by_cases hname : n.name = r.name
    · rw [if_pos hname, if_pos hname.symm]
    · rw [if_neg hname, if_neg (Ne.symm hname)]
  agree {m x} hm hx hname := by
    obtain ⟨n, hn, rfl⟩ := List.mem_map.1 hm
    rw [name_absorb] at hname
    rw [resourceType_absorb, arraySize_absorb]
    rcases List.mem_append.1 hx with hx | hx
    · exact h.agree hn hx hname
    · rw [List.mem_singleton.1 hx] at hname ⊢
      obtain ⟨htype, hsize⟩ := hagree n hn hname.symm
      exact ⟨htype.symm, hsize.symm⟩

theorem merge {stage : ShaderStage} (h : Gathers seen merged)
    (hnext : merge stage merged r = .ok next) : Gathers (seen ++ [r]) next := by
  rcases merge_cases h.nodup hnext with ⟨hnew, rfl⟩ | ⟨hold, hagree, rfl⟩
  · exact h.append hnew
  · exact h.absorb hold hagree

/-- Declarations that were merged agree. -/
theorem agree_seen (h : Gathers seen merged) : Agree seen := by
  intro x hx y hy hname
  obtain ⟨m, hm, hmx⟩ := List.mem_map.1 ((h.exact x.name).2 (List.mem_map_of_mem hx))
  obtain ⟨htype, hsize⟩ := h.agree hm hx hmx.symm
  obtain ⟨htype', hsize'⟩ := h.agree hm hy (hname.symm.trans hmx.symm)
  exact ⟨htype.trans htype'.symm, hsize.trans hsize'.symm⟩

end Gathers

/-- Merging shader by shader is merging all of their resources, each for the stage of its shader. -/
theorem mergeAll_eq (reflections : List Reflection) :
    mergeAll reflections = (reflections.flatMap fun r => r.resources.map (r.stage, ·)).foldlM
      (fun merged x => merge x.1 merged x.2) [] := by
  have hfrom : ∀ merged : Merged,
      reflections.foldlM (fun merged r => r.resources.foldlM (merge r.stage) merged) merged =
        (reflections.flatMap fun r => r.resources.map (r.stage, ·)).foldlM
          (fun merged x => merge x.1 merged x.2) merged := by
    induction reflections with
    | nil =>
      intro merged
      rfl
    | cons first rest ih =>
      intro merged
      rw [List.foldlM_cons, List.flatMap_cons, List.foldlM_append, List.foldlM_map]
      simp only [ih]
  exact hfrom []

theorem map_snd_flatMap (reflections : List Reflection) :
    (reflections.flatMap fun r => r.resources.map (r.stage, ·)).map Prod.snd =
      reflections.flatMap (·.resources) := by
  simp [List.map_flatMap, Function.comp_def]

/-- What was merged of some shaders gathers all of their resources. -/
theorem gathers_mergeAll {reflections : List Reflection} {merged : Merged}
    (h : mergeAll reflections = .ok merged) :
    Gathers (reflections.flatMap (·.resources)) merged := by
  rw [mergeAll_eq] at h
  rw [← map_snd_flatMap]
  refine foldlM_invariant (fun seen merged => Gathers (seen.map Prod.snd) merged) ?_ .nil h
  intro seen x merged next hmerged hnext
  rw [List.map_append]
  exact hmerged.merge hnext

/-- Declarations that agree with each other and with those already seen are all merged. -/
theorem exists_mergeFrom {seen : List ReflectedResource} {merged : Merged}
    (h : Gathers seen merged) {rest : List (ShaderStage × ReflectedResource)}
    (hagree : Agree (seen ++ rest.map Prod.snd)) :
    ∃ result, rest.foldlM (fun merged x => merge x.1 merged x.2) merged = .ok result := by
  induction rest generalizing seen merged with
  | nil => exact ⟨merged, rfl⟩
  | cons x rest ih =>
    have hfits : ∀ m ∈ merged, m.name = x.2.name →
        m.resourceType = x.2.resourceType ∧ m.arraySize = x.2.arraySize := by
      intro m hm hname
      -- a declaration that was seen under the name agrees with both
      obtain ⟨y, hy, hsame⟩ := List.mem_map.1 ((h.exact m.name).1 (List.mem_map_of_mem hm))
      obtain ⟨htype, hsize⟩ := h.agree hm hy hsame
      obtain ⟨htype', hsize'⟩ := hagree y (List.mem_append_left _ hy) x.2
        (List.mem_append_right _ List.mem_cons_self) (hsame.trans hname)
      exact ⟨htype.symm.trans htype', hsize.symm.trans hsize'⟩
    obtain ⟨next, hnext⟩ : ∃ next, merge x.1 merged x.2 = .ok next := exists_merge hfits
    rw [List.map_cons, List.append_cons] at hagree
    obtain ⟨result, hresult⟩ := ih (h.merge hnext) hagree
    exact ⟨result, bind_eq_ok_iff.2 ⟨next, hnext, hresult⟩⟩

/-- Merging succeeds where no declarations disagree. -/
theorem exists_mergeAll {reflections : List Reflection}
    (h : Agree (reflections.flatMap (·.resources))) :
    ∃ merged, mergeAll reflections = .ok merged := by
  rw [mergeAll_eq]
  apply exists_mergeFrom Gathers.nil
  rw [List.nil_append, map_snd_flatMap]
  exact h

end Synthesis

/-! ## The order of resources -/

namespace Resource

/-- A resource stands before another one: by variable type, then by the bytes of the name. -/
def Precedes (a b : Resource) : Prop :=
  a.varType.ordinal < b.varType.ordinal ∨
    a.varType = b.varType ∧ Key.before a.name b.name = true

theorem ordinal_injective {s t : VariableType} (h : s.ordinal = t.ordinal) : s = t := by
  cases s <;> cases t <;> first | rfl | cases h

theorem le_iff {a b : Resource} : Synthesis.le a b = true ↔
    a.varType.ordinal < b.varType.ordinal ∨ a.varType.ordinal = b.varType.ordinal ∧
      Bytes.le (Bytes.ofText a.name) (Bytes.ofText b.name) = true := by
  unfold Synthesis.le
  by_cases htype : a.varType = b.varType
  · simp [htype]
  · have hordinal : a.varType.ordinal ≠ b.varType.ordinal :=
      fun h => htype (ordinal_injective h)
    simp [htype, hordinal]

theorem le_total (a b : Resource) : (Synthesis.le a b || Synthesis.le b a) = true := by
  rw [Bool.or_eq_true, le_iff, le_iff]
  rcases Nat.lt_trichotomy a.varType.ordinal b.varType.ordinal with hlt | heq | hlt
  · exact .inl (.inl hlt)
  · rcases Bytes.le_total (Bytes.ofText a.name) (Bytes.ofText b.name) with hname | hname
    · exact .inl (.inr ⟨heq, hname⟩)
    · exact .inr (.inr ⟨heq.symm, hname⟩)
  · exact .inr (.inl hlt)

theorem le_trans (a b c : Resource) (hab : Synthesis.le a b = true)
    (hbc : Synthesis.le b c = true) : Synthesis.le a c = true := by
  rw [le_iff] at hab hbc ⊢
  rcases hab with hlt | ⟨heq, hname⟩
  · rcases hbc with hlt' | ⟨heq', -⟩
    · exact .inl (Nat.lt_trans hlt hlt')
    · exact .inl (heq' ▸ hlt)
  · rw [heq]
    exact hbc.imp_right fun ⟨heq', hname'⟩ => ⟨heq', Bytes.le_trans hname hname'⟩

/-- Resources of different names that stand in order stand strictly in order. -/
theorem precedes_of_le {a b : Resource} (h : Synthesis.le a b = true) (hne : a.name ≠ b.name) :
    a.Precedes b := by
  rcases le_iff.1 h with hlt | ⟨heq, hname⟩
  · exact .inl hlt
  · refine .inr ⟨ordinal_injective heq, ?_⟩
    rcases Key.total a.name b.name with hbefore | hsame | hafter
    · exact hbefore
    · exact absurd hsame hne
    · simp [Key.before, hname] at hafter

theorem Precedes.asymm {a b : Resource} (hab : a.Precedes b) (hba : b.Precedes a) : False := by
  rcases hab with hlt | ⟨heq, hbefore⟩
  · rcases hba with hlt' | ⟨heq', -⟩
    · exact Nat.lt_asymm hlt hlt'
    · rw [heq'] at hlt
      exact Nat.lt_irrefl _ hlt
  · rcases hba with hlt' | ⟨-, hbefore'⟩
    · rw [heq] at hlt'
      exact Nat.lt_irrefl _ hlt'
    · have hsame := Key.trans hbefore hbefore'
      rw [Key.irrefl] at hsame
      cases hsame

end Resource

/-! ## The signature -/

namespace Signature

open Synthesis

variable {pipeline : String} {reflections : List Reflection} {declared : List ReflectedResource}
  {layout : ResourceLayout} {signature : Signature}

/-- What all declarations of the name of one become together: a resource with all of their stages,
and with the variable type that the layout has for these. -/
def united (layout : ResourceLayout) (declared : List ReflectedResource)
    (x : ReflectedResource) : Resource :=
  resource layout { x with stages := stagesOf declared x.name }

/-- A signature unites declarations: it has one resource for every name that is declared, with the
stages of all declarations of that name, in strict order. -/
structure Unites (signature : Signature) (pipeline : String)
    (declared : List ReflectedResource) (layout : ResourceLayout) : Prop where
  name : signature.name = defaultName pipeline
  bindingIndex : signature.bindingIndex = 0
  immutableSamplers : signature.immutableSamplers = layout.immutableSamplers
  exact (r : Resource) : r ∈ signature.resources ↔ ∃ x ∈ declared, r = united layout declared x
  nodup : (signature.resources.map (·.name)).Nodup
  sorted : signature.resources.Pairwise Resource.Precedes

/-- The resources of gathered declarations are those that they are united to. -/
theorem mem_map_resource {merged : Merged} (h : Gathers declared merged) (r : Resource) :
    r ∈ merged.map (resource layout) ↔ ∃ x ∈ declared, r = united layout declared x := by
  -- of a merged declaration the resource keeps only what the declarations of its name agree on
  have hunited {m x : ReflectedResource} (hm : m ∈ merged) (hx : x ∈ declared)
      (hname : x.name = m.name) : resource layout m = united layout declared x := by
    obtain ⟨htype, hsize⟩ := h.agree hm hx hname
    simp only [united, resource, h.stages hm, hname, htype, hsize]
  constructor
  · intro hr
    obtain ⟨m, hm, rfl⟩ := List.mem_map.1 hr
    obtain ⟨x, hx, hname⟩ := List.mem_map.1 ((h.exact m.name).1 (List.mem_map_of_mem hm))
    exact ⟨x, hx, hunited hm hx hname⟩
  · rintro ⟨x, hx, rfl⟩
    obtain ⟨m, hm, hname⟩ := List.mem_map.1 ((h.exact x.name).2 (List.mem_map_of_mem hx))
    exact List.mem_map.2 ⟨m, hm, hunited hm hx hname.symm⟩

theorem unites_synthesize (h : synthesize pipeline reflections layout = .ok signature) :
    signature.Unites pipeline (reflections.flatMap (·.resources)) layout := by
  unfold synthesize at h
  split at h
  · cases h
  · rename_i merged hmerged
    cases h
    have hgathers := gathers_mergeAll hmerged
    have hperm := List.mergeSort_perm (merged.map (resource layout)) Synthesis.le
    have hnodup : (((merged.map (resource layout)).mergeSort Synthesis.le).map
        (·.name)).Nodup := by
      rw [(hperm.map _).nodup_iff, List.map_map]
      exact hgathers.nodup
    refine ⟨rfl, rfl, rfl, ?_, hnodup, ?_⟩
    · intro r
      rw [hperm.mem_iff]
      exact mem_map_resource hgathers r
    · have hsorted := List.pairwise_mergeSort Resource.le_trans Resource.le_total
        (merged.map (resource layout))
      apply (hsorted.and (List.pairwise_map.1 hnodup)).imp
      intro a b ⟨hle, hne⟩
      exact Resource.precedes_of_le hle hne

/-- There is one signature that unites declarations, in whatever order they are given. -/
theorem Unites.eq (h : signature.Unites pipeline declared layout) {other : Signature}
    {reordered : List ReflectedResource} (hother : other.Unites pipeline reordered layout)
    (hperm : reordered.Perm declared) : other = signature := by
  have hunited (x : ReflectedResource) :
      united layout reordered x = united layout declared x := by
    rw [united, united, stagesOf_perm hperm]
  have hmem (r : Resource) : r ∈ other.resources ↔ r ∈ signature.resources := by
    rw [h.exact, hother.exact]
    simp only [hunited, hperm.mem_iff]
  have hresources : other.resources = signature.resources := by
    have hsame : other.resources.Perm signature.resources :=
      (List.perm_ext_iff_of_nodup (List.Nodup.of_map _ hother.nodup)
        (List.Nodup.of_map _ h.nodup)).2 hmem
    refine hsame.eq_of_pairwise ?_ hother.sorted h.sorted
    intro a b _ _ hab hba
    exact absurd hba hab.asymm
  calc other
      = ⟨other.name, other.bindingIndex, other.resources, other.immutableSamplers⟩ := rfl
    _ = ⟨signature.name, signature.bindingIndex, signature.resources,
          signature.immutableSamplers⟩ := by
        rw [hother.name, hother.bindingIndex, hresources, hother.immutableSamplers, h.name,
          h.bindingIndex, h.immutableSamplers]

/-- A signature can be made from declarations that agree. -/
theorem exists_synthesize_iff :
    (∃ signature, synthesize pipeline reflections layout = .ok signature) ↔
      Agree (reflections.flatMap (·.resources)) := by
  constructor
  · rintro ⟨signature, h⟩
    unfold synthesize at h
    split at h
    · cases h
    · rename_i merged hmerged
      exact (gathers_mergeAll hmerged).agree_seen
  · intro h
    obtain ⟨merged, hmerged⟩ := exists_mergeAll h
    rw [synthesize, hmerged]
    exact ⟨_, rfl⟩

/-- A signature is made from some shaders exactly if all their resources of one name agree on type
and array size. It then has one resource for every name that they declare, with the stages of all
its declarations, in the strict order of variable types and names. Shaders that declare the same
resources, in whatever order the shaders and their resources are given, have the same signature or
none alike. -/
theorem synthesize_unites (pipeline : String) (reflections : List Reflection)
    (layout : ResourceLayout) :
    let declared := reflections.flatMap (·.resources)
    ((∃ signature, synthesize pipeline reflections layout = .ok signature) ↔ Agree declared) ∧
      (∀ signature, synthesize pipeline reflections layout = .ok signature →
        signature.Unites pipeline declared layout) ∧
      ∀ reordered : List Reflection, (reordered.flatMap (·.resources)).Perm declared →
        ∀ signature, synthesize pipeline reordered layout = .ok signature ↔
          synthesize pipeline reflections layout = .ok signature := by
  intro declared
  refine ⟨exists_synthesize_iff, fun _ => unites_synthesize, ?_⟩
  -- it is enough to go from one order to the other, for this may be done in either direction
  have hmade : ∀ {before after : List Reflection},
      (before.flatMap (·.resources)).Perm (after.flatMap (·.resources)) →
        ∀ signature, synthesize pipeline before layout = .ok signature →
          synthesize pipeline after layout = .ok signature := by
    intro before after hperm signature h
    have hagree : Agree (after.flatMap (·.resources)) := by
      intro x hx y hy
      exact exists_synthesize_iff.1 ⟨signature, h⟩ x (hperm.mem_iff.2 hx) y (hperm.mem_iff.2 hy)
    obtain ⟨other, hother⟩ : ∃ other, synthesize pipeline after layout = .ok other :=
      exists_synthesize_iff.2 hagree
    rw [hother, (unites_synthesize h).eq (unites_synthesize hother) hperm.symm]
  intro reordered hperm signature
  exact ⟨hmade hperm signature, hmade hperm.symm signature⟩

/-- A vertex and a pixel shader that share constants. -/
def sharing : List Reflection :=
  [(.vertex, [("g_Constants", .constantBuffer), ("g_Zeta", .textureSrv)]),
    (.pixel, [("g_Constants", .constantBuffer), ("g_Alpha", .textureSrv)])].map
    fun (stage, resources) => {
      stage := stage
      entryPoint := "main"
      resources := resources.map fun (name, type) => ⟨name, type, 0, 0, 1, .singleton stage⟩
      vertexInputs := [] }

/-- A layout with a static texture for vertex shaders. -/
def sharingLayout : ResourceLayout where
  defaultType := .mutable
  overrides := [⟨.singleton .vertex, "g_Zeta", .static⟩]

/-- The signature of the two shaders. -/
def sharedSignature : Signature where
  name := "Default Signature of PSO 'P'"
  bindingIndex := 0
  resources := [
    { name := "g_Zeta", stages := .singleton .vertex, arraySize := 1
      resourceType := .textureSrv, varType := .static },
    { name := "g_Alpha", stages := .singleton .pixel, arraySize := 1
      resourceType := .textureSrv, varType := .mutable },
    { name := "g_Constants", stages := .ofList [.vertex, .pixel], arraySize := 1
      resourceType := .constantBuffer, varType := .mutable }]
  immutableSamplers := []

theorem sharedSignature_unites :
    sharedSignature.Unites "P" (sharing.flatMap (·.resources)) sharingLayout where
  name := by decide
  bindingIndex := rfl
  immutableSamplers := rfl
  exact := by
    have hdeclared : ∀ r ∈ sharedSignature.resources, ∃ x ∈ sharing.flatMap (·.resources),
        r = united sharingLayout (sharing.flatMap (·.resources)) x := by decide
    have hunited : ∀ x ∈ sharing.flatMap (·.resources),
        united sharingLayout (sharing.flatMap (·.resources)) x ∈ sharedSignature.resources := by
      decide
    intro r
    constructor
    · exact hdeclared r
    · rintro ⟨x, hx, rfl⟩
      exact hunited x hx
  nodup := by decide
  sorted := by
    unfold Resource.Precedes
    decide

/-- The two shaders have their signature from the last of their resources to the first as well. -/
theorem synthesize_sharing :
    let reversed := sharing.reverse.map fun r => { r with resources := r.resources.reverse }
    (reversed.flatMap (·.resources)).Perm (sharing.flatMap (·.resources)) ∧
      synthesize "P" sharing sharingLayout = .ok sharedSignature ∧
      synthesize "P" reversed sharingLayout = .ok sharedSignature := by
  intro reversed
  have hperm : (reversed.flatMap (·.resources)).Perm (sharing.flatMap (·.resources)) := by decide
  have hagree : Synthesis.Agree (sharing.flatMap (·.resources)) := by
    unfold Synthesis.Agree
    decide
  obtain ⟨hiff, hunites, hreordered⟩ := synthesize_unites "P" sharing sharingLayout
  obtain ⟨signature, h⟩ := hiff.2 hagree
  have hshared : synthesize "P" sharing sharingLayout = .ok sharedSignature := by
    rw [h, (hunites signature h).eq sharedSignature_unites (.refl _)]
  exact ⟨hperm, hshared, (hreordered reversed hperm sharedSignature).2 hshared⟩

end Signature

end PipelineArchive
