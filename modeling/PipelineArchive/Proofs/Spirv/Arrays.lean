import Mathlib.Data.List.Induction
import Mathlib.Data.List.Perm.Subperm
import Mathlib.Logic.Relation
import PipelineArchive.Spirv.Interface

/-!
# Arrays that contain themselves

The type below an array is found by a loop that goes on from each array to its elements, and
nothing keeps a module from declaring an array of itself. `Strips` is that loop without a bound,
`Reflects` and `Remaps` are what is computed with it. The loop ends on exactly the types below which
no array contains itself (`IsFlat`): the arrays that it passes are then different declarations, so
there are no more rounds than declarations of types, and the bound of `Module.unwrapArrays` is not
met (`strips_iff`). It ends everywhere in a module that declares elements before their arrays
(`isFlat_of_elementsFirst`), but there are modules in which it does not.
-/

set_option autoImplicit false

namespace PipelineArchive.Spirv

open Relation

/-- The element type of a type that is an array. -/
def TypeDecl.element? : TypeDecl → Option UInt32
  | .array element _ | .runtimeArray element => some element
  | _ => none

namespace Module

variable {m : Module} {id element base : UInt32} {s t result : UInt32 × UInt32}

/-! ## The loop -/

/-- One round of the loop that strips arrays: from an array to its elements, with their count. -/
def round? (m : Module) (s : UInt32 × UInt32) : Option (UInt32 × UInt32) :=
  match m.type? s.1 with
  | some (.array element length) =>
      some (element, saturatingMul s.2 ((m.constant? length).getD 1))
  | some (.runtimeArray element) => some (element, 0)
  | _ => none

/-- The loop that strips arrays, from a type and the count so far to where it stops. -/
inductive Strips (m : Module) : UInt32 × UInt32 → UInt32 × UInt32 → Prop
  | stop {s : UInt32 × UInt32} : m.round? s = none → Strips m s s
  | round {s t result : UInt32 × UInt32} : m.round? s = some t → Strips m t result →
      Strips m s result

theorem map_round? (m : Module) (s : UInt32 × UInt32) :
    (m.round? s).map Prod.fst = m.element? s.1 := by
  rw [round?, element?]
  cases m.type? s.1 with
  | none => rfl
  | some type => cases type <;> rfl

theorem round?_eq_none_iff : m.round? s = none ↔ m.element? s.1 = none := by
  rw [← map_round?, Option.map_eq_none_iff]

theorem unwrapUpTo_succ (m : Module) (depth : Nat) (s : UInt32 × UInt32) :
    m.unwrapUpTo (depth + 1) s.1 s.2 =
      ((m.round? s).map fun t => m.unwrapUpTo depth t.1 t.2).getD s := by
  rw [unwrapUpTo, round?]
  cases m.type? s.1 with
  | none => rfl
  | some type => cases type <;> rfl

theorem unwrapUpTo_stop (h : m.round? s = none) (depth : Nat) : m.unwrapUpTo depth s.1 s.2 = s := by
  cases depth with
  | zero => rfl
  | succ depth =>
    rw [unwrapUpTo_succ, h]
    rfl

/-- The loop has one result. -/
theorem Strips.unique {other : UInt32 × UInt32} (h : m.Strips s result)
    (hother : m.Strips s other) : result = other := by
  induction h with
  | stop hstop =>
    cases hother with
    | stop _ => rfl
    | round hround _ => cases hstop.symm.trans hround
  | round hround _ ih =>
    cases hother with
    | stop hstop => cases hstop.symm.trans hround
    | round hother hrest =>
      cases hround.symm.trans hother
      exact ih hrest

/-! ## Where it ends -/

/-- The first type is an array of the second. -/
def ArrayOf (m : Module) (array element : UInt32) : Prop := m.element? array = some element

/-- No array that is met from a type on contains itself. -/
def IsFlat (m : Module) (id : UInt32) : Prop :=
  ∀ array, ReflTransGen m.ArrayOf id array → ¬TransGen m.ArrayOf array array

theorem arrayOf_of_round? (h : m.round? s = some t) : m.ArrayOf s.1 t.1 := by
  rw [ArrayOf, ← map_round?, h]
  rfl

theorem IsFlat.of_arrayOf (h : m.IsFlat id) (helement : m.ArrayOf id element) :
    m.IsFlat element :=
  fun array hreach => h array (.head helement hreach)

/-- Where the loop ends, it has followed the elements to a type that is no array. -/
theorem Strips.reaches (h : m.Strips s result) :
    ReflTransGen m.ArrayOf s.1 result.1 ∧ m.element? result.1 = none := by
  induction h with
  | stop hstop => exact ⟨.refl, round?_eq_none_iff.1 hstop⟩
  | round hround _ ih => exact ⟨.head (arrayOf_of_round? hround) ih.1, ih.2⟩

/-- A type from which the elements end below no array meets no array that contains itself. -/
theorem isFlat_of_reaches (hreach : ReflTransGen m.ArrayOf id base)
    (hbase : m.element? base = none) : m.IsFlat id := by
  induction hreach using ReflTransGen.head_induction_on with
  | refl =>
    intro array hreach hself
    obtain rfl | ⟨next, hnext, -⟩ := ReflTransGen.cases_head hreach
    · obtain ⟨next, hnext, -⟩ := TransGen.head'_iff.1 hself
      cases hbase.symm.trans hnext
    · cases hbase.symm.trans hnext
  | head helement _ ih =>
    rename_i id element
    intro array hreach hself
    obtain rfl | ⟨next, hnext, hreach⟩ := ReflTransGen.cases_head hreach
    · -- an array that contains itself is met again from its elements
      obtain ⟨next, hnext, hreach⟩ := TransGen.head'_iff.1 hself
      cases helement.symm.trans hnext
      exact ih _ hreach hself
    · cases helement.symm.trans hnext
      exact ih _ hreach hself

/-! ## How many rounds it takes -/

/-- The declarations of types, in their order. -/
def typeDeclarations (m : Module) : List (UInt32 × TypeDecl) :=
  m.instructions.filterMap Instruction.type?

theorem lookupLast?_eq {α : Type} (id : UInt32) (entries : List (UInt32 × α)) :
    lookupLast? id entries = entries.reverse.lookup id := by
  induction entries using List.reverseRecOn with
  | nil => rfl
  | append_singleton entries last ih =>
    obtain ⟨key, value⟩ := last
    rw [lookupLast?, List.foldl_append, ← lookupLast?, ih, List.reverse_append]
    by_cases hkey : key = id
    · subst hkey
      simp
    · have hbeq : (id == key) = false := beq_false_of_ne (Ne.symm hkey)
      simp [hkey, List.lookup_cons, hbeq]

theorem element?_eq (m : Module) (id : UInt32) :
    m.element? id = (m.type? id).bind TypeDecl.element? := by
  rw [element?]
  cases m.type? id with
  | none => rfl
  | some type => cases type <;> rfl

/-- An array is the type that is declared last for its identifier. -/
theorem ArrayOf.declared (h : m.ArrayOf id element) :
    ∃ before type after, m.typeDeclarations = before ++ (id, type) :: after ∧
      id ∉ after.map Prod.fst ∧ type.element? = some element := by
  rw [ArrayOf, element?_eq, Option.bind_eq_some_iff] at h
  obtain ⟨type, htype, helement⟩ := h
  rw [type?, lookupLast?_eq, List.lookup_eq_some_iff] at htype
  obtain ⟨after, before, hreverse, hafter⟩ := htype
  refine ⟨before.reverse, type, after.reverse, ?_, ?_, helement⟩
  · rw [typeDeclarations, ← List.reverse_reverse (List.filterMap _ _), hreverse]
    simp
  · intro hmem
    obtain ⟨pair, hpair, rfl⟩ := List.mem_map.1 hmem
    have hne := hafter pair (List.mem_reverse.1 hpair)
    simp at hne

/-- The arrays that were passed on the way to a type, as long as none has come twice. -/
structure Passed (m : Module) (passed : List UInt32) (id : UInt32) : Prop where
  nodup : passed.Nodup
  declared : passed ⊆ m.typeDeclarations.map Prod.fst
  reach : ∀ array ∈ passed, TransGen m.ArrayOf array id

theorem passed_nil (m : Module) (id : UInt32) : m.Passed [] id :=
  ⟨List.nodup_nil, List.nil_subset _, List.forall_mem_nil _⟩

theorem Passed.length_le {passed : List UInt32} (h : m.Passed passed id) :
    passed.length ≤ m.typeDeclarations.length := by
  rw [← List.length_map Prod.fst]
  exact (List.subperm_of_subset h.nodup h.declared).length_le

/-- An array that was passed before would contain itself. -/
theorem Passed.cons {passed : List UInt32} (h : m.Passed passed id) (hflat : m.IsFlat id)
    (helement : m.ArrayOf id element) : m.Passed (id :: passed) element where
  nodup := List.nodup_cons.2 ⟨fun hmem => hflat id .refl (h.reach id hmem), h.nodup⟩
  declared := by
    obtain ⟨before, type, after, hdeclarations, -, -⟩ := helement.declared
    refine List.cons_subset.2 ⟨?_, h.declared⟩
    rw [hdeclarations]
    exact List.mem_map.2 ⟨_, List.mem_append_right before List.mem_cons_self, rfl⟩
  reach := List.forall_mem_cons.2
    ⟨.single helement, fun array harray => (h.reach array harray).tail helement⟩

/-- From a type below which no array contains itself the loop ends, within as many rounds as there
are declarations of types besides those of the arrays that it has passed. -/
theorem strips_unwrapUpTo {depth : Nat} {passed : List UInt32} (hpassed : m.Passed passed s.1)
    (hflat : m.IsFlat s.1) (hdepth : m.typeDeclarations.length ≤ passed.length + depth) :
    m.Strips s (m.unwrapUpTo depth s.1 s.2) := by
  induction depth generalizing s passed with
  | zero =>
    cases hround : m.round? s with
    | none =>
      rw [unwrapUpTo_stop hround]
      exact .stop hround
    | some t =>
      have hlength := (hpassed.cons hflat (arrayOf_of_round? hround)).length_le
      rw [List.length_cons] at hlength
      omega
  | succ depth ih =>
    rw [unwrapUpTo_succ]
    cases hround : m.round? s with
    | none => exact .stop hround
    | some t =>
      have helement := arrayOf_of_round? hround
      refine .round hround (ih (hpassed.cons hflat helement) (hflat.of_arrayOf helement) ?_)
      rw [List.length_cons]
      omega

/-- The loop ends on the types below which no array contains itself, and its result is the one
within the bound. -/
theorem strips_iff {count : UInt32} :
    m.Strips (id, count) result ↔
      m.IsFlat id ∧ result = m.unwrapUpTo m.typeDeclarations.length id count := by
  constructor
  · intro h
    have hflat := isFlat_of_reaches h.reaches.1 h.reaches.2
    exact ⟨hflat, h.unique (strips_unwrapUpTo (passed_nil m id) hflat (by simp))⟩
  · rintro ⟨hflat, rfl⟩
    exact strips_unwrapUpTo (passed_nil m id) hflat (by simp)

/-! ## Elements before arrays -/

/-- Elements are declared before their arrays: no declaration of an array, nor one after it, is for
its element type. -/
def ElementsFirst (m : Module) : Prop :=
  ∀ before array type after element, m.typeDeclarations = before ++ (array, type) :: after →
    type.element? = some element → element ∉ array :: after.map Prod.fst

/-- How many declarations of types come after the last one for an identifier. -/
def rank (m : Module) (id : UInt32) : Nat := (m.typeDeclarations.map Prod.fst).reverse.idxOf id

theorem ElementsFirst.rank_lt (h : m.ElementsFirst) {array element : UInt32}
    (helement : m.ArrayOf array element) : m.rank array < m.rank element := by
  obtain ⟨before, type, after, hdeclarations, hlast, htype⟩ := helement.declared
  have hnot := h before array type after element hdeclarations htype
  rw [List.mem_cons, not_or] at hnot
  have hreverse : (m.typeDeclarations.map Prod.fst).reverse =
      ((after.map Prod.fst).reverse ++ [array]) ++ (before.map Prod.fst).reverse := by
    rw [hdeclarations]
    simp
  have harray : array ∉ (after.map Prod.fst).reverse := fun h => hlast (List.mem_reverse.1 h)
  have helement : element ∉ (after.map Prod.fst).reverse ++ [array] := by
    rw [List.mem_append, List.mem_reverse, List.mem_singleton]
    exact fun h => h.elim hnot.2 hnot.1
  rw [rank, rank, hreverse, List.idxOf_append_of_notMem helement, List.append_assoc,
    List.idxOf_append_of_notMem harray, List.singleton_append, List.idxOf_cons_self,
    List.length_append, List.length_singleton]
  omega

theorem isFlat_of_elementsFirst (h : m.ElementsFirst) (id : UInt32) : m.IsFlat id := by
  intro array _ hself
  have hrank : ∀ {a b}, TransGen m.ArrayOf a b → m.rank a < m.rank b := by
    intro a b hpath
    induction hpath with
    | single helement => exact h.rank_lt helement
    | tail _ helement ih => exact Nat.lt_trans ih (h.rank_lt helement)
  exact Nat.lt_irrefl _ (hrank hself)

/-! ## What is computed with the loop -/

/-- The resource that a variable is, given the type below its pointer and arrays and the count of
its elements. -/
def resourceBelow? (m : Module) (stage : ShaderStage) (v : Variable) (below : UInt32 × UInt32) :
    Option ReflectedResource :=
  (m.resourceType? v below.1).map fun resourceType => {
    name := m.resourceName v.id below.1
    resourceType
    set := (m.decorationValue? v.id Decoration.descriptorSet).getD 0
    binding := (m.decorationValue? v.id Decoration.binding).getD 0
    arraySize := below.2
    stages := .singleton stage }

/-- What a variable adds to the resources, with the loop run from the type below its pointer. -/
inductive Classifies (m : Module) (stage : ShaderStage) (v : Variable) :
    Option (UInt32 × ReflectedResource) → Prop
  | pointer {pointee : UInt32} {below : UInt32 × UInt32} :
      m.type? v.pointerType = some (.pointer pointee) → m.Strips (pointee, 1) below →
      Classifies m stage v ((m.resourceBelow? stage v below).map (v.id, ·))
  | other : (∀ pointee, m.type? v.pointerType ≠ some (.pointer pointee)) →
      Classifies m stage v none

/-- The resources are listed by classifying every variable. -/
def Lists (m : Module) (stage : ShaderStage) (listed : List (UInt32 × ReflectedResource)) : Prop :=
  ∃ found, List.Forall₂ (m.Classifies stage) m.declaredVariables found ∧
    listed = found.reduceOption.mergeSort fun a b => a.2.le b.2

/-- A reflection that is computed with the loop. -/
def Reflects (m : Module) (stage : ShaderStage) (entryPoint : String) (result : Reflection) :
    Prop :=
  ∃ listed, m.Lists stage listed ∧
    result = { m.reflect stage entryPoint with resources := listed.map (·.2) }

/-- A remapping of the resources that are listed with the loop. -/
def Remaps (m : Module) (stage : ShaderStage)
    (assign : ReflectedResource → Option (UInt32 × UInt32)) (result : Remapping) : Prop :=
  ∃ listed, m.Lists stage listed ∧ result = remapBindingsOf assign listed m

/-- No array below the pointer type of a variable contains itself. -/
def IsFlatBelow (m : Module) (v : Variable) : Prop :=
  ∀ pointee, m.type? v.pointerType = some (.pointer pointee) → m.IsFlat pointee

variable {stage : ShaderStage} {v : Variable}

theorem resource?_of_pointer {pointee : UInt32}
    (h : m.type? v.pointerType = some (.pointer pointee)) :
    m.resource? stage v = m.resourceBelow? stage v (m.unwrapArrays pointee) := by
  rw [resource?, h]
  rfl

theorem resource?_of_other (h : ∀ pointee, m.type? v.pointerType ≠ some (.pointer pointee)) :
    m.resource? stage v = none := by
  rw [resource?]
  split
  · rename_i htype
    exact (h _ htype).elim
  · rfl

theorem classifies_iff {found : Option (UInt32 × ReflectedResource)} :
    m.Classifies stage v found ↔
      m.IsFlatBelow v ∧ (m.resource? stage v).map (v.id, ·) = found := by
  constructor
  · intro h
    cases h with
    | @pointer pointee below htype hstrips =>
      obtain ⟨hflat, rfl⟩ := strips_iff.1 hstrips
      rw [resource?_of_pointer htype]
      refine ⟨fun other hother => ?_, rfl⟩
      cases htype.symm.trans hother
      exact hflat
    | other hother =>
      rw [resource?_of_other hother]
      exact ⟨fun pointee htype => (hother pointee htype).elim, rfl⟩
  · rintro ⟨hflat, rfl⟩
    by_cases hpointer : ∃ pointee, m.type? v.pointerType = some (.pointer pointee)
    · obtain ⟨pointee, htype⟩ := hpointer
      rw [resource?_of_pointer htype]
      exact .pointer htype (strips_iff.2 ⟨hflat pointee htype, rfl⟩)
    · rw [resource?_of_other (not_exists.1 hpointer)]
      exact .other (not_exists.1 hpointer)

theorem lists_iff {listed : List (UInt32 × ReflectedResource)} :
    m.Lists stage listed ↔
      (∀ v ∈ m.declaredVariables, m.IsFlatBelow v) ∧ listed = m.resources stage := by
  have hclassifies : m.Classifies stage = fun v found =>
      m.IsFlatBelow v ∧ (m.resource? stage v).map (v.id, ·) = found :=
    funext fun v => funext fun found => propext classifies_iff
  have hfound (found : List (Option (UInt32 × ReflectedResource))) :
      List.Forall₂ (m.Classifies stage) m.declaredVariables found ↔
        (∀ v ∈ m.declaredVariables, m.IsFlatBelow v) ∧
        m.declaredVariables.map (fun v => (m.resource? stage v).map (v.id, ·)) = found := by
    rw [hclassifies, List.forall₂_and_left, ← List.forall₂_eq_eq_eq, List.forall₂_map_left_iff]
  have hresources : (m.declaredVariables.map fun v =>
      (m.resource? stage v).map (v.id, ·)).reduceOption =
      m.declaredVariables.filterMap fun v => (m.resource? stage v).map (v.id, ·) := by
    show List.filterMap id _ = _
    rw [List.filterMap_map]
    rfl
  simp only [Lists, hfound]
  constructor
  · rintro ⟨_, ⟨hflat, rfl⟩, rfl⟩
    rw [hresources]
    exact ⟨hflat, rfl⟩
  · rintro ⟨hflat, rfl⟩
    refine ⟨_, ⟨hflat, rfl⟩, ?_⟩
    rw [hresources]
    rfl

/-- Following the elements of a type ends exactly if no array that is met contains itself. The loop
then has the result of the bounded one, and it is the same for what is computed with it: reflections
and remappings come to an end exactly if no array below a variable contains itself. Both hold of
every module that declares elements before their arrays. -/
theorem unwrapping_spec (m : Module) :
    (∀ id, (∃ base, ReflTransGen m.ArrayOf id base ∧ m.element? base = none) ↔ m.IsFlat id) ∧
    (∀ id result, m.Strips (id, 1) result ↔ m.IsFlat id ∧ result = m.unwrapArrays id) ∧
    (∀ stage entryPoint result, m.Reflects stage entryPoint result ↔
      (∀ v ∈ m.declaredVariables, m.IsFlatBelow v) ∧ result = m.reflect stage entryPoint) ∧
    (∀ stage assign result, m.Remaps stage assign result ↔
      (∀ v ∈ m.declaredVariables, m.IsFlatBelow v) ∧ result = m.remapBindings stage assign) ∧
    (m.ElementsFirst → ∀ id, m.IsFlat id) := by
  refine ⟨fun id => ⟨?_, ?_⟩, fun id result => strips_iff, ?_, ?_, isFlat_of_elementsFirst⟩
  · rintro ⟨base, hreach, hbase⟩
    exact isFlat_of_reaches hreach hbase
  · intro hflat
    exact ⟨_, (strips_iff.2 ⟨hflat, rfl⟩ : m.Strips (id, 1) _).reaches⟩
  · intro stage entryPoint result
    simp only [Reflects, lists_iff]
    exact ⟨fun ⟨_, ⟨hflat, rfl⟩, hresult⟩ => ⟨hflat, hresult⟩,
      fun ⟨hflat, hresult⟩ => ⟨_, ⟨hflat, rfl⟩, hresult⟩⟩
  · intro stage assign result
    simp only [Remaps, lists_iff]
    exact ⟨fun ⟨_, ⟨hflat, rfl⟩, hresult⟩ => ⟨hflat, hresult⟩,
      fun ⟨hflat, hresult⟩ => ⟨_, ⟨hflat, rfl⟩, hresult⟩⟩

/-- The words of a module that declares an array of itself. -/
def selfArray : List UInt32 := [magic, 0x10300, 0, 3, 0, 0x4001C, 1, 1, 2]

/-- The words of a module with a variable that points to an array of itself. -/
def selfArrayVariable : List UInt32 :=
  selfArray ++ [0x40020, 3, 0, 1, 0x4003B, 3, 4, 0]

theorem not_isFlat_of_self (h : m.element? id = some id) : ¬m.IsFlat id :=
  fun hflat => hflat id .refl (.single h)

/-- An array of itself is accepted, its elements never end, and neither do the reflection and the
remapping of a module with a variable that points to it. -/
theorem endless_selfArray :
    (∃ m, parse selfArray = .ok m ∧
      ¬∃ base, ReflTransGen m.ArrayOf 1 base ∧ m.element? base = none) ∧
    ∃ m, parse selfArrayVariable = .ok m ∧
      (¬∃ result, m.Reflects .pixel "main" result) ∧
      ∀ assign, ¬∃ result, m.Remaps .pixel assign result := by
  refine ⟨⟨⟨selfArray, [⟨5, 28, [1, 1, 2]⟩]⟩, by decide, ?_⟩, ⟨selfArrayVariable,
    [⟨5, 28, [1, 1, 2]⟩, ⟨9, 32, [3, 0, 1]⟩, ⟨13, 59, [3, 4, 0]⟩]⟩, by decide, ?_⟩
  · rintro ⟨base, hreach, hbase⟩
    exact not_isFlat_of_self (by decide) (isFlat_of_reaches hreach hbase)
  · have hlists {listed : List (UInt32 × ReflectedResource)} : ¬Lists ⟨selfArrayVariable,
        [⟨5, 28, [1, 1, 2]⟩, ⟨9, 32, [3, 0, 1]⟩, ⟨13, 59, [3, 4, 0]⟩]⟩ .pixel listed := fun h =>
      not_isFlat_of_self (by decide)
        ((lists_iff.1 h).1 ⟨4, 3, 0⟩ (by decide) 1 (by decide))
    exact ⟨fun ⟨_, _, hlisted, _⟩ => hlists hlisted, fun _ ⟨_, _, hlisted, _⟩ => hlists hlisted⟩

end Module

end PipelineArchive.Spirv
