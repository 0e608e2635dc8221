import PipelineArchive.Proofs.Decoding
import PipelineArchive.Proofs.Spirv.Literals

/-!
# Remapped modules

A remapping writes literals one after another (`Writes`). Where no decoration is written twice,
each has the value it was given, all others keep theirs, and no other word changes
(`Writes.written`). The written words are those of a module that declares the same
(`Written.exists_parse`), so that its resources are those of the old module in the places that they
were assigned (`reflect_remapBindings`).
Arrays that contain themselves make no difference: they are unwrapped in both modules alike.
-/

set_option autoImplicit false

namespace PipelineArchive.Spirv

open Results

namespace Module

variable {m n : Module}

theorem ofBytes_toBytes (m : Module) : ofBytes m.toBytes = parse m.words := by
  rw [ofBytes, toBytes, Encode.length_ofWords, Nat.mul_mod_right, if_neg (by simp),
    Bytes.toWords_ofWords]

theorem ofBytes_eq_ok {bytes : Bytes} (h : ofBytes bytes = .ok m) :
    parse bytes.toWords = .ok m := by
  unfold ofBytes at h
  split at h
  · cases h
  · exact h

/-! ## Writing literals -/

/-- A new literal for the first decoration of a kind that an identifier has. -/
structure Write where
  target : UInt32
  decoration : UInt32
  value : UInt32

/-- What becomes of a module when literals are written in order. -/
inductive Writes : List Write → Module → Module → Prop
  | nil (m : Module) : Writes [] m m
  | cons {w : Write} {rest : List Write} {m n : Module} {p : Nat} :
      m.literal? w.target w.decoration = some p →
      Writes rest { m with words := m.words.set p w.value } n → Writes (w :: rest) m n

theorem Writes.append {ws ws' : List Write} {m n o : Module} (h : Writes ws m n)
    (h' : Writes ws' n o) : Writes (ws ++ ws') m o := by
  induction h with
  | nil => exact h'
  | cons hliteral _ ih => exact .cons hliteral (ih h')

/-- Writes of different decorations. -/
def Write.Apart (v w : Write) : Prop := ¬(v.target = w.target ∧ v.decoration = w.decoration)

/-- What writing literals has done: the instructions are where they were, every decoration that was
written has its value, and all else is kept. -/
structure Written (ws : List Write) (m n : Module) : Prop where
  instructions : n.instructions = m.instructions
  length : n.words.length = m.words.length
  value : ∀ w ∈ ws, n.decorationValue? w.target w.decoration = some w.value
  other : ∀ id decoration, (∀ w ∈ ws, ¬(w.target = id ∧ w.decoration = decoration)) →
    n.decorationValue? id decoration = m.decorationValue? id decoration
  kept : ∀ p, (∀ w ∈ ws, m.literal? w.target w.decoration ≠ some p) → n.words[p]? = m.words[p]?

theorem literal?_set (m : Module) (words : List UInt32) (id decoration : UInt32) :
    ({ m with words := words } : Module).literal? id decoration = m.literal? id decoration := rfl

theorem LiteralsApart.set (h : m.LiteralsApart) (p : Nat) (value : UInt32) :
    ({ m with words := m.words.set p value } : Module).LiteralsApart where
  lt hq := by
    rw [List.length_set]
    exact h.lt hq
  inj := h.inj

/-- A literal that is written changes the value of its decoration only. -/
theorem decorationValue?_set (h : m.LiteralsApart) {w : Write} {p : Nat}
    (hp : m.literal? w.target w.decoration = some p) (id decoration : UInt32) :
    ({ m with words := m.words.set p w.value } : Module).decorationValue? id decoration =
      if w.target = id ∧ w.decoration = decoration then some w.value
      else m.decorationValue? id decoration := by
  rw [decorationValue?_eq, decorationValue?_eq, literal?_set]
  split
  · rename_i hsame
    obtain ⟨rfl, rfl⟩ := hsame
    rw [hp, Option.bind_some, List.getElem?_set_self (h.lt hp)]
  · rename_i hother
    cases hq : m.literal? id decoration with
    | none => rfl
    | some q =>
      have hne : p ≠ q := by
        rintro rfl
        exact hother (h.inj hp hq)
      rw [Option.bind_some, Option.bind_some, List.getElem?_set_ne hne]

theorem Writes.written {ws : List Write} (h : Writes ws m n) (hm : m.LiteralsApart)
    (hapart : ws.Pairwise Write.Apart) : Written ws m n := by
  induction h with
  | nil m => exact ⟨rfl, rfl, by simp, fun _ _ _ => rfl, fun _ _ => rfl⟩
  | @cons w rest m n p hp hrest ih =>
    obtain ⟨hfirst, hapart⟩ := List.pairwise_cons.1 hapart
    obtain ⟨hinstructions, hlength, hvalue, hother, hkept⟩ := ih (hm.set p w.value) hapart
    refine ⟨hinstructions, by rw [hlength, List.length_set], ?_, ?_, ?_⟩
    · refine List.forall_mem_cons.2 ⟨?_, hvalue⟩
      -- what comes after writes other decorations
      rw [hother _ _ fun w' hw' hsame => hfirst w' hw' ⟨hsame.1.symm, hsame.2.symm⟩,
        decorationValue?_set hm hp, if_pos ⟨rfl, rfl⟩]
    · intro id decoration hnone
      obtain ⟨hw, hnone⟩ := List.forall_mem_cons.1 hnone
      rw [hother id decoration hnone, decorationValue?_set hm hp, if_neg hw]
    · intro q hnone
      obtain ⟨hw, hnone⟩ := List.forall_mem_cons.1 hnone
      have hne : p ≠ q := by
        rintro rfl
        exact hw hp
      rw [hkept q hnone, List.getElem?_set_ne hne]

/-- A module that declares what one module does, with the values that another has. -/
structure Shows (m n o : Module) : Prop where
  alike : Alike m o
  length : o.words.length = m.words.length
  value : ∀ id decoration, o.decorationValue? id decoration = n.decorationValue? id decoration

namespace Written

variable {ws : List Write}

theorem alike (h : Written ws m n) : Alike m n := alike_of_instructions_eq h.instructions

/-- A word that has changed is a literal that was written. -/
theorem exists_write (h : Written ws m n) {p : Nat} (hne : n.words[p]? ≠ m.words[p]?) :
    ∃ w ∈ ws, m.literal? w.target w.decoration = some p ∧ n.words[p]? = some w.value := by
  have hwrite : ∃ w ∈ ws, m.literal? w.target w.decoration = some p := by
    by_contra hnone
    exact hne (h.kept p fun w hw hliteral => hnone ⟨w, hw, hliteral⟩)
  obtain ⟨w, hw, hliteral⟩ := hwrite
  have hvalue := h.value w hw
  rw [decorationValue?_eq, h.alike.literal?_eq, hliteral] at hvalue
  exact ⟨w, hw, hliteral, hvalue⟩

/-- The words that were written are those of a module that shows the same. -/
theorem exists_parse (h : Written ws m n) {words : List UInt32} (hm : parse words = .ok m) :
    ∃ o, parse n.words = .ok o ∧ Shows m n o := by
  obtain ⟨rfl, -⟩ := parse_eq_ok hm
  obtain ⟨o, ho, howords, halike⟩ := exists_parse_of_kept hm h.length fun p hp => by
    refine h.kept p fun w _ hliteral => ?_
    obtain ⟨i, hi, hi', -⟩ := exists_instruction_of_literal? hliteral
    exact hp i hi hi'
  refine ⟨o, ho, halike, howords ▸ h.length, fun id decoration => ?_⟩
  rw [decorationValue?_eq, decorationValue?_eq, halike.literal?_eq, h.alike.literal?_eq, howords]

theorem shows (h : Written ws m n) : Shows m n n := ⟨h.alike, h.length, fun _ _ => rfl⟩

end Written

/-! ## Remapping is writing -/

theorem setDecoration_eq_ok {id decoration value : UInt32} {name : String}
    (h : m.setDecoration id decoration value name = .ok n) :
    Writes [⟨id, decoration, value⟩] m n := by
  unfold setDecoration at h
  split at h
  · rename_i p hp
    cases h
    exact .cons hp (.nil _)
  · cases h

/-- The writes that give a resource its place. -/
def bindingWrites (assign : ReflectedResource → Option (UInt32 × UInt32))
    (entry : UInt32 × ReflectedResource) : List Write :=
  match assign entry.2 with
  | none => []
  | some (set, binding) =>
      [⟨entry.1, Decoration.descriptorSet, set⟩, ⟨entry.1, Decoration.binding, binding⟩]

theorem writes_remapBindingsOf {assign : ReflectedResource → Option (UInt32 × UInt32)}
    {entries : List (UInt32 × ReflectedResource)}
    (h : (remapBindingsOf assign entries m).outcome = .ok ()) :
    Writes (entries.flatMap (bindingWrites assign)) m
      (remapBindingsOf assign entries m).module := by
  induction entries generalizing m with
  | nil => exact .nil m
  | cons entry rest ih =>
    obtain ⟨id, resource⟩ := entry
    rw [List.flatMap_cons]
    unfold remapBindingsOf at h ⊢
    simp only [bindingWrites] at h ⊢
    cases hassign : assign resource with
    | none =>
      simp only [hassign] at h ⊢
      exact ih h
    | some place =>
      obtain ⟨set, binding⟩ := place
      simp only [hassign] at h ⊢
      cases hset : m.setDecoration id Decoration.descriptorSet set "DescriptorSet" with
      | error e =>
        simp only [hset] at h
        cases h
      | ok m₁ =>
        simp only [hset] at h ⊢
        cases hbinding : m₁.setDecoration id Decoration.binding binding "Binding" with
        | error e =>
          simp only [hbinding] at h
          cases h
        | ok m₂ =>
          simp only [hbinding] at h ⊢
          exact ((setDecoration_eq_ok hset).append (setDecoration_eq_ok hbinding)).append (ih h)

theorem mem_bindingWrites {assign : ReflectedResource → Option (UInt32 × UInt32)}
    {entry : UInt32 × ReflectedResource} {w : Write} :
    w ∈ bindingWrites assign entry ↔ ∃ set binding, assign entry.2 = some (set, binding) ∧
      (w = ⟨entry.1, Decoration.descriptorSet, set⟩ ∨
        w = ⟨entry.1, Decoration.binding, binding⟩) := by
  unfold bindingWrites
  cases assign entry.2 with
  | none => simp
  | some place =>
    obtain ⟨set, binding⟩ := place
    simp

theorem target_of_mem_bindingWrites {assign : ReflectedResource → Option (UInt32 × UInt32)}
    {entry : UInt32 × ReflectedResource} {w : Write} (h : w ∈ bindingWrites assign entry) :
    w.target = entry.1 := by
  obtain ⟨_, _, -, rfl | rfl⟩ := mem_bindingWrites.1 h <;> rfl

/-- Resources of different variables are written apart. -/
theorem pairwise_bindingWrites (assign : ReflectedResource → Option (UInt32 × UInt32))
    {entries : List (UInt32 × ReflectedResource)} (hids : (entries.map (·.1)).Nodup) :
    (entries.flatMap (bindingWrites assign)).Pairwise Write.Apart := by
  refine List.pairwise_flatMap.2 ⟨fun entry _ => ?_, (List.pairwise_map.1 hids).imp ?_⟩
  · unfold bindingWrites
    split
    · exact .nil
    · have hkinds : Decoration.descriptorSet ≠ Decoration.binding := by decide
      exact List.pairwise_pair.2 fun hsame => hkinds hsame.2
  · intro entry entry' hne w hw w' hw' hsame
    exact hne ((target_of_mem_bindingWrites hw).symm.trans
      (hsame.1.trans (target_of_mem_bindingWrites hw')))

end Module

end PipelineArchive.Spirv

namespace PipelineArchive.ReflectedResource

/-- A resource in the place that is assigned to it, or in its own. -/
def assigned (assign : ReflectedResource → Option (UInt32 × UInt32)) (r : ReflectedResource) :
    ReflectedResource :=
  match assign r with
  | none => r
  | some (set, binding) => { r with set, binding }

theorem le_iff {a b : ReflectedResource} : a.le b ↔ a.set < b.set ∨ a.set = b.set ∧
    (a.binding < b.binding ∨ a.binding = b.binding ∧
      Bytes.le (Bytes.ofText a.name) (Bytes.ofText b.name)) := by
  unfold le
  split
  · rename_i hset
    simp [hset]
  · rename_i hset
    rw [not_not.1 hset]
    split
    · rename_i hbinding
      simp [hbinding]
    · rename_i hbinding
      rw [not_not.1 hbinding]
      simp

theorem word_trichotomy (x y : UInt32) : x < y ∨ x = y ∨ y < x := by
  simp only [UInt32.lt_iff_toNat_lt, ← UInt32.toNat_inj]
  omega

theorem le_total (a b : ReflectedResource) : a.le b || b.le a := by
  rw [Bool.or_eq_true, le_iff, le_iff]
  rcases word_trichotomy a.set b.set with hset | hset | hset
  · exact .inl (.inl hset)
  · rcases word_trichotomy a.binding b.binding with hbinding | hbinding | hbinding
    · exact .inl (.inr ⟨hset, .inl hbinding⟩)
    · rcases Bytes.le_total (Bytes.ofText a.name) (Bytes.ofText b.name) with hname | hname
      · exact .inl (.inr ⟨hset, .inr ⟨hbinding, hname⟩⟩)
      · exact .inr (.inr ⟨hset.symm, .inr ⟨hbinding.symm, hname⟩⟩)
    · exact .inr (.inr ⟨hset.symm, .inl hbinding⟩)
  · exact .inr (.inl hset)

theorem le_trans {a b c : ReflectedResource} (hab : a.le b) (hbc : b.le c) : a.le c := by
  rw [le_iff] at hab hbc ⊢
  rcases hab with hset | ⟨hset, hab⟩
  · rcases hbc with hset' | ⟨hset', -⟩
    · exact .inl (UInt32.lt_trans hset hset')
    · exact .inl (hset' ▸ hset)
  · rw [hset]
    refine hbc.imp_right fun ⟨hset', hbc⟩ => ⟨hset', ?_⟩
    rcases hab with hbinding | ⟨hbinding, hname⟩
    · rcases hbc with hbinding' | ⟨hbinding', -⟩
      · exact .inl (UInt32.lt_trans hbinding hbinding')
      · exact .inl (hbinding' ▸ hbinding)
    · rw [hbinding]
      exact hbc.imp_right fun ⟨hbinding', hname'⟩ => ⟨hbinding', Bytes.le_trans hname hname'⟩

end PipelineArchive.ReflectedResource

namespace PipelineArchive.Spirv.Module

open Results

variable {m n o : Module} {stage : ShaderStage}
  {assign : ReflectedResource → Option (UInt32 × UInt32)}

/-! ## The resources of a remapped module -/

theorem pairwise_resources (m : Module) (stage : ShaderStage) :
    (m.resources stage).Pairwise fun a b => a.2.le b.2 := by
  refine List.pairwise_mergeSort ?_ ?_ _
  · exact fun _ _ _ hab hbc => ReflectedResource.le_trans hab hbc
  · exact fun a b => ReflectedResource.le_total a.2 b.2

theorem resources_perm (m : Module) (stage : ShaderStage) :
    (m.resources stage).Perm
      (m.declaredVariables.filterMap fun v => (m.resource? stage v).map (v.id, ·)) :=
  List.mergeSort_perm _ _

theorem mem_resources {id : UInt32} {r : ReflectedResource} :
    (id, r) ∈ m.resources stage ↔
      ∃ v ∈ m.declaredVariables, v.id = id ∧ m.resource? stage v = some r := by
  rw [(resources_perm m stage).mem_iff, List.mem_filterMap]
  refine exists_congr fun v => and_congr_right fun _ => ?_
  rw [Option.map_eq_some_iff]
  constructor
  · rintro ⟨r', hr', h⟩
    cases h
    exact ⟨rfl, hr'⟩
  · rintro ⟨rfl, hr⟩
    exact ⟨r, hr, rfl⟩

/-- Variables with identifiers of their own are resources with identifiers of their own. -/
theorem nodup_resources (hids : (m.declaredVariables.map (·.id)).Nodup) (stage : ShaderStage) :
    ((m.resources stage).map (·.1)).Nodup := by
  rw [((resources_perm m stage).map _).nodup_iff, List.map_filterMap]
  refine List.pairwise_filterMap.2 ((List.pairwise_map.1 hids).imp fun hne id hid id' hid' => ?_)
  simp only [Option.map_map, Option.map_eq_some_iff] at hid hid'
  obtain ⟨_, -, rfl⟩ := hid
  obtain ⟨_, -, rfl⟩ := hid'
  exact hne

/-- Where the places of the resources were written, each is in the place that was assigned to
it. -/
theorem resource?_written (hids : ((m.resources stage).map (·.1)).Nodup)
    (hwritten : Written ((m.resources stage).flatMap (bindingWrites assign)) m n)
    (hshows : Shows m n o) {v : Variable} (hv : v ∈ m.declaredVariables) :
    o.resource? stage v = (m.resource? stage v).map (ReflectedResource.assigned assign) := by
  rw [hshows.alike.resource?_eq]
  refine Option.map_congr fun r hr => ?_
  have hmem : (v.id, r) ∈ m.resources stage := mem_resources.2 ⟨v, hv, rfl, hr⟩
  rw [hshows.value, hshows.value]
  unfold ReflectedResource.assigned
  cases hassign : assign r with
  | none =>
    have hkept (decoration : UInt32) :
        n.decorationValue? v.id decoration = m.decorationValue? v.id decoration := by
      refine hwritten.other _ _ fun w hw hsame => ?_
      obtain ⟨entry, hentry, hw⟩ := List.mem_flatMap.1 hw
      -- only the resource of the variable could have been written, and it was not
      obtain rfl : entry = (v.id, r) := List.inj_on_of_nodup_map hids hentry hmem
        ((target_of_mem_bindingWrites hw).symm.trans hsame.1)
      rw [bindingWrites, hassign] at hw
      cases hw
    have hown := (alike_of_instructions_eq (m := m) (n := m) rfl).resource?_eq stage v
    rw [hr, Option.map_some] at hown
    rw [hkept, hkept]
    exact (Option.some.inj hown).symm
  | some place =>
    obtain ⟨set, binding⟩ := place
    have hvalue (w : Write) (hw : w ∈ bindingWrites assign (v.id, r)) :
        n.decorationValue? w.target w.decoration = some w.value :=
      hwritten.value w (List.mem_flatMap.2 ⟨_, hmem, hw⟩)
    simp only [bindingWrites, hassign, List.forall_mem_cons] at hvalue
    obtain ⟨hset, hbinding, -⟩ := hvalue
    rw [hset, hbinding]
    rfl

/-- The resources of such a module are the old ones in the places that were assigned to them. -/
theorem resources_written_perm (hids : ((m.resources stage).map (·.1)).Nodup)
    (hwritten : Written ((m.resources stage).flatMap (bindingWrites assign)) m n)
    (hshows : Shows m n o) :
    (o.resources stage).Perm
      ((m.resources stage).map fun (id, r) => (id, r.assigned assign)) := by
  have hlist : (o.declaredVariables.filterMap fun v => (o.resource? stage v).map (v.id, ·)) =
      (m.declaredVariables.filterMap fun v => (m.resource? stage v).map (v.id, ·)).map
        fun (id, r) => (id, r.assigned assign) := by
    rw [hshows.alike.declaredVariables_eq, List.map_filterMap]
    refine List.filterMap_congr fun v hv => ?_
    rw [resource?_written hids hwritten hshows hv, Option.map_map, Option.map_map]
    rfl
  exact (resources_perm o stage).trans (hlist ▸ ((resources_perm m stage).map _).symm)

/-- Where only places of resources were written, the vertex inputs are the old ones. -/
theorem vertexInputs_written (hm : m.LiteralsApart)
    (hwritten : Written ((m.resources stage).flatMap (bindingWrites assign)) m n)
    (hshows : Shows m n o) :
    o.vertexInputs = m.vertexInputs := by
  have hlocation (id : UInt32) : o.decorationValue? id Decoration.location =
      m.decorationValue? id Decoration.location := by
    rw [hshows.value]
    refine hwritten.other _ _ fun w hw hsame => ?_
    obtain ⟨entry, -, hw⟩ := List.mem_flatMap.1 hw
    have hset : Decoration.descriptorSet ≠ Decoration.location := by decide
    have hbinding : Decoration.binding ≠ Decoration.location := by decide
    obtain ⟨_, _, -, rfl | rfl⟩ := mem_bindingWrites.1 hw
    · exact hset hsame.2
    · exact hbinding hsame.2
  have hinput (v : Variable) : o.vertexInput? v = m.vertexInput? v := by
    rw [hshows.alike.vertexInput?_eq hm hshows.length, hlocation]
    exact ((alike_of_instructions_eq rfl).vertexInput?_eq hm rfl v).symm
  simp only [vertexInputs, hshows.alike.declaredVariables_eq, hinput]

/-- A remapping that succeeds changes no words but the literals of the sets and bindings of the
resources that were assigned a place. Its words are those of a module with the old vertex inputs,
whose resources are the old ones, each in the place that was assigned to it or else in its own, in
the order of resources. -/
theorem reflect_remapBindings {words : List UInt32} {next : Module} (hparse : parse words = .ok m)
    (hids : (m.declaredVariables.map (·.id)).Nodup)
    (hremap : (m.remapBindings stage assign).module? = .ok next) :
    next.words.length = words.length ∧
    (∀ p, next.words[p]? ≠ words[p]? → ∃ id r set binding, (id, r) ∈ m.resources stage ∧
      assign r = some (set, binding) ∧
        (m.literal? id Decoration.descriptorSet = some p ∧ next.words[p]? = some set ∨
          m.literal? id Decoration.binding = some p ∧ next.words[p]? = some binding)) ∧
    ∃ parsed, parse next.words = .ok parsed ∧
      (parsed.resources stage).Perm
        ((m.resources stage).map fun (id, r) => (id, r.assigned assign)) ∧
      ∀ entryPoint,
        (parsed.reflect stage entryPoint).resources.Perm
          ((m.reflect stage entryPoint).resources.map (·.assigned assign)) ∧
        ((parsed.reflect stage entryPoint).resources.Pairwise fun a b => a.le b) ∧
        (parsed.reflect stage entryPoint).vertexInputs =
          (m.reflect stage entryPoint).vertexInputs := by
  obtain ⟨⟨⟩, houtcome, rfl⟩ := map_eq_ok_iff.1 hremap
  have hresources : ((m.resources stage).map (·.1)).Nodup := nodup_resources hids stage
  have hm := literalsApart_parse hparse
  have hwritten := (writes_remapBindingsOf houtcome).written hm
    (pairwise_bindingWrites assign hresources)
  obtain ⟨parsed, hparsed, hshows⟩ := hwritten.exists_parse hparse
  have hperm := resources_written_perm hresources hwritten hshows
  obtain ⟨rfl, -⟩ := parse_eq_ok hparse
  refine ⟨hwritten.length, fun p hne => ?_, parsed, hparsed, hperm, fun entryPoint => ⟨?_, ?_, ?_⟩⟩
  · obtain ⟨w, hw, hliteral, hvalue⟩ := hwritten.exists_write hne
    obtain ⟨⟨id, r⟩, hmem, hw⟩ := List.mem_flatMap.1 hw
    obtain ⟨set, binding, hassign, rfl | rfl⟩ := mem_bindingWrites.1 hw
    · exact ⟨id, r, set, binding, hmem, hassign, .inl ⟨hliteral, hvalue⟩⟩
    · exact ⟨id, r, set, binding, hmem, hassign, .inr ⟨hliteral, hvalue⟩⟩
  · have hmapped := hperm.map (·.2)
    rw [List.map_map] at hmapped
    simp only [reflect, List.map_map]
    exact hmapped
  · exact List.pairwise_map.2 (pairwise_resources parsed stage)
  · simp only [reflect, vertexInputs_written hm hwritten hshows]

/-- Resources that are declared in their order stay in it. -/
theorem resources_of_pairwise
    (h : (m.declaredVariables.filterMap fun v => (m.resource? stage v).map (v.id, ·)).Pairwise
      fun a b => a.2.le b.2) :
    m.resources stage =
      m.declaredVariables.filterMap fun v => (m.resource? stage v).map (v.id, ·) :=
  List.mergeSort_of_pairwise h

/-- A compute shader with two uniform variables `a` and `b`, which are blocks of one structure. The
name of the structure is given by two words. -/
def twoBlocks (first second : UInt32) : Module where
  words := [magic, 0x10000, 0, 20, 0,
    0x5000F, 5, 1, 0x6E69616D, 0,
    0x40005, 10, first, second, 0x30005, 11, 0x61, 0x30005, 12, 0x62,
    0x30047, 10, 2,
    0x40047, 11, 34, 0, 0x40047, 11, 33, 0, 0x40047, 12, 34, 0, 0x40047, 12, 33, 1,
    0x30016, 3, 32, 0x3001E, 10, 3, 0x40020, 13, 2, 10,
    0x4003B, 13, 11, 2, 0x4003B, 13, 12, 2]
  instructions := [
    ⟨5, Op.entryPoint, [5, 1, 0x6E69616D, 0]⟩,
    ⟨10, Op.name, [10, first, second]⟩,
    ⟨14, Op.name, [11, 0x61]⟩,
    ⟨17, Op.name, [12, 0x62]⟩,
    ⟨20, Op.decorate, [10, Decoration.block]⟩,
    ⟨23, Op.decorate, [11, Decoration.descriptorSet, 0]⟩,
    ⟨27, Op.decorate, [11, Decoration.binding, 0]⟩,
    ⟨31, Op.decorate, [12, Decoration.descriptorSet, 0]⟩,
    ⟨35, Op.decorate, [12, Decoration.binding, 1]⟩,
    ⟨39, 22, [3, 32]⟩,
    ⟨42, Op.typeStruct, [10, 3]⟩,
    ⟨45, Op.typePointer, [13, StorageClass.uniform, 10]⟩,
    ⟨49, Op.variableOp, [13, 11, StorageClass.uniform]⟩,
    ⟨53, Op.variableOp, [13, 12, StorageClass.uniform]⟩]

/-- The structure is called `Params`. -/
def sharedBlock : Module := twoBlocks 0x61726150 0x736D

theorem parse_sharedBlock : parse sharedBlock.words = .ok sharedBlock := by decide +kernel

/-- Both variables are known by the name of the structure. -/
theorem resources_sharedBlock : sharedBlock.resources .compute = [
    (11, ⟨"Params", .constantBuffer, 0, 0, 1, .singleton .compute⟩),
    (12, ⟨"Params", .constantBuffer, 0, 1, 1, .singleton .compute⟩)] := by
  rw [resources_of_pairwise (by decide +kernel)]
  decide +kernel

/-- Moves the resource of binding 1, and leaves others where they are. -/
def moveSecond (r : ReflectedResource) : Option (UInt32 × UInt32) :=
  if r.binding = 1 then some (2, 3) else none

/-- The second block is moved, in the words of its decorations alone. -/
theorem reflect_remapBindings_sharedBlock :
    parse sharedBlock.words = .ok sharedBlock ∧
    (sharedBlock.declaredVariables.map (·.id)).Nodup ∧
    ∃ next, (sharedBlock.remapBindings .compute moveSecond).module? = .ok next ∧
      next.words = (sharedBlock.words.set 34 2).set 38 3 ∧
      ∃ parsed, parse next.words = .ok parsed ∧
        (parsed.resources .compute).Perm [
          (11, ⟨"Params", .constantBuffer, 0, 0, 1, .singleton .compute⟩),
          (12, ⟨"Params", .constantBuffer, 2, 3, 1, .singleton .compute⟩)] := by
  have hids : (sharedBlock.declaredVariables.map (·.id)).Nodup := by decide +kernel
  have hremap : (sharedBlock.remapBindings .compute moveSecond).module? =
      .ok { sharedBlock with words := (sharedBlock.words.set 34 2).set 38 3 } := by
    rw [remapBindings, resources_sharedBlock]
    decide +kernel
  obtain ⟨-, -, parsed, hparsed, hperm, -⟩ :=
    reflect_remapBindings parse_sharedBlock hids hremap
  rw [resources_sharedBlock] at hperm
  exact ⟨parse_sharedBlock, hids, _, hremap, rfl, parsed, hparsed, hperm⟩

end PipelineArchive.Spirv.Module
