import Mathlib.Data.List.Nodup
import PipelineArchive.Proofs.Layout.Slots

/-!
# Descriptor sets

On Vulkan every signature has a descriptor set for its dynamic resources and one for the others, as
far as it has such resources. The numbers of sets and bindings are counted first (`Numbered`), and
the counters hold the words of these. The resources of a signature use the sets behind those of the
signatures before it (`usesSets_numberedFrom`), so that all signatures of a pipeline use the sets
from zero on, without gaps and without sharing one (`UsesSets.cons`, `ofSignatures_vulkan`).
-/

set_option autoImplicit false

namespace PipelineArchive

/-! ## Sets in use -/

section

variable {α β : Type} {set binding : α → Nat} {isDynamic : α → Bool}
  {set' binding' : β → Nat} {isDynamic' : β → Bool} {first count : Nat} {groups : List (List α)}

/-- Groups of resources, one for each signature, use `count` descriptor sets from the set `first`
on. -/
structure UsesSets (set binding : α → Nat) (isDynamic : α → Bool) (first count : Nat)
    (groups : List (List α)) : Prop where
  /-- Each of the sets has a resource, and there are no resources in others. -/
  used (s : Nat) : (∃ x ∈ groups.flatten, set x = s) ↔ first ≤ s ∧ s < first + count
  /-- The sets of a group are behind those of the groups before it. -/
  ordered : groups.Pairwise fun g h => ∀ x ∈ g, ∀ y ∈ h, set x < set y
  /-- The bindings of a set are counted from zero, in order. -/
  counted (s : Nat) : (groups.flatten.filter (set · == s)).map binding =
    List.range (groups.flatten.countP (set · == s))
  /-- Dynamic resources share their sets with dynamic resources only. -/
  separate : ∀ x ∈ groups.flatten, ∀ y ∈ groups.flatten, set x = set y → isDynamic x = isDynamic y

namespace UsesSets

/-- No place is used twice. -/
theorem nodup (h : UsesSets set binding isDynamic first count groups) :
    (groups.flatten.map fun x => (set x, binding x)).Nodup := by
  rw [List.nodup_iff_count_le_one]
  rintro ⟨s, b⟩
  -- a place is counted among the bindings of its set
  have hcount : (groups.flatten.map fun x => (set x, binding x)).count (s, b) =
      ((groups.flatten.filter (set · == s)).map binding).count b := by
    rw [List.count, List.count, List.countP_map, List.countP_map, List.countP_filter]
    refine List.countP_congr fun x _ => ?_
    simp [and_comm]
  rw [hcount, h.counted]
  exact List.nodup_iff_count_le_one.1 List.nodup_range b

/-- The numbers are as low as there are sets and resources. -/
theorem lt (h : UsesSets set binding isDynamic first count groups) {x : α}
    (hx : x ∈ groups.flatten) :
    set x < first + count ∧ binding x < groups.flatten.length := by
  refine ⟨((h.used (set x)).1 ⟨x, hx, rfl⟩).2, ?_⟩
  have hmem : binding x ∈ (groups.flatten.filter (set · == set x)).map binding :=
    List.mem_map_of_mem (List.mem_filter.2 ⟨hx, beq_self_eq_true _⟩)
  rw [h.counted, List.mem_range] at hmem
  exact Nat.lt_of_lt_of_le hmem List.countP_le_length

/-- A group is put before others, and has the sets before theirs. -/
theorem cons {group : List α} {own : Nat} (h : UsesSets set binding isDynamic first own [group])
    (hrest : UsesSets set binding isDynamic (first + own) count groups) :
    UsesSets set binding isDynamic first (own + count) (group :: groups) := by
  have hown {x : α} (hx : x ∈ group) : first ≤ set x ∧ set x < first + own :=
    (h.used (set x)).1 ⟨x, by simpa using hx, rfl⟩
  have hothers {x : α} (hx : x ∈ groups.flatten) :
      first + own ≤ set x ∧ set x < first + own + count :=
    (hrest.used (set x)).1 ⟨x, hx, rfl⟩
  have husedOwn := h.used
  have hcountedOwn := h.counted
  simp only [List.flatten_singleton] at husedOwn hcountedOwn
  refine ⟨fun s => ?_, List.pairwise_cons.2 ⟨?_, hrest.ordered⟩, fun s => ?_, ?_⟩
  · simp only [List.flatten_cons, List.mem_append, or_and_right, exists_or, husedOwn, hrest.used]
    omega
  · intro g hg x hx y hy
    have := hown hx
    have := hothers (List.mem_flatten_of_mem hg hy)
    omega
  · -- a set belongs to the new group or to the others, and the rest has nothing in it
    rw [List.flatten_cons, List.filter_append, List.countP_append, List.map_append]
    by_cases hs : s < first + own
    · have hnone (x : α) (hx : x ∈ groups.flatten) : ¬(set x == s) = true := by
        have := hothers hx
        simp only [beq_iff_eq]
        omega
      rw [List.filter_eq_nil_iff.2 hnone, List.countP_eq_zero.2 hnone, hcountedOwn,
        List.map_nil, List.append_nil, Nat.add_zero]
    · have hnone (x : α) (hx : x ∈ group) : ¬(set x == s) = true := by
        have := hown hx
        simp only [beq_iff_eq]
        omega
      rw [List.filter_eq_nil_iff.2 hnone, List.countP_eq_zero.2 hnone, hrest.counted,
        List.map_nil, List.nil_append, Nat.zero_add]
  · rw [List.flatten_cons]
    intro x hx y hy hsame
    rcases List.mem_append.1 hx with hx | hx <;> rcases List.mem_append.1 hy with hy | hy
    · exact h.separate x (by simpa using hx) y (by simpa using hy) hsame
    · have := hown hx
      have := hothers hy
      omega
    · have := hothers hx
      have := hown hy
      omega
    · exact hrest.separate x hx y hy hsame

theorem nil : UsesSets set binding isDynamic first 0 [] where
  used s := by simp
  ordered := .nil
  counted s := rfl
  separate := by simp

/-- Resources are put in another form that tells the same numbers. -/
theorem map (h : UsesSets set binding isDynamic first count groups) (f : α → β)
    (hset : ∀ x ∈ groups.flatten, set' (f x) = set x)
    (hbinding : ∀ x ∈ groups.flatten, binding' (f x) = binding x)
    (hdynamic : ∀ x ∈ groups.flatten, isDynamic' (f x) = isDynamic x) :
    UsesSets set' binding' isDynamic' first count (groups.map (·.map f)) := by
  have hflatten : (groups.map (·.map f)).flatten = groups.flatten.map f := List.map_flatten.symm
  refine ⟨fun s => ?_, List.pairwise_map.2 (h.ordered.imp_of_mem ?_), fun s => ?_, ?_⟩
  · rw [← h.used, hflatten]
    simp only [List.mem_map, exists_exists_and_eq_and]
    exact exists_congr fun x => and_congr_right fun hx => by rw [hset x hx]
  · intro g g' hg hg' hbelow
    simp only [List.forall_mem_map]
    intro x hx y hy
    rw [hset x (List.mem_flatten_of_mem hg hx), hset y (List.mem_flatten_of_mem hg' hy)]
    exact hbelow x hx y hy
  · rw [hflatten, List.filter_map, List.map_map, List.countP_map]
    have hsame (x : α) (hx : x ∈ groups.flatten) :
        ((set' · == s) ∘ f) x = (set x == s) := congrArg (· == s) (hset x hx)
    rw [List.filter_congr hsame, List.countP_congr fun x hx => by rw [hsame x hx], ← h.counted]
    exact List.map_congr_left fun x hx => hbinding x (List.mem_of_mem_filter hx)
  · rw [hflatten]
    simp only [List.forall_mem_map]
    intro x hx y hy
    rw [hset x hx, hset y hy, hdynamic x hx, hdynamic y hy]
    exact h.separate x hx y hy

end UsesSets

end

/-! ## The sets of a signature -/

/-- A resource with the numbers of its set and binding, before these are stored as words. -/
structure Numbered where
  resource : LayoutBinding
  set : Nat
  binding : Nat

/-- The resource in its place. -/
def Numbered.stored (x : Numbered) : LayoutBinding :=
  x.resource.placedAt (UInt32.ofNat x.set) (UInt32.ofNat x.binding)

namespace SignatureLayout

open LayoutBinding

variable {staticSet dynamicSet : Nat} {used : Bool → Nat} {bs : List LayoutBinding}

/-- The bindings that are used after a resource: one more of its kind. -/
def useOne (used : Bool → Nat) (b : LayoutBinding) (dynamic : Bool) : Nat :=
  if dynamic = b.isDynamic then used dynamic + 1 else used dynamic

theorem words_useOne (used : Bool → Nat) (b : LayoutBinding) :
    words (useOne used b) = (words used).set b.isDynamic (words used b.isDynamic + 1) := by
  funext dynamic
  rw [words, useOne, Tally.set]
  split
  · rename_i hkind
    rw [hkind, UInt32.ofNat_add]
    rfl
  · rfl

/-- The numbers of resources after others that have used the counted bindings. -/
def numbered (staticSet dynamicSet : Nat) : (Bool → Nat) → List LayoutBinding → List Numbered
  | _, [] => []
  | used, b :: rest =>
      ⟨b, if b.isDynamic then dynamicSet else staticSet, used b.isDynamic⟩ ::
        numbered staticSet dynamicSet (useOne used b) rest

theorem placeAll_placeVulkan (staticSet dynamicSet : Nat) (used : Bool → Nat)
    (bs : List LayoutBinding) :
    ∃ next, placeAll (placeVulkan (UInt32.ofNat staticSet) (UInt32.ofNat dynamicSet)) (words used)
      bs = .ok ((numbered staticSet dynamicSet used bs).map Numbered.stored, next) := by
  induction bs generalizing used with
  | nil => exact ⟨words used, rfl⟩
  | cons b rest ih =>
    obtain ⟨next, hrest⟩ := ih (useOne used b)
    rw [words_useOne] at hrest
    refine ⟨next, placeAll_cons_eq_ok_iff.2 ⟨_, _, _, rfl, hrest, ?_⟩⟩
    rw [numbered, List.map_cons, Numbered.stored]
    cases b.isDynamic <;> rfl

theorem map_resource_numbered (staticSet dynamicSet : Nat) (used : Bool → Nat)
    (bs : List LayoutBinding) :
    (numbered staticSet dynamicSet used bs).map Numbered.resource = bs := by
  induction bs generalizing used with
  | nil => rfl
  | cons b rest ih => rw [numbered, List.map_cons, ih]

theorem set_eq_of_mem_numbered {x : Numbered} (hx : x ∈ numbered staticSet dynamicSet used bs) :
    x.set = if x.resource.isDynamic then dynamicSet else staticSet := by
  induction bs generalizing used with
  | nil => cases hx
  | cons b rest ih =>
    rcases List.mem_cons.1 hx with rfl | hx
    · rfl
    · exact ih hx

/-- The bindings of the dynamic resources and those of the others go on from what was used. -/
theorem bindings_numbered (dynamic : Bool) :
    ((numbered staticSet dynamicSet used bs).filter (·.resource.isDynamic == dynamic)).map
        Numbered.binding =
      List.range' (used dynamic) (bs.countP (·.isDynamic == dynamic)) := by
  induction bs generalizing used with
  | nil => rfl
  | cons b rest ih =>
    rw [numbered, List.filter_cons, List.countP_cons]
    by_cases hb : b.isDynamic = dynamic
    · subst hb
      simp [ih, List.range'_succ, useOne]
    · have hother : ¬dynamic = b.isDynamic := fun h => hb h.symm
      simp [ih, hb, hother, useOne]

theorem numbered_append (staticSet dynamicSet : Nat) (used : Bool → Nat)
    (bs rest : List LayoutBinding) :
    ∃ last, numbered staticSet dynamicSet used (bs ++ rest) =
      numbered staticSet dynamicSet used bs ++ numbered staticSet dynamicSet last rest := by
  induction bs generalizing used with
  | nil => exact ⟨used, rfl⟩
  | cons b bs ih =>
    obtain ⟨last, hlast⟩ := ih (useOne used b)
    exact ⟨last, by rw [List.cons_append, numbered, hlast, numbered, List.cons_append]⟩

/-- No more bindings are used than there are resources. -/
theorem binding_lt_of_mem_numbered {x : Numbered}
    (hx : x ∈ numbered staticSet dynamicSet used bs) :
    x.binding < used x.resource.isDynamic + bs.length := by
  have hmem : x.binding ∈ ((numbered staticSet dynamicSet used bs).filter
      (·.resource.isDynamic == x.resource.isDynamic)).map Numbered.binding :=
    List.mem_map_of_mem (List.mem_filter.2 ⟨hx, beq_self_eq_true _⟩)
  rw [bindings_numbered, List.mem_range'_1] at hmem
  have : bs.countP (·.isDynamic == x.resource.isDynamic) ≤ bs.length := List.countP_le_length
  omega

/-- How many sets resources take of one kind: one, if there are any. -/
def setsOf (dynamic : Bool) (bs : List LayoutBinding) : Nat :=
  if bs.any (·.isDynamic == dynamic) then 1 else 0

theorem setsOf_of_mem {b : LayoutBinding} (hb : b ∈ bs) : setsOf b.isDynamic bs = 1 :=
  if_pos (List.any_eq_true.2 ⟨b, hb, by simp⟩)

theorem setsOf_cases (dynamic : Bool) (bs : List LayoutBinding) :
    setsOf dynamic bs = 0 ∨ setsOf dynamic bs = 1 ∧ ∃ b ∈ bs, b.isDynamic = dynamic := by
  unfold setsOf
  split
  · rename_i hany
    obtain ⟨b, hb, hdynamic⟩ := List.any_eq_true.1 hany
    exact .inr ⟨rfl, b, hb, beq_iff_eq.1 hdynamic⟩
  · exact .inl rfl

theorem setsOf_le_one (dynamic : Bool) (bs : List LayoutBinding) : setsOf dynamic bs ≤ 1 := by
  rcases setsOf_cases dynamic bs with h | ⟨h, -⟩ <;> omega

/-- The numbers of the resources of a signature whose first set is the given one. -/
def numberedFrom (first : Nat) (bs : List LayoutBinding) : List Numbered :=
  numbered first (first + setsOf false bs) (fun _ => 0) bs

theorem mem_numberedFrom {first : Nat} {x : Numbered} (hx : x ∈ numberedFrom first bs) :
    x.resource ∈ bs ∧
      x.set = if x.resource.isDynamic then first + setsOf false bs else first := by
  refine ⟨?_, set_eq_of_mem_numbered hx⟩
  have := List.mem_map_of_mem (f := Numbered.resource) hx
  rwa [numberedFrom, map_resource_numbered] at this

theorem exists_mem_numberedFrom (first : Nat) {b : LayoutBinding} (hb : b ∈ bs) :
    ∃ x ∈ numberedFrom first bs, x.resource = b := by
  have hmap := map_resource_numbered first (first + setsOf false bs) (fun _ => 0) bs
  rw [← hmap] at hb
  exact List.mem_map.1 hb

/-- Resources share a set if both are dynamic or neither is. -/
theorem set_eq_iff {first : Nat} {x y : Numbered} (hx : x ∈ numberedFrom first bs)
    (hy : y ∈ numberedFrom first bs) :
    x.set = y.set ↔ x.resource.isDynamic = y.resource.isDynamic := by
  obtain ⟨hxs, hxset⟩ := mem_numberedFrom hx
  obtain ⟨hys, hyset⟩ := mem_numberedFrom hy
  have hxone := setsOf_of_mem hxs
  have hyone := setsOf_of_mem hys
  rw [hxset, hyset]
  cases hdx : x.resource.isDynamic <;> cases hdy : y.resource.isDynamic <;>
    simp_all

/-- Each set of a signature is that of some kind of resources, of which there are some. -/
theorem exists_resource_of_set {first s : Nat}
    (hs : first ≤ s ∧ s < first + (setsOf false bs + setsOf true bs)) :
    ∃ b ∈ bs, s = if b.isDynamic then first + setsOf false bs else first := by
  rcases setsOf_cases false bs with hstatic | ⟨hstatic, b, hb, hkind⟩ <;>
    rcases setsOf_cases true bs with hdynamic | ⟨hdynamic, b', hb', hkind'⟩
  · omega
  · exact ⟨b', hb', by rw [if_pos hkind']; omega⟩
  · exact ⟨b, hb, by rw [hkind, if_neg Bool.false_ne_true]; omega⟩
  · rcases (by omega : s = first ∨ s = first + setsOf false bs) with rfl | rfl
    · exact ⟨b, hb, by rw [hkind, if_neg Bool.false_ne_true]⟩
    · exact ⟨b', hb', by rw [if_pos hkind']⟩

theorem counted_numberedFrom (first : Nat) (bs : List LayoutBinding) (s : Nat) :
    ((numberedFrom first bs).filter (·.set == s)).map Numbered.binding =
      List.range ((numberedFrom first bs).countP (·.set == s)) := by
  by_cases hsome : ∃ x ∈ numberedFrom first bs, x.set = s
  · obtain ⟨x, hx, rfl⟩ := hsome
    have hkind (y : Numbered) (hy : y ∈ numberedFrom first bs) :
        (y.set == x.set) = (y.resource.isDynamic == x.resource.isDynamic) := by
      rw [Bool.eq_iff_iff, beq_iff_eq, beq_iff_eq, set_eq_iff hy hx]
    have hlist : ((numberedFrom first bs).filter (·.set == x.set)).map Numbered.binding =
        List.range (bs.countP (·.isDynamic == x.resource.isDynamic)) := by
      rw [List.filter_congr hkind, List.range_eq_range']
      exact bindings_numbered x.resource.isDynamic
    have hlength := congrArg List.length hlist
    rw [List.length_map, List.length_range, ← List.countP_eq_length_filter] at hlength
    rw [hlist, hlength]
  · have hnone (x : Numbered) (hx : x ∈ numberedFrom first bs) : ¬(x.set == s) = true :=
      fun hs => hsome ⟨x, hx, beq_iff_eq.1 hs⟩
    rw [List.filter_eq_nil_iff.2 hnone, List.countP_eq_zero.2 hnone]
    rfl

theorem usesSets_numberedFrom (first : Nat) (bs : List LayoutBinding) :
    UsesSets Numbered.set Numbered.binding (·.resource.isDynamic) first
      (setsOf false bs + setsOf true bs) [numberedFrom first bs] := by
  refine ⟨fun s => ⟨?_, fun hs => ?_⟩, List.pairwise_singleton _ _, fun s => ?_, ?_⟩
  all_goals rw [List.flatten_singleton]
  · rintro ⟨x, hx, rfl⟩
    obtain ⟨hmem, hset⟩ := mem_numberedFrom hx
    have hone := setsOf_of_mem hmem
    cases hdynamic : x.resource.isDynamic
    all_goals
      rw [hdynamic] at hone
      simp only [hdynamic, Bool.false_eq_true, if_true, if_false] at hset
      omega
  · obtain ⟨b, hb, hs⟩ := exists_resource_of_set hs
    obtain ⟨x, hx, rfl⟩ := exists_mem_numberedFrom first hb
    exact ⟨x, hx, (mem_numberedFrom hx).2.trans hs.symm⟩
  · exact counted_numberedFrom first bs s
  · exact fun x hx y hy => (set_eq_iff hx hy).1

/-- A signature is always laid out, behind the sets that were used before. -/
theorem allocate_vulkan (signature : Signature) {counters : Counters} {first : Nat}
    (hfirst : counters.sets = UInt32.ofNat first) :
    ∃ layout next, allocate .vulkan signature counters = .ok (layout, next) ∧
      layout.name = signature.name ∧ layout.bindingIndex = signature.bindingIndex ∧
      layout.bindings = (numberedFrom first (unplaced signature)).map Numbered.stored ∧
      layout.setCount.toNat =
        setsOf false (unplaced signature) + setsOf true (unplaced signature) ∧
      next.sets = UInt32.ofNat (first + layout.setCount.toNat) := by
  have hword (p : Prop) [Decidable p] : (if p then 1 else 0 : UInt32) =
      UInt32.ofNat (if p then 1 else 0) := by split <;> rfl
  have hstatic : (if (unplaced signature).any fun b => !b.isDynamic then 1 else 0 : UInt32) =
      UInt32.ofNat (setsOf false (unplaced signature)) := by
    simp only [setsOf, beq_false, hword]
  have hdynamic : (if (unplaced signature).any LayoutBinding.isDynamic then 1 else 0 : UInt32) =
      UInt32.ofNat (setsOf true (unplaced signature)) := by
    simp only [setsOf, beq_true, hword]
  obtain ⟨last, hplaced⟩ := placeAll_placeVulkan first
    (first + setsOf false (unplaced signature)) (fun _ => 0) (unplaced signature)
  rw [words_zero] at hplaced
  have hcount : (UInt32.ofNat (setsOf false (unplaced signature) +
      setsOf true (unplaced signature))).toNat =
        setsOf false (unplaced signature) + setsOf true (unplaced signature) := by
    have := setsOf_le_one false (unplaced signature)
    have := setsOf_le_one true (unplaced signature)
    exact UInt32.toNat_ofNat_of_lt' (Nat.lt_trans (by omega : _ < 3) (by decide))
  simp only [allocate, hstatic, hdynamic, hfirst, hplaced, ← UInt32.ofNat_add]
  exact ⟨_, _, rfl, rfl, rfl, rfl, hcount, by rw [hcount]⟩

end SignatureLayout

/-! ## The sets of a pipeline -/

namespace PipelineLayout

open SignatureLayout

/-- How many descriptor sets the signatures of a layout take together. -/
def setCount (l : PipelineLayout) : Nat := (l.signatures.map (·.setCount.toNat)).sum

theorem allocateAll_vulkan {counters : Counters} {first : Nat}
    (hfirst : counters.sets = UInt32.ofNat first) (signatures : List Signature) :
    ∃ layouts groups, allocateAll .vulkan counters signatures = .ok layouts ∧
      layouts.map (fun l => (l.name, l.bindingIndex)) =
        signatures.map (fun s => (s.name, s.bindingIndex)) ∧
      groups.map (·.map Numbered.resource) = signatures.map unplaced ∧
      layouts.map (·.bindings) = groups.map (·.map Numbered.stored) ∧
      UsesSets Numbered.set Numbered.binding (·.resource.isDynamic) first
        (layouts.map (·.setCount.toNat)).sum groups := by
  induction signatures generalizing counters first with
  | nil => exact ⟨[], [], rfl, rfl, rfl, rfl, .nil⟩
  | cons signature rest ih =>
    obtain ⟨layout, next, hlayout, hname, hindex, hbindings, hcount, hnext⟩ :=
      allocate_vulkan signature hfirst
    obtain ⟨layouts, groups, hlayouts, hnames, hresources, hstored, hsets⟩ := ih hnext
    refine ⟨layout :: layouts, numberedFrom first (unplaced signature) :: groups,
      ?_, ?_, ?_, ?_, ?_⟩
    · simp only [allocateAll, hlayout, hlayouts]
    · rw [List.map_cons, List.map_cons, hname, hindex, hnames]
    · rw [List.map_cons, List.map_cons, hresources, numberedFrom, map_resource_numbered]
    · rw [List.map_cons, List.map_cons, hbindings, hstored]
    · rw [List.map_cons, List.sum_cons]
      rw [hcount] at hsets ⊢
      exact (usesSets_numberedFrom first (unplaced signature)).cons hsets

/-- Signatures are always laid out on Vulkan, in binding order, and use the descriptor sets from
zero to the sum of their set counts: every set has resources, of one signature, which are dynamic
all or none, and their bindings are counted from zero in the order of declaration. So no place is
used twice. A number is stored as a word, and as far as the numbers fit, all of this holds of the
words. -/
theorem ofSignatures_vulkan (signatures : List Signature) :
    ∃ layout groups, ofSignatures .vulkan signatures = .ok layout ∧
      layout.signatures.map (fun l => (l.name, l.bindingIndex)) =
        (Signature.inBindingOrder signatures).map (fun s => (s.name, s.bindingIndex)) ∧
      (layout.signatures.Pairwise fun a b => a.bindingIndex ≤ b.bindingIndex) ∧
      groups.map (·.map Numbered.resource) = (Signature.inBindingOrder signatures).map unplaced ∧
      layout.signatures.map (·.bindings) = groups.map (·.map Numbered.stored) ∧
      UsesSets Numbered.set Numbered.binding (·.resource.isDynamic) 0 layout.setCount groups ∧
      (groups.flatten.map fun x => (x.set, x.binding)).Nodup ∧
      ((∀ x ∈ groups.flatten, x.set < UInt32.size ∧ x.binding < UInt32.size) →
        UsesSets (·.set.toNat) (·.binding.toNat) LayoutBinding.isDynamic 0 layout.setCount
            (layout.signatures.map (·.bindings)) ∧
          (layout.bindings.map fun b => (b.set, b.binding)).Nodup) := by
  obtain ⟨layouts, groups, hlayouts, hnames, hresources, hstored, hsets⟩ :=
    @allocateAll_vulkan {} 0 rfl (Signature.inBindingOrder signatures)
  refine ⟨⟨.vulkan, layouts⟩, groups, by rw [ofSignatures, hlayouts], hnames, ?_, hresources,
    hstored, hsets, hsets.nodup, fun hfits => ?_⟩
  · have hindices : layouts.map (·.bindingIndex) =
        (Signature.inBindingOrder signatures).map (·.bindingIndex) := by
      have := congrArg (List.map Prod.snd) hnames
      rwa [List.map_map, List.map_map] at this
    have hsorted : (layouts.map (·.bindingIndex)).Pairwise (· ≤ ·) :=
      hindices ▸ List.pairwise_map.2 (Signature.inBindingOrder_sorted signatures)
    exact List.pairwise_map.1 hsorted
  · have hwords : UsesSets (fun b : LayoutBinding => b.set.toNat) (·.binding.toNat)
        LayoutBinding.isDynamic 0 (PipelineLayout.setCount ⟨.vulkan, layouts⟩)
        (layouts.map (·.bindings)) := by
      rw [hstored]
      exact hsets.map Numbered.stored
        (fun x hx => UInt32.toNat_ofNat_of_lt' (hfits x hx).1)
        (fun x hx => UInt32.toNat_ofNat_of_lt' (hfits x hx).2) (fun _ _ => rfl)
    refine ⟨hwords, List.Nodup.of_map (fun p => (p.1.toNat, p.2.toNat)) ?_⟩
    rw [List.map_map, bindings, List.flatMap_def]
    exact hwords.nodup

/-- A signature with one dynamic texture. -/
def movingSignature : Signature where
  name := "moving"
  bindingIndex := 1
  resources := [
    { name := "g_Other", stages := .singleton .pixel, arraySize := 1
      resourceType := .textureSrv, varType := .dynamic }]
  immutableSamplers := []

/-- A signature with resources of all variable types. -/
def mixedSignature : Signature where
  name := "mixed"
  bindingIndex := 0
  resources := [
    { name := "g_Constants", stages := .singleton .pixel, arraySize := 1
      resourceType := .constantBuffer, varType := .static },
    { name := "g_Dynamic", stages := .singleton .pixel, arraySize := 1
      resourceType := .constantBuffer, varType := .dynamic },
    { name := "g_Texture", stages := .singleton .pixel, arraySize := 1
      resourceType := .textureSrv, varType := .mutable }]
  immutableSamplers := []

theorem ofSignatures_mixedSignature :
    (ofSignatures .vulkan [movingSignature, mixedSignature]).map
        (fun l => (l.setCount, l.bindings.map fun b => (b.name, b.set, b.binding))) =
      .ok (3, [("g_Constants", 0, 0), ("g_Dynamic", 1, 0), ("g_Texture", 0, 1),
        ("g_Other", 2, 0)]) := by
  have horder : Signature.inBindingOrder [movingSignature, mixedSignature] =
      [mixedSignature, movingSignature] := by
    simp [Signature.inBindingOrder, List.mergeSort, movingSignature, mixedSignature]
  rw [ofSignatures, horder]
  decide

/-- Given in the reverse order, the two signatures use three sets, the last of which is that of the
signature without static resources. -/
theorem ofSignatures_vulkan_mixedSignature :
    ∃ layout, ofSignatures .vulkan [movingSignature, mixedSignature] = .ok layout ∧
      layout.bindings.map (fun b => (b.name, b.set, b.binding)) =
        [("g_Constants", 0, 0), ("g_Dynamic", 1, 0), ("g_Texture", 0, 1), ("g_Other", 2, 0)] ∧
      UsesSets (·.set.toNat) (·.binding.toNat) LayoutBinding.isDynamic 0 3
        (layout.signatures.map (·.bindings)) := by
  obtain ⟨layout, groups, hlayout, -, -, -, hstored, hsets, -, hfits⟩ :=
    ofSignatures_vulkan [movingSignature, mixedSignature]
  have hplaces := ofSignatures_mixedSignature
  rw [hlayout] at hplaces
  obtain ⟨hcount, hbindings⟩ := Prod.mk.inj (Except.ok.inj hplaces)
  have hlength : groups.flatten.length = 4 := calc
    groups.flatten.length = (groups.map (·.map Numbered.stored)).flatten.length := by
      rw [← List.map_flatten, List.length_map]
    _ = (layout.bindings.map fun b => (b.name, b.set, b.binding)).length := by
      rw [← hstored, ← List.flatMap_def, List.length_map, bindings]
    _ = 4 := by rw [hbindings]; rfl
  rw [hcount] at hsets hfits
  refine ⟨layout, hlayout, hbindings, (hfits fun x hx => ?_).1⟩
  have hlt := hsets.lt hx
  rw [hlength] at hlt
  have hsize : UInt32.size = 4294967296 := rfl
  omega

end PipelineLayout

end PipelineArchive
