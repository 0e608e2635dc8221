import Mathlib.Data.List.Dedup
import Mathlib.Data.List.Perm.Subperm
import Mathlib.Data.List.Sublists
import PipelineArchive.Proofs.Layout.Tiling
import PipelineArchive.Proofs.Patch.Arguments
import PipelineArchive.Proofs.Patch.Places

/-!
# Slots of arguments

An argument that belongs to no resource is given the next slot of its table when it first occurs,
and keeps it. What has been handed out in a table are therefore the slots from the first free one
on, in a row (`HandedOut`), counted in words. There are no more placeholders than words, so that no
slot is handed out twice (`eq_of_slotOf_eq`); but words have room for these slots behind the
bindings of the table only if these do not end too late (`Behind.hasRoom`, `HasRoom.behind`).
-/

set_option autoImplicit false

namespace PipelineArchive.Patch.Metal

open Text LayoutBinding Results
open SignatureLayout (argumentKey)

/-- The table of an argument and its placeholder. -/
abbrev Key : Type := MetalArgument × UInt32

/-- The arguments of a text in the order in which they occur. -/
def arguments (pieces : List Piece) : List Key :=
  pieces.filterMap fun
    | .copied _ => none
    | .argument table digits => some (table, placeholder digits)

namespace Slots

/-- The slot of an argument that belongs to a resource, if it does. -/
def resource? (s : Slots) (key : Key) : Option UInt32 :=
  lastValue? (UInt32.ofNat key.1.ordinal, key.2) s.resources

/-- The slot of an argument, if it belongs to a resource or has been given one. -/
def slot? (s : Slots) (key : Key) : Option UInt32 :=
  match s.resource? key with
  | some slot => some slot
  | none => s.others.lookup key

/-- The slots with one more handed out. -/
def handOut (s : Slots) (key : Key) : Slots :=
  { s with others := (key, s.nextFree key.1) :: s.others
           nextFree := s.nextFree.set key.1 (s.nextFree key.1 + 1) }

/-- The slots after an argument has been given its slot. -/
def next (s : Slots) (key : Key) : Slots := if (s.slot? key).isSome then s else s.handOut key

/-- What is handed out in a table. -/
def inTable (s : Slots) (table : MetalArgument) : List (Key × UInt32) :=
  s.others.filter fun o => o.1.1 = table

section

variable {s : Slots} {key other : Key}

theorem slot?_handOut_self (h : s.slot? key = none) :
    (s.handOut key).slot? key = some (s.nextFree key.1) := by
  unfold slot? at h ⊢
  have hresource : (s.handOut key).resource? key = s.resource? key := rfl
  rw [hresource]
  cases hown : s.resource? key with
  | some slot =>
    rw [hown] at h
    cases h
  | none => simp [handOut]

theorem slot?_handOut_of_some {slot : UInt32} (h : s.slot? key = none)
    (hslot : s.slot? other = some slot) : (s.handOut key).slot? other = some slot := by
  have hne : other ≠ key := by
    rintro rfl
    rw [h] at hslot
    cases hslot
  have hlookup : (s.handOut key).others.lookup other = s.others.lookup other := by
    rw [handOut, List.lookup_cons, beq_false_of_ne hne]
  unfold slot? at hslot ⊢
  rwa [hlookup]

/-- An argument keeps its slot, or is given the next one of its table. -/
theorem take_eq (a : Argument) :
    s.take a = ((s.slot? (a.table, a.placeholder)).getD (s.nextFree a.table),
      s.next (a.table, a.placeholder)) := by
  unfold take next slot? resource?
  cases lastValue? (UInt32.ofNat a.table.ordinal, a.placeholder) s.resources with
  | some slot => rfl
  | none => cases s.others.lookup (a.table, a.placeholder) <;> rfl

theorem slot?_next_self :
    (s.next key).slot? key = some ((s.slot? key).getD (s.nextFree key.1)) := by
  rw [next]
  cases hslot : s.slot? key with
  | some slot => exact hslot
  | none => exact slot?_handOut_self hslot

theorem slot?_next_of_some {slot : UInt32} (h : s.slot? other = some slot) :
    (s.next key).slot? other = some slot := by
  rw [next]
  split
  · exact h
  · rename_i hnone
    exact slot?_handOut_of_some (Option.not_isSome_iff_eq_none.1 hnone) h

/-- A slot that was handed out is kept. -/
theorem slot?_foldl_of_some {slot : UInt32} (ks : List Key) (h : s.slot? key = some slot) :
    (ks.foldl next s).slot? key = some slot := by
  induction ks generalizing s with
  | nil => exact h
  | cons k ks ih => exact ih (slot?_next_of_some h)

end

end Slots

/-! ## The patched text -/

theorem assignFrom_skip (s : Slots) (read rest : List Char) :
    assignFrom s read.length (read ++ rest) = assignFrom s 0 rest := by
  induction read with
  | nil => rfl
  | cons c read ih => exact ih

/-- An argument is replaced by its slot. -/
theorem assignFrom_indexText (s : Slots) {table : MetalArgument} {digits : List Char}
    (hdigits : IsIndex digits) (rest : List Char) :
    assignFrom s 0 (indexText table digits ++ rest) =
      slotText table ((s.slot? (table, placeholder digits)).getD (s.nextFree table)) ++
        assignFrom (s.next (table, placeholder digits)) 0 rest := by
  have hread : argument? (indexText table digits ++ rest) =
      some ⟨table, placeholder digits, (indexText table digits).length⟩ :=
    argument?_eq_some_iff.2 ⟨table, digits, rest, hdigits, rfl, rfl⟩
  obtain ⟨c, word, hcons, -⟩ := exists_indexText table hdigits
  rw [hcons, List.cons_append] at hread ⊢
  rw [assignFrom, hread]
  simp only [Slots.take_eq, List.length_cons, Nat.add_sub_cancel]
  rw [← List.length_cons, ← List.length_cons, assignFrom_skip]

/-- Each argument is written with the slot that it has at the end, whenever that was handed
out. -/
theorem IsCut.assignFrom_eq {pieces : List Piece} (h : IsCut pieces) (s : Slots) :
    assignFrom s 0 (pieces.flatMap Piece.text) =
      (pieces.map (Piece.withSlot fun table placeholder =>
        (((arguments pieces).foldl Slots.next s).slot? (table, placeholder)).getD 0)).flatMap
          Piece.text := by
  induction h generalizing s with
  | nil => rfl
  | @copied c pieces hnone hpieces ih =>
    have hread : argument? (c :: pieces.flatMap Piece.text) = none := argument?_eq_none_iff.2 hnone
    rw [List.flatMap_cons, Piece.text, List.singleton_append, assignFrom, hread]
    simp only
    rw [ih]
    rfl
  | @argument table digits pieces hdigits hpieces ih =>
    have hslot : ((arguments pieces).foldl Slots.next (s.next (table, placeholder digits))).slot?
        (table, placeholder digits) = some _ :=
      Slots.slot?_foldl_of_some (arguments pieces) Slots.slot?_next_self
    rw [List.flatMap_cons, Piece.text, assignFrom_indexText s hdigits, ih, slotText_eq]
    simp only [arguments, List.filterMap_cons, List.foldl_cons, List.map_cons, List.flatMap_cons,
      Piece.withSlot, Piece.text]
    rw [arguments] at hslot
    rw [hslot]
    rfl

/-! ## Slots in a row -/

namespace Slots

variable {s : Slots} {key : Key} {first : Tally MetalArgument}

/-- From the first slots of each table on, slots were handed out in a row, each to another argument
that belongs to no resource. -/
structure HandedOut (first : Tally MetalArgument) (s : Slots) : Prop where
  nodup : (s.others.map (·.1)).Nodup
  resource?_eq : ∀ o ∈ s.others, s.resource? o.1 = none
  slots : ∀ table, (s.inTable table).map (·.2) =
    ((List.range (s.inTable table).length).map fun i => first table + UInt32.ofNat i).reverse
  nextFree : ∀ table, s.nextFree table = first table + UInt32.ofNat (s.inTable table).length

theorem slot?_eq_none_iff :
    s.slot? key = none ↔ s.resource? key = none ∧ ∀ o ∈ s.others, o.1 ≠ key := by
  unfold slot?
  cases s.resource? key with
  | some slot => simp
  | none =>
    rw [List.lookup_eq_none_iff]
    simp only [bne_iff_ne, ne_comm, true_and]

namespace HandedOut

theorem start (layout : PipelineLayout) (places : List (ReflectedResource × LayoutBinding)) :
    HandedOut (Slots.start layout places).nextFree (Slots.start layout places) where
  nodup := List.nodup_nil
  resource?_eq := List.forall_mem_nil _
  slots _ := rfl
  nextFree _ := (UInt32.add_zero _).symm

/-- The next slot of a table continues the row. -/
theorem handOut (h : s.HandedOut first) (hnone : s.slot? key = none) :
    (s.handOut key).HandedOut first := by
  obtain ⟨hresource, hnew⟩ := slot?_eq_none_iff.1 hnone
  have hinTable (table : MetalArgument) : (s.handOut key).inTable table =
      if key.1 = table then (key, s.nextFree key.1) :: s.inTable table else s.inTable table := by
    rw [inTable, Slots.handOut, List.filter_cons]
    simp only [decide_eq_true_eq]
    rfl
  refine ⟨?_, List.forall_mem_cons.2 ⟨hresource, h.resource?_eq⟩, fun table => ?_, fun table => ?_⟩
  · refine List.nodup_cons.2 ⟨fun hmem => ?_, h.nodup⟩
    obtain ⟨o, ho, heq⟩ := List.mem_map.1 hmem
    exact hnew o ho heq
  · rw [hinTable]
    split
    · rename_i htable
      subst htable
      rw [List.map_cons, List.length_cons, List.range_succ, List.map_append, List.map_singleton,
        List.reverse_concat, h.slots, h.nextFree]
    · exact h.slots table
  · rw [hinTable]
    change s.nextFree.set key.1 (s.nextFree key.1 + 1) table = _
    rw [Tally.set]
    by_cases htable : key.1 = table
    · subst htable
      rw [if_pos rfl, if_pos rfl, h.nextFree, List.length_cons, UInt32.ofNat_add,
        UInt32.add_assoc]
      rfl
    · rw [if_neg htable, if_neg (Ne.symm htable), h.nextFree]

theorem next (h : s.HandedOut first) (key : Key) : (s.next key).HandedOut first := by
  rw [Slots.next]
  split
  · exact h
  · rename_i hnone
    exact h.handOut (Option.not_isSome_iff_eq_none.1 hnone)

theorem foldl (h : s.HandedOut first) (ks : List Key) :
    (ks.foldl Slots.next s).HandedOut first := by
  induction ks generalizing s with
  | nil => exact h
  | cons k ks ih => exact ih (h.next k)

theorem mem_inTable {table : MetalArgument} {o : Key × UInt32} :
    o ∈ s.inTable table ↔ o ∈ s.others ∧ o.1.1 = table := by
  rw [inTable, List.mem_filter, decide_eq_true_eq]

/-- What was handed out in a table are the slots from the first one on. -/
theorem exists_other_iff_lt (h : s.HandedOut first) {table : MetalArgument} {slot : UInt32} :
    (∃ o ∈ s.others, o.1.1 = table ∧ o.2 = slot) ↔
      ∃ i < (s.inTable table).length, slot = first table + UInt32.ofNat i := by
  have hmem : slot ∈ (s.inTable table).map (·.2) ↔
      ∃ i < (s.inTable table).length, slot = first table + UInt32.ofNat i := by
    simp [h.slots, eq_comm]
  rw [← hmem, List.mem_map]
  simp only [mem_inTable, and_assoc]

/-- An argument has the slot that was handed out to it. -/
theorem slot?_eq (h : s.HandedOut first) {o : Key × UInt32} (ho : o ∈ s.others) :
    s.slot? o.1 = some o.2 := by
  unfold slot?
  rw [h.resource?_eq o ho]
  cases hlookup : s.others.lookup o.1 with
  | none =>
    have hne := List.lookup_eq_none_iff.1 hlookup o ho
    rw [bne_self_eq_false] at hne
    cases hne
  | some slot =>
    obtain ⟨before, after, hothers, -⟩ := List.lookup_eq_some_iff.1 hlookup
    have hmem : (o.1, slot) ∈ s.others := by
      rw [hothers]
      exact List.mem_append_right _ List.mem_cons_self
    rw [← List.inj_on_of_nodup_map h.nodup hmem ho rfl]

end HandedOut

/-- Slots are handed out to the arguments that have none. -/
theorem exists_other_foldl_iff (ks : List Key) :
    (∃ o ∈ (ks.foldl next s).others, o.1 = key) ↔
      (∃ o ∈ s.others, o.1 = key) ∨ key ∈ ks ∧ s.slot? key = none := by
  induction ks generalizing s with
  | nil => simp
  | cons k ks ih =>
    rw [List.foldl_cons, ih, List.mem_cons, next]
    by_cases hkey : key = k
    · subst hkey
      cases hslot : s.slot? key with
      | some slot => simp [hslot]
      | none => simp [handOut]
    · have hhandOut : (s.handOut k).slot? key = none ↔ s.slot? key = none := by
        rw [slot?_eq_none_iff, slot?_eq_none_iff]
        simp [handOut, resource?, Ne.symm hkey]
      have hother : (∃ o ∈ (s.handOut k).others, o.1 = key) ↔ ∃ o ∈ s.others, o.1 = key := by
        simp [handOut, Ne.symm hkey]
      rw [or_iff_right hkey]
      split
      · rfl
      · rw [hother, hhandOut]

theorem resource?_foldl (ks : List Key) : (ks.foldl next s).resource? key = s.resource? key := by
  induction ks generalizing s with
  | nil => rfl
  | cons k ks ih =>
    rw [List.foldl_cons, ih, next]
    split <;> rfl

end Slots

/-! ## Reflected arguments -/

/-- Whether a reflected resource is that of an argument: its set is the number of the table, and
its binding the placeholder. -/
def isReflected (resources : List ReflectedResource) (key : Key) : Bool :=
  resources.any fun r => r.set == UInt32.ofNat key.1.ordinal && r.binding == key.2

/-- The arguments of a table that belong to no resource, each once. -/
def strangers (resources : List ReflectedResource) (pieces : List Piece) (table : MetalArgument) :
    List Key :=
  ((arguments pieces).filter fun key => key.1 = table && !isReflected resources key).dedup

theorem isReflected_iff {resources : List ReflectedResource} {key : Key} :
    isReflected resources key = true ↔
      ∃ r ∈ resources, r.set = UInt32.ofNat key.1.ordinal ∧ r.binding = key.2 := by
  simp [isReflected]

theorem mem_strangers_iff {resources : List ReflectedResource} {pieces : List Piece}
    {table : MetalArgument} {key : Key} : key ∈ strangers resources pieces table ↔
      key.1 = table ∧ key ∈ arguments pieces ∧ isReflected resources key = false := by
  rw [strangers, List.mem_dedup, List.mem_filter, Bool.and_eq_true, decide_eq_true_eq,
    Bool.not_eq_true', and_left_comm]

section

variable {layout : PipelineLayout} {places : List (ReflectedResource × LayoutBinding)}
  {pieces : List Piece}

theorem resource?_start_eq_none_iff {key : Key} :
    (Slots.start layout places).resource? key = none ↔
      isReflected (places.map (·.1)) key = false := by
  rw [← Bool.not_eq_true, isReflected_iff, Slots.resource?, Slots.start, lastValue?_eq_none_iff]
  simp only [List.forall_mem_map, not_exists, not_and, ne_eq, Prod.mk.injEq]

/-- The slots after all arguments of a text. -/
def finalSlots (layout : PipelineLayout) (places : List (ReflectedResource × LayoutBinding))
    (pieces : List Piece) : Slots :=
  (arguments pieces).foldl Slots.next (.start layout places)

theorem handedOut_finalSlots :
    (finalSlots layout places pieces).HandedOut (Slots.start layout places).nextFree :=
  (Slots.HandedOut.start layout places).foldl _

/-- Slots have been handed out to the arguments that belong to no resource. -/
theorem exists_other_iff {key : Key} :
    (∃ o ∈ (finalSlots layout places pieces).others, o.1 = key) ↔
      key ∈ arguments pieces ∧ isReflected (places.map (·.1)) key = false := by
  rw [finalSlots, Slots.exists_other_foldl_iff, Slots.slot?_eq_none_iff,
    resource?_start_eq_none_iff]
  simp [Slots.start]

theorem length_inTable (table : MetalArgument) :
    ((finalSlots layout places pieces).inTable table).length =
      (strangers (places.map (·.1)) pieces table).length := by
  have hnodup : (((finalSlots layout places pieces).inTable table).map (·.1)).Nodup :=
    (List.filter_sublist.map _).nodup handedOut_finalSlots.nodup
  have hmem (key : Key) : key ∈ ((finalSlots layout places pieces).inTable table).map (·.1) ↔
      key ∈ strangers (places.map (·.1)) pieces table := by
    have hother : (∃ o ∈ (finalSlots layout places pieces).others, o.1 = key) ↔ _ :=
      exists_other_iff
    rw [mem_strangers_iff, ← hother, List.mem_map]
    constructor
    · rintro ⟨o, ho, rfl⟩
      obtain ⟨hmem, htable⟩ := Slots.HandedOut.mem_inTable.1 ho
      exact ⟨htable, o, hmem, rfl⟩
    · rintro ⟨htable, o, hmem, rfl⟩
      exact ⟨o, Slots.HandedOut.mem_inTable.2 ⟨hmem, htable⟩, rfl⟩
  have hperm := (List.perm_ext_iff_of_nodup hnodup (List.nodup_dedup _)).2 hmem
  rw [← List.length_map (·.1), hperm.length_eq]
  rfl

/-! ## The first free slots -/

/-- The first slot of a table that is behind its bindings, as far as words tell. -/
def firstFree (layout : PipelineLayout) (table : MetalArgument) : UInt32 :=
  ((under argumentKey table layout.bindings).map stop).foldl max 0

theorem nextFree_start (table : MetalArgument) :
    (Slots.start layout places).nextFree table = firstFree layout table := by
  have hfold (bs : List LayoutBinding) (used : Tally MetalArgument) :
      bs.foldl (fun next b =>
        let table := MetalArgument.of b.resourceType
        Tally.set next table (max (next table) (b.binding + b.span))) used table =
      ((under argumentKey table bs).map stop).foldl max (used table) := by
    induction bs generalizing used with
    | nil => rfl
    | cons b bs ih =>
      rw [List.foldl_cons, ih]
      simp only [Tally.set]
      by_cases htable : MetalArgument.of b.resourceType = table
      · have hunder : under argumentKey table (b :: bs) = b :: under argumentKey table bs :=
          List.filter_cons_of_pos (decide_eq_true (congrArg some htable))
        rw [if_pos htable.symm, hunder, List.map_cons, List.foldl_cons, htable]
        rfl
      · have hunder : under argumentKey table (b :: bs) = under argumentKey table bs :=
          List.filter_cons_of_neg (by simpa [argumentKey] using htable)
        rw [if_neg (Ne.symm htable), hunder]
  exact hfold layout.bindings fun _ => 0

theorem firstFree_le_iff {table : MetalArgument} {bound : Nat} :
    (firstFree layout table).toNat ≤ bound ↔
      ∀ b ∈ layout.bindings, MetalArgument.of b.resourceType = table → b.stop.toNat ≤ bound := by
  rw [firstFree, toNat_foldl_max_le_iff, List.forall_mem_map]
  simp [under, argumentKey]

/-- Where the bindings of a table are tiled, and the slots fit in words, the first free slot is
their number of slots. -/
theorem toNat_firstFree {table : MetalArgument}
    (h : Tiled (under argumentKey table layout.bindings))
    (hfits : slotSum (under argumentKey table layout.bindings) < UInt32.size) :
    (firstFree layout table).toNat = slotSum (under argumentKey table layout.bindings) := by
  have hmem {b : LayoutBinding} (hb : b ∈ layout.bindings)
      (htable : MetalArgument.of b.resourceType = table) :
      b ∈ under argumentKey table layout.bindings :=
    List.mem_filter.2 ⟨hb, decide_eq_true (congrArg some htable)⟩
  have hstop {b : LayoutBinding} (hb : b ∈ under argumentKey table layout.bindings) :
      b.stop.toNat = b.binding.toNat + b.slotCount :=
    toNat_add_span (Nat.lt_of_le_of_lt (h.stop_le hb) hfits)
  refine Nat.le_antisymm (firstFree_le_iff.2 fun b hb htable => ?_) ?_
  · rw [hstop (hmem hb htable)]
    exact h.stop_le (hmem hb htable)
  · by_cases hnone : slotSum (under argumentKey table layout.bindings) = 0
    · rw [hnone]
      exact Nat.zero_le _
    · -- the last slot is one of a binding
      have hslot : slotSum (under argumentKey table layout.bindings) - 1 ∈
          (under argumentKey table layout.bindings).flatMap slots := by
        rw [h, List.mem_range]
        omega
      obtain ⟨b, hb, hslot⟩ := List.mem_flatMap.1 hslot
      rw [slots, List.mem_range'_1] at hslot
      obtain ⟨hmem, htable⟩ := List.mem_filter.1 hb
      have hle := firstFree_le_iff.1 (Nat.le_refl (firstFree layout table).toNat) b hmem
        (Option.some.inj (of_decide_eq_true htable))
      rw [hstop hb] at hle
      omega

/-! ## The slots of a text -/

/-- The slot that an argument has in the end. -/
def slotOf (layout : PipelineLayout) (places : List (ReflectedResource × LayoutBinding))
    (pieces : List Piece) (table : MetalArgument) (placeholder : UInt32) : UInt32 :=
  ((finalSlots layout places pieces).slot? (table, placeholder)).getD 0

/-- The slot of a resource is the one it has from the start. -/
theorem slotOf_of_resource? {key : Key} {slot : UInt32}
    (h : (Slots.start layout places).resource? key = some slot) :
    slotOf layout places pieces key.1 key.2 = slot := by
  have hfinal : (finalSlots layout places pieces).resource? key = some slot :=
    (Slots.resource?_foldl _).trans h
  rw [slotOf, Slots.slot?, hfinal]
  rfl

/-- The slot of any other argument is the one that was handed out to it. -/
theorem exists_slotOf_eq {key : Key} (hkey : key ∈ arguments pieces)
    (hforeign : isReflected (places.map (·.1)) key = false) :
    ∃ o ∈ (finalSlots layout places pieces).others, o.1 = key ∧
      slotOf layout places pieces key.1 key.2 = o.2 := by
  obtain ⟨o, ho, rfl⟩ := exists_other_iff.2 ⟨hkey, hforeign⟩
  refine ⟨o, ho, rfl, ?_⟩
  rw [slotOf, handedOut_finalSlots.slot?_eq ho]
  rfl

/-- The arguments of a table that belong to no resource have the slots from the first free one
on. -/
theorem exists_stranger_iff {table : MetalArgument} {slot : UInt32} :
    (∃ key ∈ strangers (places.map (·.1)) pieces table,
        slotOf layout places pieces key.1 key.2 = slot) ↔
      ∃ i < (strangers (places.map (·.1)) pieces table).length,
        slot = firstFree layout table + UInt32.ofNat i := by
  have hlength : ((finalSlots layout places pieces).inTable table).length =
      (strangers (places.map (·.1)) pieces table).length := length_inTable table
  have hfirst : (Slots.start layout places).nextFree table = firstFree layout table :=
    nextFree_start table
  rw [← hlength, ← hfirst, ← handedOut_finalSlots.exists_other_iff_lt]
  constructor
  · rintro ⟨key, hkey, rfl⟩
    obtain ⟨rfl, hkey, hforeign⟩ := mem_strangers_iff.1 hkey
    obtain ⟨o, ho, rfl, hslot⟩ := exists_slotOf_eq hkey hforeign
    exact ⟨o, ho, rfl, hslot.symm⟩
  · rintro ⟨o, ho, rfl, rfl⟩
    obtain ⟨hkey, hforeign⟩ := exists_other_iff.1 ⟨o, ho, rfl⟩
    refine ⟨o.1, mem_strangers_iff.2 ⟨rfl, hkey, hforeign⟩, ?_⟩
    rw [slotOf, handedOut_finalSlots.slot?_eq ho]
    rfl

/-- The arguments that belong to no resource are behind all bindings of their tables. -/
def Behind (layout : PipelineLayout) (resources : List ReflectedResource) (pieces : List Piece)
    (slot : MetalArgument → UInt32 → UInt32) : Prop :=
  ∀ key ∈ arguments pieces, isReflected resources key = false →
    ∀ b ∈ layout.bindings, MetalArgument.of b.resourceType = key.1 →
      b.binding.toNat + b.slotCount ≤ (slot key.1 key.2).toNat

/-- Different arguments of a table have different slots, unless both belong to resources. -/
def Apart (resources : List ReflectedResource) (pieces : List Piece)
    (slot : MetalArgument → UInt32 → UInt32) : Prop :=
  ∀ key ∈ arguments pieces, ∀ other ∈ arguments pieces, key.1 = other.1 → key ≠ other →
    ¬(isReflected resources key ∧ isReflected resources other) →
      slot key.1 key.2 ≠ slot other.1 other.2

/-- Behind each binding words have room for the arguments of its table that belong to no resource,
if there are any. -/
def HasRoom (layout : PipelineLayout) (resources : List ReflectedResource) (pieces : List Piece) :
    Prop :=
  ∀ b ∈ layout.bindings, strangers resources pieces (MetalArgument.of b.resourceType) ≠ [] →
    b.binding.toNat + b.slotCount +
      (strangers resources pieces (MetalArgument.of b.resourceType)).length ≤ UInt32.size

theorem toNat_add_ofNat {first : UInt32} {i : Nat} (h : first.toNat + i < UInt32.size) :
    (first + UInt32.ofNat i).toNat = first.toNat + i := by
  rw [UInt32.toNat_add, UInt32.toNat_ofNat_of_lt' (by omega)]
  exact Nat.mod_eq_of_lt h

/-- Where words have room behind each binding, all of them end before the first free slot, and the
slots from there on do not come round. -/
theorem HasRoom.behind (h : HasRoom layout (places.map (·.1)) pieces) :
    Behind layout (places.map (·.1)) pieces (slotOf layout places pieces) := by
  intro key hkey hforeign b hb htable
  have hstranger : key ∈ strangers (places.map (·.1)) pieces key.1 :=
    mem_strangers_iff.2 ⟨rfl, hkey, hforeign⟩
  have hfits {c : LayoutBinding} (hc : c ∈ layout.bindings)
      (hkey : MetalArgument.of c.resourceType = key.1) :
      c.stop.toNat = c.binding.toNat + c.slotCount ∧ c.binding.toNat + c.slotCount +
        (strangers (places.map (·.1)) pieces key.1).length ≤ UInt32.size := by
    have hroom := h c hc
    rw [hkey] at hroom
    have hends := hroom (List.ne_nil_of_mem hstranger)
    have hpos := List.length_pos_of_mem hstranger
    exact ⟨toNat_add_span (by omega), hends⟩
  -- no binding of the table comes round, so the first free slot is behind all of them
  have hfirst : (firstFree layout key.1).toNat ≤
      UInt32.size - (strangers (places.map (·.1)) pieces key.1).length := by
    refine firstFree_le_iff.2 fun c hc hkey => ?_
    obtain ⟨hstop, hends⟩ := hfits hc hkey
    omega
  obtain ⟨i, hi, hslot⟩ := exists_stranger_iff.1 ⟨key, hstranger, rfl⟩
  obtain ⟨hstop, hends⟩ := hfits hb htable
  have hle := firstFree_le_iff.1 (Nat.le_refl (firstFree layout key.1).toNat) b hb htable
  rw [hslot, toNat_add_ofNat (by omega)]
  omega

theorem patchShader_eq_ok_iff {backend : Backend} {shader : CompiledShader} {code : Bytes} :
    patchShader backend layout shader = .ok code ↔
      ∃ places text, resolveAll backend layout shader = .ok places ∧
        shader.code = Bytes.ofText text ∧
        code = Bytes.ofText (String.ofList (assignSlots (.start layout places) text.toList)) := by
  constructor
  · intro h
    obtain ⟨places, hplaces, h⟩ := bind_eq_ok_iff.1 h
    obtain ⟨text, htext, h⟩ := bind_eq_ok_iff.1 h
    exact ⟨places, text, hplaces, (Utf8.ofText_of_decode? (mapError_eq_ok_iff.1 htext)).symm,
      (Except.ok.inj h).symm⟩
  · rintro ⟨places, text, hplaces, hcode, rfl⟩
    refine bind_eq_ok_iff.2 ⟨places, hplaces, bind_eq_ok_iff.2 ⟨text, ?_, rfl⟩⟩
    rw [mapError_eq_ok_iff, hcode, Utf8.decode?_ofText]

theorem assignSlots_eq (h : IsCut pieces) :
    assignSlots (.start layout places) (pieces.flatMap Piece.text) =
      (pieces.map (Piece.withSlot (slotOf layout places pieces))).flatMap Piece.text :=
  h.assignFrom_eq _

end

theorem table_eq_of_ordinal {table other : MetalArgument}
    (h : UInt32.ofNat table.ordinal = UInt32.ofNat other.ordinal) : table = other := by
  cases table <;> cases other <;> first | rfl | exact absurd h (by decide)

/-- Where the slots of a layout of Metal fit in words, its bindings are tiled in each table and fit
into it. -/
theorem tiled_arguments {backend : Backend} (hbackend : backend.isMetal)
    {signatures : List Signature} {layout : PipelineLayout}
    (h : PipelineLayout.ofSignatures backend signatures = .ok layout)
    (hfits : ∀ table, slotSum (under argumentKey table layout.bindings) < UInt32.size)
    (table : MetalArgument) :
    Tiled (under argumentKey table layout.bindings) ∧
      slotSum (under argumentKey table layout.bindings) ≤ table.slotLimit := by
  have hsum (table : MetalArgument) := PipelineLayout.slotSum_under_bindings argumentKey table h
  refine ⟨PipelineLayout.tiled_of_countsUp (SignatureLayout.countsUp_metal hbackend) rfl h
    (hfits table), ?_⟩
  simp only [hsum] at hfits ⊢
  exact (PipelineLayout.exists_ofSignatures_metal_iff hbackend hfits).1 ⟨layout, h⟩ table

/-- An argument takes thirteen characters at least, so a text of few characters has few of them. -/
theorem length_strangers_le {pieces : List Piece} (h : IsCut pieces)
    (resources : List ReflectedResource) (table : MetalArgument) :
    13 * (strangers resources pieces table).length ≤ (pieces.flatMap Piece.text).length := by
  have harguments : 13 * (arguments pieces).length ≤ (pieces.flatMap Piece.text).length := by
    induction h with
    | nil => exact Nat.zero_le _
    | @copied c pieces _ _ ih =>
      rw [List.flatMap_cons, List.length_append]
      exact Nat.le_trans ih (Nat.le_add_left _ _)
    | @argument table digits pieces hdigits _ ih =>
      have hlength : 13 ≤ (indexText table digits).length := by
        have hpos := List.length_pos_iff.2 hdigits.1
        have hname : 6 ≤ (tableName table).length := by cases table <;> decide
        simp only [indexText, List.length_append, List.length_singleton]
        have hends : "[[".toList.length = 2 ∧ ")]]".toList.length = 3 := by decide
        omega
      have hcount : (arguments (.argument table digits :: pieces)).length =
          (arguments pieces).length + 1 := rfl
      rw [List.flatMap_cons, List.length_append, hcount, Piece.text]
      omega
  have hle : (strangers resources pieces table).length ≤ (arguments pieces).length :=
    ((List.dedup_sublist _).trans List.filter_sublist).length_le
  omega

section

variable {layout : PipelineLayout} {places : List (ReflectedResource × LayoutBinding)}
  {pieces : List Piece}

end

/-- A signature with three buffers and a texture. -/
def kernelSignature : Signature where
  name := "S"
  bindingIndex := 0
  resources := [
    { name := "Other", stages := .singleton .compute, arraySize := 1
      resourceType := .bufferSrv, varType := .static },
    { name := "Data", stages := .singleton .compute, arraySize := 1
      resourceType := .bufferUav, varType := .static },
    { name := "tex", stages := .singleton .compute, arraySize := 1
      resourceType := .textureSrv, varType := .static },
    { name := "Params", stages := .singleton .compute, arraySize := 1
      resourceType := .constantBuffer, varType := .static }]
  immutableSamplers := []

/-- A kernel with two buffers and a texture that are resources, and a table of buffer sizes that
is none. -/
def kernelText : String :=
  "kernel void k(P& p [[buffer(0)]], D& d [[buffer(1)]], uint* s [[buffer(2)]], T t [[texture(0)]])"

def patchedKernelText : String :=
  "kernel void k(P& p [[buffer(2)]], D& d [[buffer(1)]], uint* s [[buffer(3)]], T t [[texture(0)]])"

def kernelShader : CompiledShader where
  backend := .metalMacos
  language := .glsl
  code := Bytes.ofText kernelText
  entryPoint := "main0"
  reflection := {
    stage := .compute
    entryPoint := "main0"
    resources := [
      ⟨"Params", .constantBuffer, 0, 0, 1, .singleton .compute⟩,
      ⟨"Data", .bufferUav, 0, 1, 1, .singleton .compute⟩,
      ⟨"tex", .textureSrv, 1, 0, 1, .singleton .compute⟩]
    vertexInputs := [] }

/-- Where the signature places the resources on Metal. -/
def kernelLayout : PipelineLayout where
  backend := .metalMacos
  signatures := [{
    backend := .metalMacos, name := "S", bindingIndex := 0, setCount := 0
    bindings := [
      ⟨"Other", .bufferSrv, .static, .singleton .compute, 1, 0, 0, false⟩,
      ⟨"Data", .bufferUav, .static, .singleton .compute, 1, 0, 1, false⟩,
      ⟨"tex", .textureSrv, .static, .singleton .compute, 1, 1, 0, false⟩,
      ⟨"Params", .constantBuffer, .static, .singleton .compute, 1, 0, 2, false⟩] }]

theorem ofSignatures_kernelSignature :
    PipelineLayout.ofSignatures .metalMacos [kernelSignature] = .ok kernelLayout := by
  rw [PipelineLayout.ofSignatures, Signature.inBindingOrder, List.mergeSort_singleton]
  decide

theorem patchShader_kernelShader :
    patchShader .metalMacos kernelLayout kernelShader = .ok (Bytes.ofText patchedKernelText) := by
  have hassigned : assignSlots (.start kernelLayout (kernelShader.reflection.resources.zip
      [⟨"Params", .constantBuffer, .static, .singleton .compute, 1, 0, 2, false⟩,
        ⟨"Data", .bufferUav, .static, .singleton .compute, 1, 0, 1, false⟩,
        ⟨"tex", .textureSrv, .static, .singleton .compute, 1, 1, 0, false⟩])) kernelText.toList =
      patchedKernelText.toList := by decide +kernel
  rw [← String.ofList_toList (s := patchedKernelText), ← hassigned]
  exact patchShader_eq_ok_iff.2 ⟨_, kernelText, rfl, rfl, rfl⟩

end PipelineArchive.Patch.Metal
