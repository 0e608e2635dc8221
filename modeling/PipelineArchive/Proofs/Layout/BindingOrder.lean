import PipelineArchive.Proofs.Layout.Tiling

/-!
# Signatures in any order

Signatures with binding indices of their own have one binding order, however they are given
(`inBindingOrder_eq_of_perm`), and those below an index are the first in it
(`inBindingOrder_eq_append`). As signatures are laid out one after another, the layout of the
first of them is the beginning of the layout of all (`allocateAll_append`), and a signature that
is bound later moves nothing.
-/

set_option autoImplicit false

namespace PipelineArchive

namespace Signature

variable {signatures : List Signature}

theorem inBindingOrder_strict (h : signatures.Pairwise fun s t => s.bindingIndex ≠ t.bindingIndex) :
    (inBindingOrder signatures).Pairwise fun s t => s.bindingIndex < t.bindingIndex :=
  inBindingOrder_pairwise (checkIndices_eq_ok_iff.2 h)

/-- Signatures in strict order are the only ones of their kind. -/
theorem eq_of_perm_of_strict {xs ys : List Signature} (hperm : xs.Perm ys)
    (hxs : xs.Pairwise fun s t => s.bindingIndex < t.bindingIndex)
    (hys : ys.Pairwise fun s t => s.bindingIndex < t.bindingIndex) : xs = ys :=
  hperm.eq_of_pairwise (fun _ _ _ _ hst hts => absurd hts (UInt8.lt_asymm hst)) hxs hys

/-- The binding order does not depend on the order in which signatures are given. -/
theorem inBindingOrder_eq_of_perm
    (h : signatures.Pairwise fun s t => s.bindingIndex ≠ t.bindingIndex)
    {permuted : List Signature} (hperm : permuted.Perm signatures) :
    inBindingOrder permuted = inBindingOrder signatures := by
  have hpermuted : permuted.Pairwise fun s t => s.bindingIndex ≠ t.bindingIndex :=
    (hperm.pairwise_iff fun h => h.symm).2 h
  refine eq_of_perm_of_strict ?_ (inBindingOrder_strict hpermuted) (inBindingOrder_strict h)
  exact (inBindingOrder_perm permuted).trans (hperm.trans (inBindingOrder_perm signatures).symm)

/-- The signatures below an index are bound before the others. -/
theorem inBindingOrder_eq_append
    (h : signatures.Pairwise fun s t => s.bindingIndex ≠ t.bindingIndex) (k : Nat) :
    inBindingOrder signatures =
      inBindingOrder (signatures.filter (·.bindingIndex.toNat < k)) ++
        inBindingOrder (signatures.filter fun s => !decide (s.bindingIndex.toNat < k)) := by
  -- both sides have the same signatures in strict order
  have hpart (p : Signature → Bool) := inBindingOrder_perm (signatures.filter p)
  refine eq_of_perm_of_strict ?_ (inBindingOrder_strict h) (List.pairwise_append.2 ⟨?_, ?_, ?_⟩)
  · exact (inBindingOrder_perm signatures).trans
      ((List.filter_append_perm _ signatures).symm.trans ((hpart _).symm.append (hpart _).symm))
  · exact inBindingOrder_strict (h.filter _)
  · exact inBindingOrder_strict (h.filter _)
  · intro s hs t ht
    have hlow := (List.mem_filter.1 ((hpart _).mem_iff.1 hs)).2
    have hhigh := (List.mem_filter.1 ((hpart _).mem_iff.1 ht)).2
    rw [decide_eq_true_eq] at hlow
    rw [Bool.not_eq_true', decide_eq_false_iff_not] at hhigh
    rw [UInt8.lt_iff_toNat_lt]
    omega

end Signature

/-- A layout is one of a signature: it has the name, the binding index and the resources of the
signature, in their order. -/
structure SignatureLayout.Places (layout : SignatureLayout) (signature : Signature) : Prop where
  name : layout.name = signature.name
  bindingIndex : layout.bindingIndex = signature.bindingIndex
  bindings : layout.bindings.map LayoutBinding.withoutPlace = SignatureLayout.unplaced signature

theorem SignatureLayout.allocate_places {backend : Backend} {signature : Signature}
    {counters next : Counters} {layout : SignatureLayout}
    (h : allocate backend signature counters = .ok (layout, next)) : layout.Places signature := by
  have hidentity : layout.name = signature.name ∧
      layout.bindingIndex = signature.bindingIndex := by
    cases backend <;>
      obtain ⟨_, -, h⟩ := Results.map_eq_ok_iff.1 h <;>
      cases h <;>
      exact ⟨rfl, rfl⟩
  exact ⟨hidentity.1, hidentity.2, by rw [allocate_spec h, map_withoutPlace_unplaced]⟩

namespace PipelineLayout

theorem allocateAll_places {backend : Backend} {counters : Counters} {signatures : List Signature}
    {layouts : List SignatureLayout} (h : allocateAll backend counters signatures = .ok layouts) :
    List.Forall₂ SignatureLayout.Places layouts signatures := by
  induction signatures generalizing counters layouts with
  | nil =>
    cases h
    exact .nil
  | cons signature rest ih =>
    obtain ⟨first, next, others, hfirst, hrest, rfl⟩ := allocateAll_cons_eq_ok_iff.1 h
    exact .cons (SignatureLayout.allocate_places hfirst) (ih hrest)

/-- The signatures of a pipeline are laid out one for one, in binding order. -/
theorem ofSignatures_places {backend : Backend} {signatures : List Signature}
    {layout : PipelineLayout} (h : ofSignatures backend signatures = .ok layout) :
    List.Forall₂ SignatureLayout.Places layout.signatures
      (Signature.inBindingOrder signatures) := by
  obtain ⟨layouts, hlayouts, rfl⟩ := ofSignatures_eq_ok_iff.1 h
  exact allocateAll_places hlayouts

/-- The layouts of first signatures are the first layouts of all. -/
theorem allocateAll_append {backend : Backend} {counters : Counters} {xs ys : List Signature}
    {layouts : List SignatureLayout}
    (h : allocateAll backend counters (xs ++ ys) = .ok layouts) :
    ∃ front back, allocateAll backend counters xs = .ok front ∧ layouts = front ++ back := by
  induction xs generalizing counters layouts with
  | nil => exact ⟨[], layouts, rfl, rfl⟩
  | cons signature rest ih =>
    obtain ⟨layout, next, others, hfirst, hrest, rfl⟩ := allocateAll_cons_eq_ok_iff.1 h
    obtain ⟨front, back, hfront, rfl⟩ := ih hrest
    exact ⟨layout :: front, back,
      allocateAll_cons_eq_ok_iff.2 ⟨layout, next, front, hfirst, hfront, rfl⟩, rfl⟩

/-- A layout begins with another one: it has the layouts of its signatures first, and so its
bindings. -/
def Begins (l part : PipelineLayout) : Prop :=
  part.backend = l.backend ∧ part.signatures <+: l.signatures ∧ part.bindings <+: l.bindings

/-- The signatures below an index are laid out as the beginning of the layout of all. -/
theorem exists_begins {backend : Backend} {signatures : List Signature}
    (hindices : signatures.Pairwise fun s t => s.bindingIndex ≠ t.bindingIndex)
    {layout : PipelineLayout} (h : ofSignatures backend signatures = .ok layout) (k : Nat) :
    ∃ part, ofSignatures backend (signatures.filter (·.bindingIndex.toNat < k)) = .ok part ∧
      layout.Begins part := by
  obtain ⟨layouts, hlayouts, rfl⟩ := ofSignatures_eq_ok_iff.1 h
  rw [Signature.inBindingOrder_eq_append hindices k] at hlayouts
  obtain ⟨front, back, hfront, rfl⟩ := allocateAll_append hlayouts
  refine ⟨⟨backend, front⟩, ofSignatures_eq_ok_iff.2 ⟨front, hfront, rfl⟩, rfl,
    List.prefix_append front back, ?_⟩
  rw [bindings, bindings, List.flatMap_append]
  exact List.prefix_append _ _

/-- Signatures with binding indices of their own are laid out alike in every order, with the same
error if they are refused. If they are laid out, those below any index are laid out alone, as the
beginning of the layout of all; so a signature that is bound behind others moves none of these. -/
theorem ofSignatures_ordered (backend : Backend) (signatures : List Signature)
    (hindices : signatures.Pairwise fun s t => s.bindingIndex ≠ t.bindingIndex) :
    (∀ permuted : List Signature, permuted.Perm signatures →
      ofSignatures backend permuted = ofSignatures backend signatures) ∧
    (∀ layout, ofSignatures backend signatures = .ok layout → ∀ k : Nat,
      ∃ part, ofSignatures backend (signatures.filter (·.bindingIndex.toNat < k)) = .ok part ∧
        layout.Begins part) ∧
    ∀ added layout, (∀ s ∈ signatures, s.bindingIndex < added.bindingIndex) →
      ofSignatures backend (added :: signatures) = .ok layout →
        ∃ part, ofSignatures backend signatures = .ok part ∧ layout.Begins part := by
  refine ⟨fun permuted hperm => ?_, fun layout h k => exists_begins hindices h k, ?_⟩
  · rw [ofSignatures, ofSignatures, Signature.inBindingOrder_eq_of_perm hindices hperm]
  · intro added layout hadded h
    have hall : (added :: signatures).Pairwise fun s t => s.bindingIndex ≠ t.bindingIndex :=
      .cons (fun s hs => (UInt8.ne_of_lt (hadded s hs)).symm) hindices
    have hbelow : (added :: signatures).filter
        (·.bindingIndex.toNat < added.bindingIndex.toNat) = signatures := by
      rw [List.filter_cons_of_neg (by simp), List.filter_eq_self]
      exact fun s hs => decide_eq_true (UInt8.lt_iff_toNat_lt.1 (hadded s hs))
    have hpart := exists_begins hall h added.bindingIndex.toNat
    rwa [hbelow] at hpart

/-- The two signatures are laid out alike in both orders, and the texture of the second takes the
slot behind those of the first, which has the same places alone. -/
theorem ofSignatures_ordered_overlaySignature :
    ([overlaySignature, arraySignature].Pairwise fun s t => s.bindingIndex ≠ t.bindingIndex) ∧
    ofSignatures .d3d11 [arraySignature, overlaySignature] =
      ofSignatures .d3d11 [overlaySignature, arraySignature] ∧
    ∃ layout part, ofSignatures .d3d11 [overlaySignature, arraySignature] = .ok layout ∧
      layout.bindings.map (fun b => (b.name, b.binding)) =
        [("g_Textures", 0), ("g_Samplers", 0), ("g_Shadow", 1), ("g_Overlay", 3)] ∧
      ofSignatures .d3d11 [arraySignature] = .ok part ∧ layout.Begins part := by
  have hindices : [overlaySignature, arraySignature].Pairwise fun s t =>
      s.bindingIndex ≠ t.bindingIndex := by decide
  obtain ⟨horder, hparts, -⟩ :=
    ofSignatures_ordered .d3d11 [overlaySignature, arraySignature] hindices
  have hslots : (ofSignatures .d3d11 [overlaySignature, arraySignature]).map
      (fun l => l.bindings.map fun b => (b.name, b.binding)) =
      .ok [("g_Textures", 0), ("g_Samplers", 0), ("g_Shadow", 1), ("g_Overlay", 3)] := by
    rw [ofSignatures, inBindingOrder_overlaySignature]
    decide
  obtain ⟨layout, hlayout, hplaces⟩ := Results.map_eq_ok_iff.1 hslots
  obtain ⟨part, hpart, hbegins⟩ := hparts layout hlayout 1
  exact ⟨hindices, horder _ (.swap _ _ _), layout, part, hlayout, hplaces, hpart, hbegins⟩

end PipelineLayout

end PipelineArchive
