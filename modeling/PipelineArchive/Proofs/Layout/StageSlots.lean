import Mathlib.Order.Nat
import PipelineArchive.Proofs.Description.Stages
import PipelineArchive.Proofs.Layout.Slots

/-!
# Slots of stages

On Direct3D11 every stage counts the slots of a range for itself, and a resource has one slot for
all the stages that see it. It gets the first slot behind all earlier resources of its range that
share a stage with it (`freeSlot`): the counters of the stages hold where these end (`Counts`),
and the slot is the largest of them. As far as all ends fit in words (`SlotsFit`), resources that
compete for slots never overlap, and a pipeline is refused for the first resource whose slots pass
the limit of their range in a stage that sees it (`ofSignatures_d3d11`). A resource that no stage
sees takes slots in no stage, and has no limit.
-/

set_option autoImplicit false

namespace PipelineArchive

/-! ## Slots before limits are checked -/

/-- Whether resources compete for slots: they have the same range, and some stage sees both. -/
def LayoutBinding.Competes (a b : LayoutBinding) : Prop :=
  a.resourceType.range = b.resourceType.range ∧
    ∃ stage ∈ ShaderStage.all, a.stages.contains stage ∧ b.stages.contains stage

instance (a b : LayoutBinding) : Decidable (a.Competes b) :=
  inferInstanceAs (Decidable (_ ∧ _))

/-- A resource of a signature with its first slot, before this is stored as a word. -/
structure Slotted where
  signature : String
  resource : LayoutBinding
  slot : Nat

namespace Slotted

/-- The resource in its place. -/
def stored (x : Slotted) : LayoutBinding := x.resource.placedAt 0 (UInt32.ofNat x.slot)

/-- The first slot behind a resource. -/
def stop (x : Slotted) : Nat := x.slot + x.resource.slotCount

/-- The number of slots of the range in each stage. -/
def limit (x : Slotted) : Nat := x.resource.resourceType.range.slotLimit

/-- Whether some stage that sees the resource has not slots enough for it. -/
def PassesLimit (x : Slotted) : Prop := x.resource.stages.toList ≠ [] ∧ x.limit < x.stop

/-- The report of a resource that has not slots enough in a stage. -/
def refusal (x : Slotted) (stage : ShaderStage) : ArchiveError :=
  .patching .d3d11 (.slotLimit x.resource.name x.signature x.resource.resourceType.range
    (x.stop - 1) stage x.limit)

/-- The report of a resource that passes the limit, which names the first of its stages. -/
def refusal? (x : Slotted) : Option ArchiveError :=
  if x.limit < x.stop then x.resource.stages.toList.head?.map x.refusal else none

theorem refusal?_eq_none_iff {x : Slotted} : x.refusal? = none ↔ ¬x.PassesLimit := by
  unfold refusal? PassesLimit
  split
  · rename_i hpast
    rw [Option.map_eq_none_iff, List.head?_eq_none_iff]
    simp [hpast]
  · rename_i hfits
    exact iff_of_true rfl fun h => hfits h.2

theorem refusal?_eq_some_iff {x : Slotted} {e : ArchiveError} :
    x.refusal? = some e ↔
      x.PassesLimit ∧
        ∃ stage, x.resource.stages.toList.head? = some stage ∧ e = x.refusal stage := by
  unfold refusal? PassesLimit
  split
  · rename_i hpast
    rw [Option.map_eq_some_iff]
    cases x.resource.stages.toList with
    | nil => simp
    | cons stage rest => simp [hpast, eq_comm]
  · rename_i hfits
    exact iff_of_false (by simp) fun h => hfits h.1.2

end Slotted

open LayoutBinding

/-- The first slot behind all resources that compete with a resource. -/
def freeSlot (before : List Slotted) (b : LayoutBinding) : Nat :=
  ((before.filter (·.resource.Competes b)).map Slotted.stop).foldl max 0

/-- Resources of signatures after others, each in the first slot that is free for it. -/
def slottedAfter (before : List Slotted) : List (String × LayoutBinding) → List Slotted
  | [] => []
  | (signature, b) :: rest =>
      ⟨signature, b, freeSlot before b⟩ ::
        slottedAfter (before ++ [⟨signature, b, freeSlot before b⟩]) rest

/-- The resources of a signature, with its name. -/
def Signature.named (s : Signature) : List (String × LayoutBinding) :=
  (SignatureLayout.unplaced s).map fun b => (s.name, b)

/-- All resources of a pipeline in the order of the signatures, in the first free slots. -/
def slotted (signatures : List Signature) : List Slotted :=
  slottedAfter [] ((Signature.inBindingOrder signatures).flatMap Signature.named)

/-- The slots of a pipeline fit in words: so do the ends of all of its resources. -/
def SlotsFit (signatures : List Signature) : Prop :=
  ∀ x ∈ slotted signatures, x.stop < UInt32.size

theorem freeSlot_le_iff {before : List Slotted} {b : LayoutBinding} {bound : Nat} :
    freeSlot before b ≤ bound ↔ ∀ x ∈ before, x.resource.Competes b → x.stop ≤ bound := by
  rw [freeSlot, foldl_max_le_iff, and_iff_right (Nat.zero_le _)]
  simp only [List.forall_mem_map, List.mem_filter, decide_eq_true_eq, and_imp]

theorem slottedAfter_append (before : List Slotted) (xs ys : List (String × LayoutBinding)) :
    slottedAfter before (xs ++ ys) =
      slottedAfter before xs ++ slottedAfter (before ++ slottedAfter before xs) ys := by
  induction xs generalizing before with
  | nil => rw [slottedAfter, List.nil_append, List.nil_append, List.append_nil]
  | cons first rest ih =>
    rw [List.cons_append, slottedAfter, slottedAfter, ih, List.cons_append, List.append_assoc]
    rfl

/-- A resource is behind those before it that it competes with. -/
theorem stop_le_slot {before : List Slotted} {resources : List (String × LayoutBinding)}
    {x y : Slotted} (hx : x ∈ before) (hy : y ∈ slottedAfter before resources)
    (hcompetes : x.resource.Competes y.resource) : x.stop ≤ y.slot := by
  induction resources generalizing before with
  | nil => cases hy
  | cons first rest ih =>
    rcases List.mem_cons.1 hy with rfl | hy
    · exact freeSlot_le_iff.1 (Nat.le_refl _) x hx hcompetes
    · exact ih (List.mem_append_left _ hx) hy

theorem pairwise_slottedAfter (before : List Slotted) (resources : List (String × LayoutBinding)) :
    (slottedAfter before resources).Pairwise fun x y =>
      x.resource.Competes y.resource → x.stop ≤ y.slot := by
  induction resources generalizing before with
  | nil => exact .nil
  | cons first rest ih =>
    exact .cons (fun y hy => stop_le_slot (List.mem_append_right _ List.mem_cons_self) hy) (ih _)

/-! ## Counters of stages -/

namespace SignatureLayout

/-- The counters tell for every stage and range where the resources end that were placed. -/
def Counts (used : Tally (ShaderStage × DescriptorRange)) (before : List Slotted) : Prop :=
  ∀ stage range bound, (used (stage, range)).toNat ≤ bound ↔
    ∀ x ∈ before, x.resource.resourceType.range = range → x.resource.stages.contains stage →
      x.stop ≤ bound

variable {used : Tally (ShaderStage × DescriptorRange)} {before : List Slotted}

/-- The largest counter of the stages that see a resource. -/
def nextSlot (used : Tally (ShaderStage × DescriptorRange)) (b : LayoutBinding) : UInt32 :=
  (b.stages.toList.map fun stage => used (stage, b.resourceType.range)).foldl max 0

/-- The counters after a resource that ends at a slot. -/
def raise (used : Tally (ShaderStage × DescriptorRange)) (b : LayoutBinding) (stop : UInt32) :
    Tally (ShaderStage × DescriptorRange) :=
  b.stages.toList.foldl (fun used stage => used.set (stage, b.resourceType.range) stop) used

theorem nextSlot_le_iff {b : LayoutBinding} {bound : Nat} :
    (nextSlot used b).toNat ≤ bound ↔
      ∀ stage ∈ b.stages.toList, (used (stage, b.resourceType.range)).toNat ≤ bound := by
  rw [nextSlot, toNat_foldl_max_le_iff, List.forall_mem_map]

theorem mem_toList {stages : StageSet} {stage : ShaderStage} :
    stage ∈ stages.toList ↔ stages.contains stage := by
  simp [StageSet.toList, ShaderStage.mem_all]

/-- The largest counter is the first free slot. -/
theorem nextSlot_eq (hcounts : Counts used before) (b : LayoutBinding) :
    (nextSlot used b).toNat = freeSlot before b := by
  -- both are largest values, and so are equal if the same numbers bound them
  refine eq_of_forall_ge_iff fun bound => ?_
  rw [nextSlot_le_iff, freeSlot_le_iff]
  simp only [mem_toList, hcounts _ _ bound]
  constructor
  · rintro h x hx ⟨hrange, stage, -, hxs, hbs⟩
    exact h stage hbs x hx hrange hxs
  · intro h stage hbs x hx hrange hxs
    exact h x hx ⟨hrange, stage, ShaderStage.mem_all stage, hxs, hbs⟩

theorem raise_apply (b : LayoutBinding) (stop : UInt32) (stage : ShaderStage)
    (range : DescriptorRange) :
    raise used b stop (stage, range) =
      if b.stages.contains stage ∧ range = b.resourceType.range then stop
      else used (stage, range) := by
  -- the stages are general, for they grow fewer along the fold
  have hfold : ∀ (stages : List ShaderStage) (used : Tally (ShaderStage × DescriptorRange)),
      stages.foldl (fun used s => used.set (s, b.resourceType.range) stop) used (stage, range) =
        if stage ∈ stages ∧ range = b.resourceType.range then stop else used (stage, range) := by
    intro stages
    induction stages with
    | nil => simp
    | cons first rest ih =>
      intro used
      rw [List.foldl_cons, ih]
      by_cases hrange : range = b.resourceType.range <;>
        by_cases hfirst : stage = first <;>
        simp [Tally.set, hrange, hfirst]
  rw [raise, hfold]
  simp only [mem_toList]

/-- The counters go on telling where the resources end. -/
theorem Counts.raise (hcounts : Counts used before) (signature : String) {b : LayoutBinding}
    (hfits : freeSlot before b + b.slotCount < UInt32.size) :
    Counts (raise used b (nextSlot used b + b.span))
      (before ++ [⟨signature, b, freeSlot before b⟩]) := by
  intro stage range bound
  have hstop : (nextSlot used b + b.span).toNat = freeSlot before b + b.slotCount := by
    rw [← nextSlot_eq hcounts b] at hfits ⊢
    exact toNat_add_span hfits
  rw [raise_apply]
  simp only [List.forall_mem_append, List.forall_mem_singleton]
  -- a counter that is raised covers the earlier resources too, as they compete with the new one
  split
  · rename_i hown
    obtain ⟨hstage, rfl⟩ := hown
    rw [hstop]
    constructor
    · intro hbound
      refine ⟨fun x hx hrange hxs => ?_, fun _ _ => hbound⟩
      have hcompetes : x.resource.Competes b :=
        ⟨hrange, stage, ShaderStage.mem_all stage, hxs, hstage⟩
      have := freeSlot_le_iff.1 (Nat.le_refl _) x hx hcompetes
      omega
    · exact fun h => h.2 rfl hstage
  · rename_i hother
    rw [hcounts stage range bound]
    refine (and_iff_left ?_).symm
    exact fun hrange hstage => absurd ⟨hstage, hrange.symm⟩ hother

theorem counts_nil : Counts (fun _ => 0) [] := by
  intro stage range bound
  simp

/-- Direct3D11 gives a resource the first slot that is free for it, or refuses it. -/
theorem placeD3d11_eq (signature : String) {b : LayoutBinding}
    (hfits : (nextSlot used b).toNat + b.slotCount < UInt32.size) :
    placeD3d11 signature used b =
      match (Slotted.mk signature b (nextSlot used b).toNat).refusal? with
      | some e => .error e
      | none => .ok (b.placedAt 0 (nextSlot used b), raise used b (nextSlot used b + b.span)) := by
  cases hstages : b.stages.toList with
  | nil => simp [placeD3d11, Slotted.refusal?, nextSlot, raise, hstages]
  | cons stage rest =>
    have hwords : placeD3d11 signature used b =
        if b.resourceType.range.slotLimit < (nextSlot used b + b.span).toNat then
          .error (.patching .d3d11 (.slotLimit b.name signature b.resourceType.range
            ((nextSlot used b + b.span).toNat - 1) stage b.resourceType.range.slotLimit))
        else .ok (b.placedAt 0 (nextSlot used b), raise used b (nextSlot used b + b.span)) := by
      simp only [placeD3d11, nextSlot, SignatureLayout.raise, hstages]
    rw [toNat_add_span hfits] at hwords
    have hplace : placeD3d11 signature used b =
        if (Slotted.mk signature b (nextSlot used b).toNat).limit <
            (Slotted.mk signature b (nextSlot used b).toNat).stop then
          .error ((Slotted.mk signature b (nextSlot used b).toNat).refusal stage)
        else .ok (b.placedAt 0 (nextSlot used b), raise used b (nextSlot used b + b.span)) :=
      hwords
    rw [hplace, Slotted.refusal?, hstages]
    split <;> rfl

/-- Resources are refused for the first of them that passes its limit. -/
theorem placeAll_placeD3d11 (hcounts : Counts used before) (signature : String)
    {bs : List LayoutBinding}
    (hfits : ∀ x ∈ slottedAfter before (bs.map (signature, ·)), x.stop < UInt32.size) :
    (∃ e, (slottedAfter before (bs.map (signature, ·))).findSome? Slotted.refusal? = some e ∧
      placeAll (placeD3d11 signature) used bs = .error e) ∨
    ((slottedAfter before (bs.map (signature, ·))).findSome? Slotted.refusal? = none ∧
      ∃ next, placeAll (placeD3d11 signature) used bs =
          .ok ((slottedAfter before (bs.map (signature, ·))).map Slotted.stored, next) ∧
        Counts next (before ++ slottedAfter before (bs.map (signature, ·)))) := by
  induction bs generalizing used before with
  | nil => exact .inr ⟨rfl, used, rfl, by rwa [List.map_nil, slottedAfter, List.append_nil]⟩
  | cons b rest ih =>
    rw [List.map_cons, slottedAfter, List.forall_mem_cons] at hfits
    obtain ⟨hfirst, hothers⟩ := hfits
    have hslot := nextSlot_eq hcounts b
    have hstored : nextSlot used b = UInt32.ofNat (freeSlot before b) := by
      rw [← hslot, UInt32.ofNat_toNat]
    rw [List.map_cons, slottedAfter, List.findSome?_cons, placeAll,
      placeD3d11_eq signature (hslot ▸ hfirst), hslot]
    cases hrefusal : (Slotted.mk signature b (freeSlot before b)).refusal? with
    | some e => exact .inl ⟨e, rfl, rfl⟩
    | none =>
      rcases ih (hcounts.raise signature hfirst) hothers with
        ⟨e, hfound, hrest⟩ | ⟨hnone, next, hrest, hnext⟩
      · exact .inl ⟨e, hfound, by simp only [hrest]⟩
      · refine .inr ⟨hnone, next, ?_, ?_⟩
        · simp only [hrest]
          rw [hstored]
          rfl
        · rwa [List.append_assoc] at hnext

/-- Signatures on Direct3D11 are refused for the first resource that passes its limit. -/
theorem allocate_d3d11 {counters : Counters} (hcounts : Counts counters.slots before)
    {signature : Signature}
    (hfits : ∀ x ∈ slottedAfter before signature.named, x.stop < UInt32.size) :
    (∃ e, (slottedAfter before signature.named).findSome? Slotted.refusal? = some e ∧
      allocate .d3d11 signature counters = .error e) ∨
    ((slottedAfter before signature.named).findSome? Slotted.refusal? = none ∧
      ∃ layout next, allocate .d3d11 signature counters = .ok (layout, next) ∧
        layout.bindings = (slottedAfter before signature.named).map Slotted.stored ∧
        Counts next.slots (before ++ slottedAfter before signature.named)) := by
  rcases placeAll_placeD3d11 hcounts signature.name hfits with
    ⟨e, hfirst, hplaced⟩ | ⟨hnone, next, hplaced, hnext⟩
  · exact .inl ⟨e, hfirst, by simp only [allocate, hplaced]; rfl⟩
  · exact .inr ⟨hnone, _, _, by simp only [allocate, hplaced]; rfl, rfl, hnext⟩

end SignatureLayout

/-! ## All signatures of a pipeline -/

namespace PipelineLayout

open SignatureLayout

theorem allocateAll_d3d11 {counters : Counters} {before : List Slotted}
    (hcounts : Counts counters.slots before) {signatures : List Signature}
    (hfits : ∀ x ∈ slottedAfter before (signatures.flatMap Signature.named),
      x.stop < UInt32.size) :
    (∃ e, (slottedAfter before (signatures.flatMap Signature.named)).findSome?
        Slotted.refusal? = some e ∧
      allocateAll .d3d11 counters signatures = .error e) ∨
    ((slottedAfter before (signatures.flatMap Signature.named)).findSome?
        Slotted.refusal? = none ∧
      ∃ layouts, allocateAll .d3d11 counters signatures = .ok layouts ∧
        layouts.flatMap (·.bindings) =
          (slottedAfter before (signatures.flatMap Signature.named)).map Slotted.stored) := by
  induction signatures generalizing counters before with
  | nil => exact .inr ⟨rfl, [], rfl, rfl⟩
  | cons signature rest ih =>
    rw [List.flatMap_cons, slottedAfter_append, List.forall_mem_append] at hfits
    rw [List.flatMap_cons, slottedAfter_append, List.findSome?_append, allocateAll]
    rcases allocate_d3d11 hcounts hfits.1 with
      ⟨e, hfirst, hlayout⟩ | ⟨hnone, layout, next, hlayout, hbindings, hnext⟩
    · exact .inl ⟨e, by rw [hfirst]; rfl, by rw [hlayout]⟩
    · rw [hnone, hlayout]
      rcases ih hnext hfits.2 with ⟨e, hfirst, hlayouts⟩ | ⟨hrest, layouts, hlayouts, hothers⟩
      · exact .inl ⟨e, hfirst, by simp only [hlayouts]⟩
      · refine .inr ⟨hrest, layout :: layouts, by simp only [hlayouts], ?_⟩
        rw [List.flatMap_cons, List.map_append, hbindings, hothers]

/-- A resource that some stage sees, and that does not pass its limit, has the slots that were
counted. -/
theorem slots_stored {x : Slotted} (h : ¬x.PassesLimit) {stage : ShaderStage}
    (hstage : x.resource.stages.contains stage) :
    x.stop ≤ x.limit ∧ x.stored.binding.toNat = x.slot := by
  have hstages : x.resource.stages.toList ≠ [] :=
    List.ne_nil_of_mem (mem_toList.2 hstage)
  have hstop : x.stop ≤ x.limit := Nat.not_lt.1 fun hpast => h ⟨hstages, hpast⟩
  have hlimit : x.limit < UInt32.size := by
    unfold Slotted.limit
    cases x.resource.resourceType.range <;> decide
  refine ⟨hstop, UInt32.toNat_ofNat_of_lt' ?_⟩
  exact Nat.lt_of_le_of_lt (Nat.le_trans (Nat.le_add_right _ _) hstop) hlimit

/-- Of resources that compete, and do not pass their limits, the one behind the other shares no slot
with it. -/
theorem disjoint_stored {x y : Slotted} (hx : ¬x.PassesLimit) (hy : ¬y.PassesLimit)
    (hcompetes : x.resource.Competes y.resource) (hbehind : x.stop ≤ y.slot) :
    x.stored.slots.Disjoint y.stored.slots := by
  obtain ⟨-, stage, -, hxs, hys⟩ := hcompetes
  have hsame : x.stored.slotCount = x.resource.slotCount := rfl
  unfold Slotted.stop at hbehind
  intro slot hslotX hslotY
  rw [slots, List.mem_range'_1, (slots_stored hx hxs).2] at hslotX
  rw [slots, List.mem_range'_1, (slots_stored hy hys).2] at hslotY
  omega

/-- On Direct3D11, as far as slots fit in words, every resource has the first slot behind all
earlier resources that compete with it. So resources of one range take no slot twice in a stage that
sees both, and no stage has more slots than its limit. Signatures are refused for the first
resource, in the order of the signatures and of their resources, whose slots would pass the limit of
its range in a stage that sees it. -/
theorem ofSignatures_d3d11 {signatures : List Signature} (hslots : SlotsFit signatures) :
    (∀ layout, ofSignatures .d3d11 signatures = .ok layout →
      layout.bindings = (slotted signatures).map Slotted.stored ∧
      layout.bindings.map withoutPlace =
        (Signature.inBindingOrder signatures).flatMap unplaced ∧
      (layout.bindings.Pairwise fun a b => a.Competes b → a.slots.Disjoint b.slots) ∧
      ∀ b ∈ layout.bindings, ∀ stage, b.stages.contains stage →
        b.binding.toNat + b.slotCount ≤ b.resourceType.range.slotLimit) ∧
    ∀ e, ofSignatures .d3d11 signatures = .error e →
      ∃ before x after stage, slotted signatures = before ++ x :: after ∧
        (∀ y ∈ before, ¬y.PassesLimit) ∧ x.PassesLimit ∧
        x.resource.stages.toList.head? = some stage ∧ e = x.refusal stage := by
  have hcounts : Counts ({} : Counters).slots [] := counts_nil
  have hall := allocateAll_d3d11 hcounts hslots
  refine ⟨fun layout h => ?_, fun e h => ?_⟩
  · obtain ⟨layouts, hlayouts, rfl⟩ := ofSignatures_eq_ok_iff.1 h
    rcases hall with ⟨e, -, herror⟩ | ⟨hnone, placed, hplaced, hbindings⟩
    · cases herror.symm.trans hlayouts
    · cases hplaced.symm.trans hlayouts
      replace hbindings : PipelineLayout.bindings ⟨.d3d11, layouts⟩ =
          (slotted signatures).map Slotted.stored := hbindings
      have hfits (x : Slotted) (hx : x ∈ slotted signatures) : ¬x.PassesLimit :=
        Slotted.refusal?_eq_none_iff.1 (List.findSome?_eq_none_iff.1 hnone x hx)
      refine ⟨hbindings, ofSignatures_spec h, ?_, ?_⟩
      · rw [hbindings]
        refine List.pairwise_map.2 ((pairwise_slottedAfter [] _).imp_of_mem ?_)
        intro x y hx hy hbehind hcompetes
        exact disjoint_stored (hfits x hx) (hfits y hy) hcompetes (hbehind hcompetes)
      · rw [hbindings, List.forall_mem_map]
        intro x hx stage hstage
        obtain ⟨hstop, hslot⟩ := slots_stored (hfits x hx) hstage
        rw [hslot]
        exact hstop
  · rcases hall with ⟨reason, hfirst, herror⟩ | ⟨-, layouts, hlayouts, -⟩
    · cases herror.symm.trans (ofSignatures_eq_error_iff.1 h)
      obtain ⟨before, x, after, hsplit, hx, hbefore⟩ := List.findSome?_eq_some_iff.1 hfirst
      obtain ⟨hpasses, stage, hstage, he⟩ := Slotted.refusal?_eq_some_iff.1 hx
      exact ⟨before, x, after, stage, hsplit,
        fun y hy => Slotted.refusal?_eq_none_iff.1 (hbefore y hy), hpasses, hstage, he⟩
    · cases hlayouts.symm.trans (ofSignatures_eq_error_iff.1 h)

/-- A signature with constants for two stages that overlap in one of them. -/
def sharedStageSignature : Signature where
  name := "shared"
  bindingIndex := 0
  resources := [
    { name := "g_Vertex", stages := .singleton .vertex, arraySize := 2
      resourceType := .constantBuffer, varType := .static },
    { name := "g_Pixel", stages := .singleton .pixel, arraySize := 1
      resourceType := .constantBuffer, varType := .static },
    { name := "g_Both", stages := .ofList [.vertex, .pixel], arraySize := 0
      resourceType := .constantBuffer, varType := .static }]
  immutableSamplers := []

/-- A resource of both stages is behind those of either, which share their first slot. -/
theorem ofSignatures_d3d11_sharedStage :
    SlotsFit [sharedStageSignature] ∧
    ∃ layout, ofSignatures .d3d11 [sharedStageSignature] = .ok layout ∧
      layout.bindings.map (fun b => (b.name, b.binding)) =
        [("g_Vertex", 0), ("g_Pixel", 0), ("g_Both", 2)] ∧
      layout.bindings.Pairwise fun a b => a.Competes b → a.slots.Disjoint b.slots := by
  have hslots : (ofSignatures .d3d11 [sharedStageSignature]).map
      (fun l => l.bindings.map fun b => (b.name, b.binding)) =
      .ok [("g_Vertex", 0), ("g_Pixel", 0), ("g_Both", 2)] := by
    rw [ofSignatures, Signature.inBindingOrder, List.mergeSort_singleton]
    decide
  have hfits : SlotsFit [sharedStageSignature] := by
    rw [SlotsFit, slotted, Signature.inBindingOrder, List.mergeSort_singleton]
    exact List.forall_mem_map.1 (by decide : ∀ stop ∈ List.map Slotted.stop _, stop < UInt32.size)
  obtain ⟨layout, hlayout, hbindings⟩ := Results.map_eq_ok_iff.1 hslots
  exact ⟨hfits, layout, hlayout, hbindings, ((ofSignatures_d3d11 hfits).1 layout hlayout).2.2.1⟩

/-- A signature with a large array that no stage sees, and too many samplers. -/
def unseenSignature : Signature where
  name := "unseen"
  bindingIndex := 0
  resources := [
    { name := "g_Unseen", stages := .empty, arraySize := 200
      resourceType := .textureSrv, varType := .static },
    { name := "g_Samplers", stages := .singleton .pixel, arraySize := 17
      resourceType := .sampler, varType := .static }]
  immutableSamplers := []

/-- The first resource that ends behind the limit of its range is not always the one that is
reported: a resource that no stage sees may end there, too. -/
theorem not_always_first_reported :
    ¬∀ signatures e, SlotsFit signatures → ofSignatures .d3d11 signatures = .error e →
      ∃ before x after stage, slotted signatures = before ++ x :: after ∧
        (∀ y ∈ before, y.stop ≤ y.limit) ∧ x.limit < x.stop ∧ e = x.refusal stage := by
  intro h
  have hslotted : (slotted [unseenSignature]).map (fun x => (x.resource.name, x.stop, x.limit)) =
      [("g_Unseen", 200, 128), ("g_Samplers", 17, 16)] := by
    rw [slotted, Signature.inBindingOrder, List.mergeSort_singleton]
    decide
  have hfits : SlotsFit [unseenSignature] := by
    intro x hx
    have hmem := List.mem_map_of_mem (f := fun x : Slotted => (x.resource.name, x.stop, x.limit)) hx
    rw [hslotted] at hmem
    have hsmall : ∀ ends ∈ [("g_Unseen", 200, 128), ("g_Samplers", 17, 16)],
        ends.2.1 < UInt32.size := by decide
    exact hsmall _ hmem
  have herror : ofSignatures .d3d11 [unseenSignature] =
      .error (.patching .d3d11 (.slotLimit "g_Samplers" "unseen" .sampler 16 .pixel 16)) := by
    rw [ofSignatures, Signature.inBindingOrder, List.mergeSort_singleton]
    decide
  obtain ⟨before, x, after, stage, hsplit, hbefore, -, he⟩ := h _ _ hfits herror
  rw [hsplit] at hslotted
  cases before with
  | nil =>
    -- the resource that no stage sees would be the one that is reported
    injection hslotted with hfirst
    have hname := congrArg Prod.fst hfirst
    unfold Slotted.refusal at he
    injection he with hbackend hfault
    injection hfault with hreported
    exact absurd (hreported.trans hname) (by decide)
  | cons y rest =>
    injection hslotted with hfirst
    have hends := hbefore y List.mem_cons_self
    simp only [Prod.mk.injEq] at hfirst
    omega

end PipelineLayout

end PipelineArchive
