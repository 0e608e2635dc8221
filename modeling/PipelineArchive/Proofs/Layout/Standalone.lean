import PipelineArchive.Proofs.Layout.DescriptorSets
import PipelineArchive.Proofs.Layout.StageSlots
import PipelineArchive.Proofs.Layout.Tiling

/-!
# Layouts of signatures alone

An archive has the layout of a signature as the only one of a pipeline. In a pipeline the
resources of the signature are the same, and their places are moved behind those of the signatures
before it: by their descriptor sets on Vulkan, by the slots they take under the same key on OpenGL
and Metal, and not at all on Direct3D12. On Direct3D11 places only grow (`Moved`). What a
signature needs to know of those before it is in their own layouts: these tell the counters that
it starts from (`Follows`), so that one signature after the other continues (`exists_continues`,
`ofSignatures_continues`). All of this is told in numbers, and the words that are counted in must be
able to hold these (`CountsFit`).
-/

set_option autoImplicit false

namespace PipelineArchive

namespace SignatureLayout

open LayoutBinding

/-! ## Moved places -/

/-- The slots that the resources of layouts take under each key. -/
def slotsTaken {κ : Type} [DecidableEq κ] (key : ResourceType → Option κ)
    (layouts : List SignatureLayout) : κ → Nat :=
  fun k => slotSum (under key k (layouts.flatMap (·.bindings)))

/-- A resource is moved by the slots that are taken under its key; one without a key has no
place. -/
def MovedBySlots {κ : Type} (key : ResourceType → Option κ) (taken : κ → Nat)
    (alone placed : LayoutBinding) : Prop :=
  match key alone.resourceType with
  | none => alone.binding = 0 ∧ placed.binding = 0
  | some k => placed.binding.toNat = alone.binding.toNat + taken k

/-- How the place of a resource in a pipeline stands to its place where its signature is alone, if
signatures with the given layouts of their own are before it. -/
def Moved (backend : Backend) (before : List SignatureLayout) (alone placed : LayoutBinding) :
    Prop :=
  match backend with
  | .vulkan =>
      placed.set.toNat = alone.set.toNat + (before.map (·.setCount.toNat)).sum ∧
        placed.binding = alone.binding
  | .d3d12 => placed.set = alone.set ∧ placed.binding = alone.binding
  | .d3d11 => placed.set = alone.set ∧ alone.binding ≤ placed.binding
  | .gl | .gles =>
      placed.set = alone.set ∧
        MovedBySlots GlRange.of? (slotsTaken GlRange.of? before) alone placed
  | .metalMacos | .metalIos =>
      placed.set = alone.set ∧
        MovedBySlots argumentKey (slotsTaken argumentKey before) alone placed

/-- A layout in a pipeline continues others: it is the layout that the signature has alone, but for
the places of resources, which are moved. -/
structure Continues (backend : Backend) (before : List SignatureLayout)
    (alone placed : SignatureLayout) : Prop where
  same : placed = { alone with bindings := placed.bindings }
  bindings : List.Forall₂ (fun a p => p.withoutPlace = a.withoutPlace ∧ Moved backend before a p)
    alone.bindings placed.bindings

/-- The numbers that go on from one signature to the next fit in words. -/
def CountsFit (backend : Backend) (layouts : List SignatureLayout) : Prop :=
  match backend with
  | .vulkan => (layouts.map (·.setCount.toNat)).sum < UInt32.size
  | .gl | .gles => ∀ range, slotsTaken GlRange.of? layouts range < UInt32.size
  | .metalMacos | .metalIos => ∀ table, slotsTaken argumentKey layouts table < UInt32.size
  | .d3d11 => ∀ b ∈ layouts.flatMap (·.bindings), b.binding.toNat + b.slotCount < UInt32.size
  | .d3d12 => True

/-- The counters are those that are told by the layouts that signatures have alone. -/
def Follows (backend : Backend) (before : List SignatureLayout) (counters : Counters) : Prop :=
  match backend with
  | .vulkan => counters.sets = UInt32.ofNat (before.map (·.setCount.toNat)).sum
  | .gl | .gles => counters.units = words (slotsTaken GlRange.of? before)
  | .metalMacos | .metalIos =>
      counters.arguments = words (slotsTaken argumentKey before) ∧
        ∀ table, slotsTaken argumentKey before table ≤ table.slotLimit
  | .d3d11 | .d3d12 => True

theorem slotsTaken_append {κ : Type} [DecidableEq κ] (key : ResourceType → Option κ)
    (xs ys : List SignatureLayout) (k : κ) :
    slotsTaken key (xs ++ ys) k = slotsTaken key xs k + slotsTaken key ys k := by
  rw [slotsTaken, List.flatMap_append, under_append, slotSum_append, slotsTaken, slotsTaken]

/-- The slots of a signature are those of its unplaced resources. -/
theorem slotsTaken_eq_count {κ : Type} [DecidableEq κ] (key : ResourceType → Option κ)
    (before : List SignatureLayout) {layout : SignatureLayout} {signature : Signature}
    (h : layout.bindings.map withoutPlace = (unplaced signature).map withoutPlace) :
    slotsTaken key (before ++ [layout]) =
      count key (slotsTaken key before) (unplaced signature) := by
  funext k
  rw [slotsTaken_append, count]
  congr 1
  rw [slotsTaken, List.flatMap_singleton]
  exact slotSum_under_congr h k

theorem CountsFit.of_append {backend : Backend} {xs ys : List SignatureLayout}
    (h : CountsFit backend (xs ++ ys)) : CountsFit backend xs := by
  have hslots {κ : Type} [DecidableEq κ] {key : ResourceType → Option κ}
      (h : ∀ k, slotsTaken key (xs ++ ys) k < UInt32.size) (k : κ) :
      slotsTaken key xs k < UInt32.size := by
    have := h k
    rw [slotsTaken_append] at this
    omega
  cases backend with
  | vulkan =>
    simp only [CountsFit, List.map_append, List.sum_append] at h ⊢
    omega
  | gl | gles | metalMacos | metalIos => exact hslots h
  | d3d11 =>
    rw [CountsFit, List.flatMap_append] at h
    exact fun b hb => h b (List.mem_append_left _ hb)
  | d3d12 => trivial

/-- Where a layout in a pipeline fits, the one that the signature has alone does. -/
theorem Continues.countsFit {backend : Backend} {before layouts rest : List SignatureLayout}
    {alone placed : SignatureLayout} (hcontinues : Continues backend before alone placed)
    (h : CountsFit backend (layouts ++ placed :: rest)) :
    CountsFit backend (layouts ++ alone :: rest) := by
  have hplaces : placed.bindings.map withoutPlace = alone.bindings.map withoutPlace := by
    rw [← List.forall₂_eq_eq_eq, List.forall₂_map_left_iff, List.forall₂_map_right_iff]
    exact hcontinues.bindings.flip.imp fun _ _ h => h.1
  have hcount : placed.setCount = alone.setCount := by rw [hcontinues.same]
  have hslots {κ : Type} [DecidableEq κ] {key : ResourceType → Option κ}
      (h : ∀ k, slotsTaken key (layouts ++ placed :: rest) k < UInt32.size) (k : κ) :
      slotsTaken key (layouts ++ alone :: rest) k < UInt32.size := by
    have := h k
    rw [slotsTaken_append] at this ⊢
    simp only [slotsTaken, List.flatMap_cons, under_append, slotSum_append] at this ⊢
    rwa [slotSum_under_congr hplaces] at this
  cases backend with
  | vulkan => simpa only [CountsFit, List.map_append, List.map_cons, hcount] using h
  | gl | gles | metalMacos | metalIos => exact hslots h
  | d3d11 =>
    simp only [CountsFit, List.flatMap_append, List.flatMap_cons, List.forall_mem_append] at h ⊢
    refine ⟨h.1, fun a ha => ?_, h.2.2⟩
    -- a resource ends no later alone than in the pipeline
    obtain ⟨p, hp, hsame, -, hle⟩ := Results.exists_of_mem_left hcontinues.bindings ha
    have hfits := h.2.1 p hp
    rw [UInt32.le_iff_toNat_le] at hle
    have hcounts : p.slotCount = a.slotCount := (congrArg slotCount hsame :)
    omega
  | d3d12 => trivial

/-! ## Slots that are counted up -/

/-- Where more slots were taken, resources have the same places behind these. -/
theorem serial_forall₂ {κ : Type} [DecidableEq κ] (key : ResourceType → Option κ)
    (set : ResourceType → UInt32) (used taken : κ → Nat) (bs : List LayoutBinding)
    (hfits : ∀ k, count key (fun k => used k + taken k) bs k < UInt32.size)
    (hplain : ∀ b ∈ bs, b.binding = 0) :
    List.Forall₂ (fun a p => p.withoutPlace = a.withoutPlace ∧ p.set = a.set ∧
        MovedBySlots key taken a p)
      (serial key set used bs) (serial key set (fun k => used k + taken k) bs) := by
  induction bs generalizing used with
  | nil => exact .nil
  | cons b rest ih =>
    have hcount : count key (fun k => used k + taken k) [b] =
        fun k => count key used [b] k + taken k := by
      funext k
      rw [count, count]
      omega
    rw [count_cons, hcount] at hfits
    rw [serial, serial, hcount]
    refine .cons ?_ (ih _ hfits fun c hc => hplain c (List.mem_cons_of_mem b hc))
    unfold serialPlace
    cases hkey : key b.resourceType with
    | none =>
      have hzero := hplain b List.mem_cons_self
      refine ⟨rfl, rfl, ?_⟩
      rw [MovedBySlots, hkey]
      exact ⟨hzero, hzero⟩
    | some k =>
      have hk := hfits k
      rw [count, count] at hk
      refine ⟨rfl, rfl, ?_⟩
      have hmoved : (words (fun k => used k + taken k) k).toNat =
          (words used k).toNat + taken k := by
        rw [toNat_words (by omega), toNat_words (by omega)]
      rw [MovedBySlots]
      simpa only [LayoutBinding.placedAt, hkey] using hmoved

/-- The resources of a signature have no bindings yet. -/
theorem binding_of_mem_unplaced {signature : Signature} {b : LayoutBinding}
    (hb : b ∈ unplaced signature) : b.binding = 0 := by
  rw [← map_withoutPlace_unplaced] at hb
  obtain ⟨c, -, rfl⟩ := List.mem_map.1 hb
  rfl

/-! ## One signature after others -/

/-- What a layout is apart from its bindings does not depend on the signatures before. -/
theorem allocate_same {backend : Backend} {signature : Signature}
    {counters counters' next next' : Counters} {alone placed : SignatureLayout}
    (halone : allocate backend signature counters = .ok (alone, next))
    (hplaced : allocate backend signature counters' = .ok (placed, next')) :
    placed = { alone with bindings := placed.bindings } := by
  cases backend <;>
    obtain ⟨_, _, hfirst⟩ := Results.map_eq_ok_iff.1 halone <;>
    obtain ⟨_, _, hsecond⟩ := Results.map_eq_ok_iff.1 hplaced <;>
    cases hfirst <;>
    cases hsecond <;>
    rfl

/-- Where slots are counted up, a signature behind others has its places behind their slots. -/
theorem CountsUp.moved {κ : Type} [DecidableEq κ] {backend : Backend} {tally : Counters → Tally κ}
    {key : ResourceType → Option κ} {set : ResourceType → UInt32}
    (hcounts : CountsUp backend tally key set) (hzero : tally {} = words fun _ => 0)
    {signature : Signature} {counters next next' : Counters} {alone placed : SignatureLayout}
    {before : List SignatureLayout}
    (halone : allocate backend signature {} = .ok (alone, next'))
    (hplaced : allocate backend signature counters = .ok (placed, next))
    (hbefore : tally counters = words (slotsTaken key before))
    (hfits : ∀ k, slotsTaken key (before ++ [placed]) k < UInt32.size) :
    List.Forall₂ (fun a p => p.withoutPlace = a.withoutPlace ∧ p.set = a.set ∧
        MovedBySlots key (slotsTaken key before) a p) alone.bindings placed.bindings ∧
      tally next = words (slotsTaken key (before ++ [alone])) := by
  obtain ⟨hfirst, -⟩ := hcounts _ _ _ _ _ hzero halone
  obtain ⟨hsecond, hnext⟩ := hcounts _ _ _ _ _ hbefore hplaced
  rw [slotsTaken_eq_count key before (allocate_spec hplaced)] at hfits
  constructor
  · have hmoved := serial_forall₂ key set (fun _ => 0) (slotsTaken key before)
      (unplaced signature)
    simp only [Nat.zero_add] at hmoved
    rw [hfirst, hsecond]
    exact hmoved hfits fun b hb => binding_of_mem_unplaced hb
  · rw [hnext, slotsTaken_eq_count key before (allocate_spec halone)]

/-- The sets of resources are counted from the first one. -/
theorem numbered_sets (first staticSet dynamicSet : Nat) (used : Bool → Nat)
    (bs : List LayoutBinding) :
    numbered (first + staticSet) (first + dynamicSet) used bs =
      (numbered staticSet dynamicSet used bs).map fun x => { x with set := first + x.set } := by
  induction bs generalizing used with
  | nil => rfl
  | cons b rest ih =>
    rw [numbered, numbered, ih, List.map_cons]
    split <;> rfl

theorem numberedFrom_eq (first : Nat) (bs : List LayoutBinding) :
    numberedFrom first bs =
      (numberedFrom 0 bs).map fun x => { x with set := first + x.set } := by
  rw [numberedFrom, numberedFrom, Nat.zero_add]
  exact numbered_sets first 0 (setsOf false bs) (fun _ => 0) bs

/-- On Vulkan a signature behind others has its sets behind theirs. -/
theorem moved_vulkan {signature : Signature} {counters next next' : Counters}
    {alone placed : SignatureLayout} {before : List SignatureLayout}
    (halone : allocate .vulkan signature {} = .ok (alone, next'))
    (hplaced : allocate .vulkan signature counters = .ok (placed, next))
    (hbefore : counters.sets = UInt32.ofNat (before.map (·.setCount.toNat)).sum)
    (hfits : (before.map (·.setCount.toNat)).sum + placed.setCount.toNat < UInt32.size) :
    List.Forall₂ (fun a p => p.withoutPlace = a.withoutPlace ∧ Moved .vulkan before a p)
        alone.bindings placed.bindings ∧
      next.sets = UInt32.ofNat ((before ++ [alone]).map (·.setCount.toNat)).sum := by
  obtain ⟨_, _, hfirst, -, -, hbindings, hcount, -⟩ := @allocate_vulkan signature {} 0 rfl
  obtain ⟨_, _, hsecond, -, -, hbindings', hcount', hnext⟩ := allocate_vulkan signature hbefore
  cases hfirst.symm.trans halone
  cases hsecond.symm.trans hplaced
  constructor
  · rw [hbindings, hbindings', numberedFrom_eq (before.map (·.setCount.toNat)).sum, List.map_map,
      List.forall₂_map_left_iff, List.forall₂_map_right_iff, List.forall₂_same]
    intro x hx
    have hlt := ((usesSets_numberedFrom 0 (unplaced signature)).lt
      (by rwa [List.flatten_singleton])).1
    refine ⟨rfl, ?_, rfl⟩
    show (UInt32.ofNat ((before.map (·.setCount.toNat)).sum + x.set)).toNat =
      (UInt32.ofNat x.set).toNat + (before.map (·.setCount.toNat)).sum
    rw [UInt32.toNat_ofNat_of_lt' (by omega), UInt32.toNat_ofNat_of_lt' (by omega), Nat.add_comm]
  · rw [hnext, List.map_append, List.sum_append, List.map_singleton, List.sum_singleton,
      hcount, hcount']

/-! ## Growing slots -/

section

variable {used used' next' : Tally (ShaderStage × DescriptorRange)} {signature : String}

theorem nextSlot_mono (hle : ∀ k, used k ≤ used' k) (b : LayoutBinding) :
    nextSlot used b ≤ nextSlot used' b := by
  rw [UInt32.le_iff_toNat_le, nextSlot_le_iff]
  intro stage hstage
  exact Nat.le_trans (UInt32.le_iff_toNat_le.1 (hle _))
    (nextSlot_le_iff.1 (Nat.le_refl (nextSlot used' b).toNat) stage hstage)

/-- A resource is placed at the next slot, whether stages see it or not. -/
theorem binding_of_placeD3d11 {next : Tally (ShaderStage × DescriptorRange)}
    {b placed : LayoutBinding} (h : placeD3d11 signature used b = .ok (placed, next)) :
    placed = b.placedAt 0 (nextSlot used b) := by
  simp only [placeD3d11] at h
  split at h
  · cases h
    rfl
  · split at h
    · cases h
    · cases h
      rfl

/-- Where a resource is placed behind more slots, it is placed behind fewer, and not later. -/
theorem placeD3d11_mono (hle : ∀ k, used k ≤ used' k) {b placed : LayoutBinding}
    (h : placeD3d11 signature used' b = .ok (placed, next'))
    (hfits : placed.binding.toNat + placed.slotCount < UInt32.size) :
    ∃ alone next, placeD3d11 signature used b = .ok (alone, next) ∧
      placed.withoutPlace = alone.withoutPlace ∧ placed.set = alone.set ∧
      alone.binding ≤ placed.binding ∧ ∀ k, next k ≤ next' k := by
  obtain rfl := binding_of_placeD3d11 h
  have hslot := nextSlot_mono hle b
  have hnumber := UInt32.le_iff_toNat_le.1 hslot
  replace hfits : (nextSlot used' b).toNat + b.slotCount < UInt32.size := hfits
  have hfits' : (nextSlot used b).toNat + b.slotCount < UInt32.size := by omega
  rw [placeD3d11_eq signature hfits] at h
  cases hrefusal : (Slotted.mk signature b (nextSlot used' b).toNat).refusal? with
  | some e =>
    rw [hrefusal] at h
    cases h
  | none =>
    rw [hrefusal] at h
    cases h
    have hplaced := Slotted.refusal?_eq_none_iff.1 hrefusal
    have hplaced' : ¬(Slotted.mk signature b (nextSlot used b).toNat).PassesLimit := by
      rintro ⟨hstages, hpast⟩
      exact hplaced ⟨hstages, Nat.lt_of_lt_of_le hpast (Nat.add_le_add_right hnumber _)⟩
    refine ⟨b.placedAt 0 (nextSlot used b), raise used b (nextSlot used b + b.span),
      by rw [placeD3d11_eq signature hfits', Slotted.refusal?_eq_none_iff.2 hplaced'],
      rfl, rfl, hslot, ?_⟩
    rintro ⟨stage, range⟩
    rw [raise_apply, raise_apply]
    split
    · rw [UInt32.le_iff_toNat_le, toNat_add_span hfits, toNat_add_span hfits']
      exact Nat.add_le_add_right hnumber _
    · exact hle _

theorem placeAll_placeD3d11_mono (hle : ∀ k, used k ≤ used' k) {bs placed : List LayoutBinding}
    (h : placeAll (placeD3d11 signature) used' bs = .ok (placed, next'))
    (hfits : ∀ b ∈ placed, b.binding.toNat + b.slotCount < UInt32.size) :
    ∃ alone next, placeAll (placeD3d11 signature) used bs = .ok (alone, next) ∧
      List.Forall₂ (fun a p => p.withoutPlace = a.withoutPlace ∧ p.set = a.set ∧
        a.binding ≤ p.binding) alone placed := by
  induction bs generalizing used used' placed with
  | nil =>
    cases h
    exact ⟨[], used, rfl, .nil⟩
  | cons b rest ih =>
    -- counters that were no larger before the first resource are no larger after it
    obtain ⟨moved, middle, others, hfirst, hrest, rfl⟩ := placeAll_cons_eq_ok_iff.1 h
    obtain ⟨hmoved, hothers⟩ := List.forall_mem_cons.1 hfits
    obtain ⟨own, next, hown, hsame, hset, hbinding, hnext⟩ := placeD3d11_mono hle hfirst hmoved
    obtain ⟨alone, last, halone, hmoved⟩ := ih hnext hrest hothers
    exact ⟨own :: alone, last, placeAll_cons_eq_ok_iff.2 ⟨own, next, alone, hown, halone, rfl⟩,
      .cons ⟨hsame, hset, hbinding⟩ hmoved⟩

end

/-! ## Signatures one after another -/

theorem standalone_eq_ok {backend : Backend} {signature : Signature} {alone : SignatureLayout}
    {next : Counters} (h : allocate backend signature {} = .ok (alone, next)) :
    standalone backend signature = .ok alone := Results.map_eq_ok_iff.2 ⟨_, h, rfl⟩

theorem continues_gl {backend : Backend} (hbackend : backend.isGl) {signature : Signature}
    {counters next : Counters} {placed : SignatureLayout} {before : List SignatureLayout}
    (htaken : counters.units = words (slotsTaken GlRange.of? before))
    (hfits : ∀ range, slotsTaken GlRange.of? (before ++ [placed]) range < UInt32.size)
    (h : allocate backend signature counters = .ok (placed, next)) :
    ∃ alone next', allocate backend signature {} = .ok (alone, next') ∧
      List.Forall₂ (fun a p => p.withoutPlace = a.withoutPlace ∧ p.set = a.set ∧
        MovedBySlots GlRange.of? (slotsTaken GlRange.of? before) a p)
          alone.bindings placed.bindings ∧
      next.units = words (slotsTaken GlRange.of? (before ++ [alone])) := by
  obtain ⟨⟨alone, next'⟩, halone⟩ := exists_allocate_gl hbackend signature {}
  exact ⟨alone, next', halone, (countsUp_gl hbackend).moved rfl halone h htaken hfits⟩

theorem continues_metal {backend : Backend} (hbackend : backend.isMetal) {signature : Signature}
    {counters next : Counters} {placed : SignatureLayout} {before : List SignatureLayout}
    (htaken : counters.arguments = words (slotsTaken argumentKey before))
    (hused : ∀ table, slotsTaken argumentKey before table ≤ table.slotLimit)
    (hfits : ∀ table, slotsTaken argumentKey (before ++ [placed]) table < UInt32.size)
    (h : allocate backend signature counters = .ok (placed, next)) :
    ∃ alone next', allocate backend signature {} = .ok (alone, next') ∧
      List.Forall₂ (fun a p => p.withoutPlace = a.withoutPlace ∧ p.set = a.set ∧
        MovedBySlots argumentKey (slotsTaken argumentKey before) a p)
          alone.bindings placed.bindings ∧
      next.arguments = words (slotsTaken argumentKey (before ++ [alone])) ∧
      ∀ table, slotsTaken argumentKey (before ++ [alone]) table ≤ table.slotLimit := by
  have hcount := slotsTaken_eq_count argumentKey before (allocate_spec h)
  have hlimits := (exists_allocate_metal_iff hbackend htaken hused (hcount ▸ hfits)).1 ⟨_, h⟩
  -- alone the signature has fewer slots before it
  have hle (table : MetalArgument) : count argumentKey (fun _ => 0) (unplaced signature) table ≤
      count argumentKey (slotsTaken argumentKey before) (unplaced signature) table :=
    Nat.add_le_add_right (Nat.zero_le _) _
  obtain ⟨⟨alone, next'⟩, halone⟩ :=
    (@exists_allocate_metal_iff _ hbackend {} _ rfl (fun _ => Nat.zero_le _) signature
      fun table => Nat.lt_of_le_of_lt (hle table) (hcount ▸ hfits table)).2
      fun table => Nat.le_trans (hle table) (hlimits table)
  obtain ⟨hmoved, hnext⟩ := (countsUp_metal hbackend).moved rfl halone h htaken hfits
  refine ⟨alone, next', halone, hmoved, hnext, ?_⟩
  rwa [slotsTaken_eq_count argumentKey before (allocate_spec halone)]

/-- A signature that is laid out behind others is laid out alone, and is moved behind the layouts
that these have alone. -/
theorem exists_continues {backend : Backend} {signature : Signature} {counters next : Counters}
    {placed : SignatureLayout} {before : List SignatureLayout}
    (hfollows : Follows backend before counters)
    (hfits : CountsFit backend (before ++ [placed]))
    (h : allocate backend signature counters = .ok (placed, next)) :
    ∃ alone, standalone backend signature = .ok alone ∧ Continues backend before alone placed ∧
      Follows backend (before ++ [alone]) next := by
  cases backend with
  | vulkan =>
    obtain ⟨alone, next', halone, -⟩ := @allocate_vulkan signature {} 0 rfl
    have hsets : (before.map (·.setCount.toNat)).sum + placed.setCount.toNat < UInt32.size := by
      simpa only [CountsFit, List.map_append, List.sum_append, List.map_singleton,
        List.sum_singleton] using hfits
    obtain ⟨hmoved, hnext⟩ := moved_vulkan halone h hfollows hsets
    exact ⟨alone, standalone_eq_ok halone, ⟨allocate_same halone h, hmoved⟩, hnext⟩
  | d3d12 =>
    obtain ⟨alone, halone, hbindings⟩ := allocate_d3d12 signature {}
    obtain ⟨own, hown, hbindings'⟩ := allocate_d3d12 signature counters
    cases hown.symm.trans h
    refine ⟨alone, standalone_eq_ok halone, ⟨allocate_same halone h, ?_⟩, trivial⟩
    rw [hbindings, hbindings', List.forall₂_same]
    exact fun _ _ => ⟨rfl, rfl, rfl⟩
  | d3d11 =>
    obtain ⟨⟨bindings, slots⟩, hplaced, hlayout⟩ := Results.map_eq_ok_iff.1 h
    have hbindings : bindings = placed.bindings := by
      cases hlayout
      rfl
    rw [CountsFit, List.flatMap_append, List.flatMap_singleton, ← hbindings] at hfits
    obtain ⟨alone, last, halone, hmoved⟩ :=
      placeAll_placeD3d11_mono (fun _ => UInt32.zero_le) hplaced
        fun b hb => hfits b (List.mem_append_right _ hb)
    have hstandalone : ∃ own next', allocate .d3d11 signature {} = .ok (own, next') ∧
        own.bindings = alone := ⟨_, _, Results.map_eq_ok_iff.2 ⟨_, halone, rfl⟩, rfl⟩
    obtain ⟨own, next', hown, rfl⟩ := hstandalone
    exact ⟨own, standalone_eq_ok hown, ⟨allocate_same hown h, hbindings ▸ hmoved⟩, trivial⟩
  | gl | gles =>
    obtain ⟨alone, next', halone, hmoved, hnext⟩ := continues_gl (by rfl) hfollows hfits h
    exact ⟨alone, standalone_eq_ok halone, ⟨allocate_same halone h, hmoved⟩, hnext⟩
  | metalMacos | metalIos =>
    obtain ⟨alone, next', halone, hmoved, hnext⟩ :=
      continues_metal (by rfl) hfollows.1 hfollows.2 hfits h
    exact ⟨alone, standalone_eq_ok halone, ⟨allocate_same halone h, hmoved⟩, hnext⟩

end SignatureLayout

namespace PipelineLayout

open LayoutBinding SignatureLayout

/-- Signatures one after another continue the layouts that those before them have alone. -/
theorem allocateAll_continues {backend : Backend} {counters : Counters}
    {before layouts : List SignatureLayout} {signatures : List Signature}
    (hfollows : Follows backend before counters) (hfits : CountsFit backend (before ++ layouts))
    (h : allocateAll backend counters signatures = .ok layouts) :
    ∃ alone, List.Forall₂ (fun s a => standalone backend s = .ok a) signatures alone ∧
      alone.length = layouts.length ∧
      ∀ i a p, alone[i]? = some a → layouts[i]? = some p →
        Continues backend (before ++ alone.take i) a p := by
  induction signatures generalizing counters before layouts with
  | nil =>
    cases h
    exact ⟨[], .nil, rfl, fun i a p ha => by simp at ha⟩
  | cons signature rest ih =>
    obtain ⟨placed, next, others, hfirst, hrest, rfl⟩ := allocateAll_cons_eq_ok_iff.1 h
    have hone : CountsFit backend (before ++ [placed]) := by
      rw [List.append_cons] at hfits
      exact hfits.of_append
    obtain ⟨own, hown, hcontinues, hnext⟩ := exists_continues hfollows hone hfirst
    -- the counters follow the layout that the signature has alone: it stands before the rest
    have hothers := hcontinues.countsFit hfits
    rw [List.append_cons] at hothers
    obtain ⟨alone, halone, hlength, hall⟩ := ih hnext hothers hrest
    refine ⟨own :: alone, .cons hown halone, congrArg (· + 1) hlength, fun i a p ha hp => ?_⟩
    cases i with
    | zero =>
      cases ha
      cases hp
      rwa [List.take_zero, List.append_nil]
    | succ i =>
      rw [List.take_succ_cons, List.append_cons]
      exact hall i a p ha hp

/-- The layout of a pipeline is told by those that its signatures have alone, which succeed if it
does: these have the same resources and set counts, and each resource is moved behind the signatures
before its own. -/
theorem ofSignatures_continues {backend : Backend} {signatures : List Signature}
    {layout : PipelineLayout} (h : ofSignatures backend signatures = .ok layout)
    (hfits : CountsFit backend layout.signatures) :
    ∃ alone : List SignatureLayout,
      List.Forall₂ (fun s a => standalone backend s = .ok a)
        (Signature.inBindingOrder signatures) alone ∧
      alone.length = layout.signatures.length ∧
      ∀ i a p, alone[i]? = some a → layout.signatures[i]? = some p →
        Continues backend (alone.take i) a p := by
  obtain ⟨layouts, hlayouts, rfl⟩ := ofSignatures_eq_ok_iff.1 h
  have hfollows : Follows backend [] {} := by
    cases backend <;> first | trivial | rfl | exact ⟨rfl, fun _ => Nat.zero_le _⟩
  exact allocateAll_continues hfollows hfits hlayouts

/-- Behind the signature with three textures, the texture of the other is moved by three units. -/
theorem ofSignatures_continues_overlaySignature :
    ∃ layout, ofSignatures .gl [overlaySignature, arraySignature] = .ok layout ∧
      CountsFit .gl layout.signatures ∧
      ∃ first alone placed, layout.signatures[1]? = some placed ∧
        standalone .gl arraySignature = .ok first ∧ standalone .gl overlaySignature = .ok alone ∧
        alone.bindings.map (·.binding) = [0] ∧ placed.bindings.map (·.binding) = [3] ∧
        Continues .gl [first] alone placed := by
  have hunits : (ofSignatures .gl [overlaySignature, arraySignature]).map
      (fun l => l.signatures.map fun s => s.bindings.map (·.binding)) =
      .ok [[0, 0, 0], [3]] := by
    rw [ofSignatures, inBindingOrder_overlaySignature]
    decide
  have halone : (standalone .gl overlaySignature).map (fun l => l.bindings.map (·.binding)) =
      .ok [0] := by decide
  obtain ⟨layout, hlayout, hplaces⟩ := Results.map_eq_ok_iff.1 hunits
  have hfits : CountsFit .gl layout.signatures := by
    intro range
    rw [slotsTaken]
    show slotSum (under GlRange.of? range layout.bindings) < _
    rw [slotSum_under_bindings _ _ hlayout]
    cases range <;> decide
  obtain ⟨own, hown, hlength, hall⟩ := ofSignatures_continues hlayout hfits
  rw [inBindingOrder_overlaySignature] at hown
  obtain ⟨first, rest, hfirst, hrest, rfl⟩ := List.forall₂_cons_left_iff.1 hown
  obtain ⟨second, none, hsecond, hnone, rfl⟩ := List.forall₂_cons_left_iff.1 hrest
  cases hnone
  rw [hsecond] at halone
  obtain ⟨_, placed, hsignatures⟩ := List.length_eq_two.1 hlength.symm
  rw [hsignatures] at hplaces
  injection hplaces with _ hplaces
  injection hplaces with hplaces
  have hplaced : layout.signatures[1]? = some placed := by
    rw [hsignatures]
    rfl
  exact ⟨layout, hlayout, hfits, first, second, placed, hplaced, hfirst, hsecond,
    Except.ok.inj halone, hplaces, hall 1 second placed rfl hplaced⟩

end PipelineLayout

end PipelineArchive
