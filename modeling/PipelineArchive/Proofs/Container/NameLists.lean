import PipelineArchive.Proofs.Container.Verified
import PipelineArchive.Proofs.Contents.Grounded

/-!
# The names that an archive lists

`Contents.names` are the names of a kind that are archived, in the strict order of their bytes. An
archive that was built has an entry for each of them in that order, but a name is read up to its
first zero byte only (`Built.seen_names`). `Archive.Lists` says what a reader may expect: a chunk
has exactly the names that were accepted, in order, no two the same, and each can be found. This
holds exactly if none of them has a zero byte (`Built.lists_iff`).
-/

set_option autoImplicit false

namespace PipelineArchive

/-- Keys stand in order. -/
theorem Table.pairwise_keys {κ α : Type} [Key κ] (t : Table κ α) :
    t.keys.Pairwise fun a b => Key.before a b = true :=
  List.pairwise_map.2 t.sorted

/-- A staging has something under a name of a kind. -/
def Staging.HasName (s : Staging) (name : String) : ChunkKind → Prop
  | .signatures => (s.signatures.lookup name).isSome ∨ ∃ r, s.defaultSignature = some (name, r)
  | .renderPasses => ∃ desc, s.renderPass = some (name, desc)
  | kind => ∃ p, s.pipeline = some ((kind, name), p)

namespace Contents

/-- The names of the pipelines of a kind that are archived. -/
def pipelineNames (c : Contents) (kind : ChunkKind) : List String :=
  (c.pipelines.keys.filter fun key => key.1 = kind).map (·.2)

/-- The names of a kind that are archived. -/
def names (c : Contents) : ChunkKind → List String
  | .signatures => c.signatures.keys
  | .renderPasses => c.renderPasses.keys
  | kind => c.pipelineNames kind

variable {c : Contents}

theorem names_of_isPipeline {kind : ChunkKind} (hkind : kind.isPipeline = true) :
    c.names kind = c.pipelineNames kind := by
  cases kind <;> first | rfl | cases hkind

theorem mem_pipelineNames {kind : ChunkKind} {name : String} :
    name ∈ c.pipelineNames kind ↔ (c.resolved? (kind, name)).isSome := by
  rw [resolved?, Option.isSome_map, ← Table.mem_keys_iff]
  constructor
  · intro h
    obtain ⟨⟨kind', name'⟩, hkey, rfl⟩ := List.mem_map.1 h
    obtain ⟨hmem, hkind⟩ := List.mem_filter.1 hkey
    obtain rfl : kind' = kind := of_decide_eq_true hkind
    exact hmem
  · intro h
    exact List.mem_map.2 ⟨_, List.mem_filter.2 ⟨h, decide_eq_true rfl⟩, rfl⟩

/-- Names stand in the order of their bytes. -/
theorem pairwise_names (c : Contents) (kind : ChunkKind) :
    (c.names kind).Pairwise fun m n => Key.before m n = true := by
  have hpipelines : (c.pipelineNames kind).Pairwise fun m n => Key.before m n = true := by
    refine List.pairwise_map.2 (List.Pairwise.imp_of_mem ?_ (c.pipelines.pairwise_keys.filter _))
    -- keys of one kind stand in the order of their names
    intro key key' hkey hkey' hbefore
    have hkind : key.1 = kind := of_decide_eq_true (List.mem_filter.1 hkey).2
    have hkind' : key'.1 = kind := of_decide_eq_true (List.mem_filter.1 hkey').2
    simpa [Key.before, hkind, hkind'] using hbefore
  cases kind with
  | signatures => exact c.signatures.pairwise_keys
  | renderPasses => exact c.renderPasses.pairwise_keys
  | _ => exact hpipelines

/-- After a commit the names are those that were archived and those that are staged. -/
theorem mem_names_commit (hc : c.Consistent) {s : Staging}
    (hs : Staging.Distinct s.signatures) {kind : ChunkKind} {name : String} :
    name ∈ (c.commit s).names kind ↔ name ∈ c.names kind ∨ s.HasName name kind := by
  have hpipelines : name ∈ (c.commit s).pipelineNames kind ↔
      name ∈ c.pipelineNames kind ∨ ∃ p, s.pipeline = some ((kind, name), p) := by
    rw [mem_pipelineNames, mem_pipelineNames, resolved?_commit hc]
    cases s.pipeline with
    | none => simp
    | some staged =>
      obtain ⟨key, p⟩ := staged
      by_cases hkey : (kind, name) = key
      · simp [hkey]
      · simp [hkey, Ne.symm hkey]
  cases kind with
  | signatures =>
    simp only [names, Table.mem_keys_iff]
    exact isSome_signatures_commit_iff hs
  | renderPasses =>
    simp only [names, Table.mem_keys_iff]
    exact isSome_renderPasses_commit_iff
  | _ => exact hpipelines

end Contents

namespace Container

open Results

/-! ## Records -/

variable {c : Contents} {rs : List Record}

theorem recordsOf_pipelines {kind : ChunkKind} {entries : List (PipelineKey × PipelineRecord)}
    {pipelines : List Record}
    (h : List.Forall₂ (fun entry r => pipelineRecord c entry.1 entry.2 = .ok r)
      entries pipelines) :
    (recordsOf pipelines kind).map (·.name) =
      ((entries.map (·.1)).filter fun key => key.1 = kind).map (·.2) := by
  induction h with
  | nil => rfl
  | @cons entry r entries pipelines hfirst _ ih =>
    obtain ⟨hkind, hname, -⟩ := pipelineRecord_spec hfirst
    rw [recordsOf] at ih ⊢
    by_cases heq : entry.1.1 = kind
    · simp [hkind, heq, hname, ih]
    · simp [hkind, heq, ih]

/-- The records of a kind stand in the order of the names. -/
theorem map_name_recordsOf (hc : c.Resolves) (h : records c = .ok rs) {kind : ChunkKind}
    (hkind : kind.isNamed = true) : (recordsOf rs kind).map (·.name) = c.names kind := by
  by_cases hpipeline : kind.isPipeline = true
  · obtain ⟨pipelines, rfl, hpipelines⟩ := records_spec h
    rw [Contents.names_of_isPipeline hpipeline, Contents.pipelineNames, Table.keys,
      ← recordsOf_pipelines hpipelines,
      recordsOf_append, recordsOf_append, recordsOf_eq_nil, recordsOf_eq_nil]
    · rfl
    -- the other records are not of the kind of a pipeline
    · intro r hr heq
      obtain ⟨entry, -, rfl⟩ := List.mem_map.1 hr
      rw [← heq] at hpipeline
      cases hpipeline
    · intro r hr heq
      obtain ⟨entry, -, rfl⟩ := List.mem_map.1 hr
      rw [← heq] at hpipeline
      cases hpipeline
  · cases kind with
    | signatures => exact recordsOf_signatures hc h
    | renderPasses => exact recordsOf_renderPasses hc h
    | debugInfo => cases hkind
    | shaders => cases hkind
    | _ => exact absurd rfl hpipeline

/-! ## Entries -/

/-- A chunk has exactly the names that were accepted, in the strict order of their bytes, and each
of them can be found. -/
structure Archive.Lists (a : Archive) (kind : ChunkKind) (accepted : String → Prop) : Prop where
  exact (name : String) : name ∈ (a.entries kind).map (·.name) ↔ accepted name
  sorted : ((a.entries kind).map (·.name)).Pairwise fun m n => Key.before m n = true
  distinct : ((a.entries kind).map (·.name)).Nodup
  found {name : String} : accepted name →
    ∃ e ∈ a.entries kind, e.name = name ∧ a.lookup kind name = .ok e

namespace Built

variable {builder : Option String} {l : Layout} {a : Archive}

/-- There is an entry for every name that is archived, and it has the name up to its first zero
byte. -/
theorem seen_names (h : Built c builder rs l a) (hc : c.Resolves) {kind : ChunkKind}
    (hkind : kind.isNamed = true) :
    List.Forall₂ (fun name (e : NamedEntry) => SeenAs name e.name) (c.names kind)
      (a.entries kind) := by
  rw [← map_name_recordsOf hc h.records hkind]
  exact h.seen_entries hkind

/-- A chunk lists the names that are archived exactly if they have no zero bytes. -/
theorem lists_iff (h : Built c builder rs l a) (hc : c.Resolves) {kind : ChunkKind}
    (hkind : kind.isNamed = true) :
    a.Lists kind (· ∈ c.names kind) ↔ ∀ name ∈ c.names kind, 0 ∉ Bytes.ofText name := by
  have hseen := h.seen_names hc hkind
  constructor
  · intro hlists name hname
    obtain ⟨e, he, rfl, -⟩ := hlists.found hname
    -- what was read has no zero byte, whichever name it was read from
    obtain ⟨_, -, hentry⟩ := exists_of_mem_right hseen he
    exact hentry.zero_notMem
  · intro hnames
    have hsorted := c.pairwise_names kind
    have heq := map_name_of_seenAs hseen hnames
    rw [← heq] at hsorted
    refine ⟨fun name => by rw [heq], hsorted, hsorted.imp Table.ne_of_before, ?_⟩
    intro name hname
    rw [← heq] at hname
    obtain ⟨e, he, rfl⟩ := List.mem_map.1 hname
    obtain ⟨e', he', hsame, hlookup⟩ := exists_lookup he
    exact ⟨e', he', hsame, hlookup⟩

end Built

end Container

end PipelineArchive
