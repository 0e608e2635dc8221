import PipelineArchive.Proofs.Container.Names

/-!
# Chunks and their directory

The chunks stand in the order of their kinds, none twice (`sublist_chunks`), they have the sizes
that are predicted (`map_length_chunks`), and each is read as what it was written from
(`exists_body`). The directory names the kind, size and place of every chunk, and
`reads_directory` says that the reader finds the chunks there. `chunk?_of_mem` and
`chunk?_eq_none` say what an archive with these chunks answers about a kind.
-/

set_option autoImplicit false

namespace PipelineArchive.Container

open Results

/-! ## Single chunks -/

theorem length_debugChunk (builder : String) :
    (debugChunk builder).length = paddedSize (8 + (Bytes.ofText builder).length) := by
  have htext : (encode builder).length = 4 + (Bytes.ofText builder).length :=
    Encode.length_sized _
  rw [debugChunk, length_padTo, List.length_append, length_encode_u32, htext, ← Nat.add_assoc]

theorem read_debugChunk {builder : String} (h : (debugChunk builder).length < UInt32.size)
    (body : Bytes) :
    (ChunkBody.read .debugInfo body).value? (debugChunk builder) =
      .ok (.debugInfo ⟨version, builder⟩) := by
  have hlength : (Bytes.ofText builder).length < UInt32.size := by
    rw [length_debugChunk] at h
    have := le_paddedSize (8 + (Bytes.ofText builder).length)
    omega
  -- the padding is left over
  exact ((Read.reads_u32 version).bind
    (Read.Reads.ofDecoder (Decoder.reads_text hlength)).bind_pure).value? _

/-- The place of the table of shaders that a region is read to have. -/
def Region.table? (r : Region) : Option (UInt32 × UInt32) :=
  if r.table.1 = invalidOffset then none else some r.table

theorem length_shadersChunk (regions : PerBackend Region) :
    (shadersChunk regions).length = shaderEntrySize * Backend.all.length := by
  have hwidth (r : Region) : (encode r.table.1 ++ encode r.table.2).length = 8 := by
    rw [List.length_append, length_encode_u32, length_encode_u32]
  rw [shadersChunk, length_toList_flatMap hwidth]
  rfl

theorem read_shadersChunk (regions : PerBackend Region) (body : Bytes) :
    (ChunkBody.read .shaders body).value? (shadersChunk regions) =
      .ok (.shaders (regions.map Region.table?)) := by
  have htable (b : Backend) : ChunkBody.readTable.Reads
      (encode (regions.get b).table.1 ++ encode (regions.get b).table.2)
      (regions.get b).table? :=
    (Read.reads_u32 _).bind (Read.reads_u32 _).bind_pure
  have hread := (Read.Reads.ofFnM htable).bind_pure (f := ChunkBody.shaders)
  rw [← toList_flatMap regions fun r => encode r.table.1 ++ encode r.table.2] at hread
  exact hread.value?_self

/-! ## All chunks -/

/-- The records of one kind, with their places. -/
def placedOf (placed : List (Record × Nat × Nat)) (kind : ChunkKind) :
    List (Record × Nat × Nat) :=
  placed.filter fun (r, _) => r.kind == kind

/-- What a chunk is read as, given what the archive was written from. -/
def ChunkOf (placed : List (Record × Nat × Nat)) (regions : PerBackend Region)
    (kind : ChunkKind) (body : ChunkBody) : Prop :=
  (kind = .shaders → body = .shaders (regions.map Region.table?)) ∧
    (kind.isNamed = true →
      ∃ found, body = .named found ∧ List.Forall₂ EntryOf (placedOf placed kind) found)

/-- The kinds of which there are records, each with its records. -/
def presentKinds (placed : List (Record × Nat × Nat)) :
    List (ChunkKind × List (Record × Nat × Nat)) :=
  (namedKinds.map fun kind => (kind, placedOf placed kind)).filter fun (_, entries) =>
    !entries.isEmpty

theorem mem_presentKinds_iff {placed : List (Record × Nat × Nat)} {kind : ChunkKind}
    {entries : List (Record × Nat × Nat)} : (kind, entries) ∈ presentKinds placed ↔
      kind.isNamed = true ∧ entries = placedOf placed kind ∧ entries ≠ [] := by
  simp only [presentKinds, namedKinds, List.mem_filter, List.mem_map, Prod.mk.injEq,
    Bool.not_eq_true', List.isEmpty_eq_false_iff]
  constructor
  · rintro ⟨⟨other, ⟨-, hnamed⟩, rfl, rfl⟩, hne⟩
    exact ⟨hnamed, rfl, hne⟩
  · rintro ⟨hnamed, rfl, hne⟩
    exact ⟨⟨kind, ⟨ChunkKind.mem_all kind, hnamed⟩, rfl, rfl⟩, hne⟩

theorem map_fst_placedOf (placed : List (Record × Nat × Nat)) (kind : ChunkKind) :
    (placedOf placed kind).map (·.1) = recordsOf (placed.map (·.1)) kind := by
  rw [recordsOf, List.filter_map]
  rfl

theorem sublist_presentKinds (placed : List (Record × Nat × Nat)) :
    ((presentKinds placed).map (·.1)).Sublist namedKinds := by
  have h := (List.filter_sublist (p := fun x : ChunkKind × List (Record × Nat × Nat) =>
    !x.2.isEmpty) (l := namedKinds.map fun kind => (kind, placedOf placed kind))).map (·.1)
  rw [List.map_map] at h
  exact h.trans (by rw [show ((·.1) ∘ fun kind => (kind, placedOf placed kind)) = id from rfl,
    List.map_id])

theorem map_presentKinds (placed : List (Record × Nat × Nat)) :
    (presentKinds placed).map (fun present => namedChunkSize (present.2.map (·.1))) =
      ((namedKinds.map (recordsOf (placed.map (·.1)))).filter fun entries =>
        !entries.isEmpty).map namedChunkSize := by
  rw [presentKinds, List.filter_map, List.filter_map, List.map_map, List.map_map]
  have hempty (kind : ChunkKind) : (recordsOf (placed.map (·.1)) kind).isEmpty =
      (placedOf placed kind).isEmpty := by
    rw [← map_fst_placedOf, List.isEmpty_map]
  simp only [Function.comp_def, hempty, map_fst_placedOf]

/-- What is written for the kinds of which there are records. -/
theorem forall₂_named {present : List (ChunkKind × List (Record × Nat × Nat))}
    {named : List (ChunkKind × Bytes)}
    (h : (present.mapM fun (kind, entries) => do return (kind, ← namedChunk entries)) =
      Except.ok named) :
    List.Forall₂ (fun present chunk => chunk.1 = present.1 ∧ namedChunk present.2 = .ok chunk.2)
      present named := by
  apply (mapM_eq_ok_iff.1 h).imp
  intro present chunk hchunk
  obtain ⟨bytes, hbytes, heq⟩ := bind_eq_ok_iff.1 hchunk
  cases heq
  exact ⟨rfl, hbytes⟩

theorem map_fst_named {present : List (ChunkKind × List (Record × Nat × Nat))}
    {named : List (ChunkKind × Bytes)}
    (h : List.Forall₂ (fun present chunk => chunk.1 = present.1 ∧
      namedChunk present.2 = .ok chunk.2) present named) :
    named.map (·.1) = present.map (·.1) ∧
      (named.map fun chunk => chunk.2.length) =
        present.map fun present => namedChunkSize (present.2.map (·.1)) := by
  induction h with
  | nil => exact ⟨rfl, rfl⟩
  | cons hfirst _ ih =>
    simp only [List.map_cons, hfirst.1, length_namedChunk hfirst.2, ih.1, ih.2]
    exact ⟨trivial, trivial⟩

theorem exists_present_of_mem {present : List (ChunkKind × List (Record × Nat × Nat))}
    {named : List (ChunkKind × Bytes)}
    (h : List.Forall₂ (fun present chunk => chunk.1 = present.1 ∧
      namedChunk present.2 = .ok chunk.2) present named) {chunk : ChunkKind × Bytes}
    (hmem : chunk ∈ named) : ∃ entries, (chunk.1, entries) ∈ present ∧
      namedChunk entries = .ok chunk.2 := by
  induction h with
  | nil => cases hmem
  | cons hfirst _ ih =>
    rcases List.mem_cons.1 hmem with rfl | hmem
    · exact ⟨_, by rw [hfirst.1]; exact List.mem_cons_self, hfirst.2⟩
    · obtain ⟨entries, hentries, hchunk⟩ := ih hmem
      exact ⟨entries, List.mem_cons_of_mem _ hentries, hchunk⟩

section

variable {builder : Option String} {placed : List (Record × Nat × Nat)}
  {regions : PerBackend Region} {written : List (ChunkKind × Bytes)}

/-- The chunks of an archive are the debug information, those with named records, and the tables of
shaders. -/
theorem exists_named (h : chunks builder placed regions = .ok written) : ∃ named,
    List.Forall₂ (fun present chunk => chunk.1 = present.1 ∧ namedChunk present.2 = .ok chunk.2)
      (presentKinds placed) named ∧
    written = (builder.toList.map fun id => (ChunkKind.debugInfo, debugChunk id)) ++ named ++
      if hasTables regions then [(ChunkKind.shaders, shadersChunk regions)] else [] := by
  obtain ⟨named, hnamed, h⟩ := bind_eq_ok_iff.1 h
  cases h
  exact ⟨named, forall₂_named hnamed, rfl⟩

/-- The chunks stand in the order of their kinds. -/
theorem sublist_chunks (h : chunks builder placed regions = .ok written) :
    (written.map (·.1)).Sublist ChunkKind.all := by
  obtain ⟨named, hnamed, rfl⟩ := exists_named h
  rw [List.map_append, List.map_append, (map_fst_named hnamed).1]
  -- debug information comes first and the tables of shaders come last
  have hall : ChunkKind.all = ([.debugInfo] ++ namedKinds) ++ [.shaders] := rfl
  rw [hall]
  refine .append (.append ?_ (sublist_presentKinds placed)) ?_
  · cases builder with
    | none => exact List.nil_sublist _
    | some id => exact List.Sublist.refl _
  · split
    · exact List.Sublist.refl _
    · exact List.nil_sublist _

/-- The chunks have the sizes that are predicted, if the regions have tables where that is what
is predicted. -/
theorem map_length_chunks {c : Contents} (h : chunks builder placed regions = .ok written)
    (htables : hasTables regions = hasShaders c) :
    (written.map fun chunk => chunk.2.length) = chunkSizes c (placed.map (·.1)) builder := by
  obtain ⟨named, hnamed, rfl⟩ := exists_named h
  rw [List.map_append, List.map_append, (map_fst_named hnamed).2, chunkSizes, ← map_presentKinds,
    htables]
  congr 1
  · congr 1
    cases builder with
    | none => rfl
    | some id => simp [length_debugChunk]
  · split
    · simp [length_shadersChunk]
    · rfl

/-- Each chunk is read as what it was written from. -/
theorem exists_body (h : chunks builder placed regions = .ok written) {kind : ChunkKind}
    {bytes : Bytes} (hmem : (kind, bytes) ∈ written) (hlength : bytes.length < UInt32.size) :
    ∃ body, (ChunkBody.read kind bytes).value? bytes = .ok body ∧
      ChunkOf placed regions kind body := by
  obtain ⟨named, hnamed, rfl⟩ := exists_named h
  rcases List.mem_append.1 hmem with hmem | hmem
  · rcases List.mem_append.1 hmem with hmem | hmem
    · obtain ⟨id, -, heq⟩ := List.mem_map.1 hmem
      cases heq
      exact ⟨_, read_debugChunk hlength _, fun hkind => (by cases hkind),
        fun hkind => (by cases hkind)⟩
    · obtain ⟨entries, hentries, hchunk⟩ := exists_present_of_mem hnamed hmem
      obtain ⟨hkind, rfl, -⟩ := mem_presentKinds_iff.1 hentries
      obtain ⟨found, hfound, hentriesOf⟩ := read_namedChunk hkind hchunk hlength
      refine ⟨_, hfound, ?_, fun _ => ⟨found, rfl, hentriesOf⟩⟩
      intro heq
      simp only at heq hkind
      rw [heq] at hkind
      cases hkind
  · split at hmem
    · cases List.mem_singleton.1 hmem
      exact ⟨_, read_shadersChunk regions _, fun _ => rfl, fun hkind => (by cases hkind)⟩
    · cases hmem

/-- The tables of shaders are left out only if no region has one. -/
theorem table?_of_notMem (h : chunks builder placed regions = .ok written)
    (hnot : .shaders ∉ written.map (·.1)) (b : Backend) : (regions.get b).table? = none := by
  obtain ⟨named, hnamed, rfl⟩ := exists_named h
  rw [Region.table?, if_pos]
  by_contra hvalid
  have htables : hasTables regions = true :=
    (hasTables_eq_true_iff regions).2 ⟨b, hvalid⟩
  simp [htables] at hnot

/-- A kind of records is left out only if there are none. -/
theorem placedOf_of_notMem (h : chunks builder placed regions = .ok written) {kind : ChunkKind}
    (hkind : kind.isNamed = true) (hnot : kind ∉ written.map (·.1)) :
    placedOf placed kind = [] := by
  obtain ⟨named, hnamed, rfl⟩ := exists_named h
  simp only [List.map_append, List.mem_append, not_or] at hnot
  rw [(map_fst_named hnamed).1] at hnot
  by_contra hne
  have hmem := mem_presentKinds_iff.2 ⟨hkind, rfl, hne⟩
  exact hnot.1.2 (List.mem_map_of_mem (f := (·.1)) hmem)

end

/-! ## The directory -/

theorem ofOrdinal?_chunkKind (kind : ChunkKind) :
    ChunkKind.ofOrdinal? (UInt32.ofNat kind.ordinal).toNat = some kind := by
  cases kind <;> rfl

theorem length_chunkHeaders {offset : Nat} {written : List (ChunkKind × Bytes)} {bytes : Bytes}
    (h : chunkHeaders offset written = .ok bytes) :
    bytes.length = ChunkHeader.byteSize * written.length := by
  induction written generalizing offset bytes with
  | nil =>
    cases h
    rfl
  | cons chunk rest ih =>
    obtain ⟨w₁, -, h⟩ := bind_eq_ok_iff.1 h
    obtain ⟨w₂, -, h⟩ := bind_eq_ok_iff.1 h
    obtain ⟨others, hothers, h⟩ := bind_eq_ok_iff.1 h
    cases h
    have hheader : (encode (⟨chunk.1, w₁, w₂⟩ : ChunkHeader)).length = 12 := by
      show (Bytes.ofU32 _ ++ encode w₁ ++ encode w₂).length = 12
      simp
    rw [List.length_append, ih hothers, hheader, List.length_cons, ChunkHeader.byteSize]
    omega

/-- The chunks as they follow one another. -/
def chunkBodies (written : List (ChunkKind × Bytes)) : Bytes := written.flatMap fun chunk => chunk.2

/-- What the directory says about a chunk: its kind and size, and where it stands in the
archive. -/
def HeaderOf (data : Bytes) (chunk : ChunkKind × Bytes) (header : ChunkHeader) : Prop :=
  header.kind = chunk.1 ∧ header.size.toNat = chunk.2.length ∧
    data.HasAt header.offset.toNat chunk.2

/-- The directory is read, and it leads to the chunks that stand where it says. -/
theorem reads_directory {data : Bytes} {offset : Nat} {written : List (ChunkKind × Bytes)}
    {bytes : Bytes} {seen : List ChunkHeader} (h : chunkHeaders offset written = .ok bytes)
    (hnodup : (written.map (·.1)).Nodup)
    (hseen : ∀ header ∈ seen, header.kind ∉ written.map (·.1))
    (hat : data.HasAt offset (chunkBodies written)) :
    ∃ headers, (ChunkHeader.readAll written.length seen).Reads bytes headers ∧
      List.Forall₂ (HeaderOf data) written headers := by
  induction written generalizing offset bytes seen with
  | nil =>
    cases h
    exact ⟨[], Read.Reads.pure [], .nil⟩
  | cons chunk rest ih =>
    obtain ⟨kind, body⟩ := chunk
    obtain ⟨size, hsize, h⟩ := bind_eq_ok_iff.1 h
    obtain ⟨place, hplace, h⟩ := bind_eq_ok_iff.1 h
    obtain ⟨others, hothers, h⟩ := bind_eq_ok_iff.1 h
    cases h
    rw [word_eq_ok_iff] at hsize hplace
    obtain ⟨hkind, hrest⟩ := List.nodup_cons.1 hnodup
    -- the reader refuses a kind that it has seen
    have hnew : (seen.any fun other => other.kind == kind) = false := by
      rw [List.any_eq_false]
      intro other hother heq
      have hother := hseen other hother
      rw [eq_of_beq heq] at hother
      exact hother List.mem_cons_self
    have hbody : data.HasAt offset body := by
      have hfirst : (chunkBodies ((kind, body) :: rest)).HasAt 0 body :=
        ⟨[], chunkBodies rest, rfl, rfl⟩
      exact hat.trans hfirst
    have hbehind : (chunkBodies ((kind, body) :: rest)).HasAt body.length (chunkBodies rest) :=
      ⟨body, [], by simp [chunkBodies], rfl⟩
    have hseen' : ∀ header ∈ (⟨kind, size, place⟩ :: seen : List ChunkHeader),
        header.kind ∉ rest.map (·.1) := by
      intro header hheader
      rcases List.mem_cons.1 hheader with rfl | hheader
      · exact hkind
      · exact fun hmem => hseen header hheader (List.mem_cons_of_mem _ hmem)
    obtain ⟨headers, hheaders, hrel⟩ := ih hothers hrest hseen' (hat.trans hbehind)
    refine ⟨⟨kind, size, place⟩ :: headers, ?_,
      .cons ⟨rfl, hsize, by rw [hplace]; exact hbody⟩ hrel⟩
    show (ChunkHeader.readAll (rest.length + 1) seen).Reads
      (encode (UInt32.ofNat kind.ordinal) ++ encode size ++ encode place ++ others) _
    rw [List.append_assoc, List.append_assoc]
    refine (Read.reads_u32 _).bind ?_
    refine (Read.reads_u32 size).bind ?_
    refine (Read.reads_u32 place).bind ?_
    rw [ofOrdinal?_chunkKind]
    simp only [hnew, Bool.false_eq_true, if_false]
    exact hheaders.bind_pure

/-- What a chunk is found as: under its kind, and as what it reads as. -/
def FoundAs (chunk : ChunkKind × Bytes) (found : ChunkHeader × ChunkBody) : Prop :=
  found.1.kind = chunk.1 ∧ (ChunkBody.read chunk.1 chunk.2).value? chunk.2 = .ok found.2

/-- The chunks that the directory leads to are read, if each of them can be. -/
theorem mapM_readChunk {data : Bytes} (hdata : data.length ≤ maxOffset)
    {written : List (ChunkKind × Bytes)} {headers : List ChunkHeader}
    (h : List.Forall₂ (HeaderOf data) written headers)
    (hread : ∀ kind bytes, (kind, bytes) ∈ written →
      ∃ body, (ChunkBody.read kind bytes).value? bytes = .ok body) :
    ∃ parsed, headers.mapM (Archive.readChunk data) = .ok parsed ∧
      List.Forall₂ FoundAs written parsed := by
  induction h with
  | nil => exact ⟨[], rfl, .nil⟩
  | @cons chunk header rest headers hheader _ ih =>
    obtain ⟨kind, bytes⟩ := chunk
    obtain ⟨hkind, hsize, hat⟩ := hheader
    simp only at hkind hsize hat
    obtain ⟨body, hbody⟩ := hread kind bytes List.mem_cons_self
    obtain ⟨parsed, hparsed, hrel⟩ := ih fun kind bytes hmem =>
      hread kind bytes (List.mem_cons_of_mem _ hmem)
    have hchunk : Archive.readChunk data header = .ok (header, body) := by
      rw [Archive.readChunk, slicePart_eq hat hsize hdata, hkind]
      refine bind_eq_ok_iff.2 ⟨bytes, rfl, bind_eq_ok_iff.2 ⟨body, hbody, rfl⟩⟩
    exact ⟨(header, body) :: parsed, mapM_eq_ok_iff.2 (.cons hchunk (mapM_eq_ok_iff.1 hparsed)),
      .cons ⟨hkind, hbody⟩ hrel⟩

/-- An archive with these chunks answers with the one of a kind. -/
theorem chunk?_of_mem {a : Archive} {written : List (ChunkKind × Bytes)}
    (h : List.Forall₂ FoundAs written a.chunks)
    (hnodup : (written.map (·.1)).Nodup) {kind : ChunkKind} {bytes : Bytes} {body : ChunkBody}
    (hmem : (kind, bytes) ∈ written)
    (hbody : (ChunkBody.read kind bytes).value? bytes = .ok body) :
    a.chunk? kind = some body := by
  rw [Archive.chunk?]
  generalize a.chunks = found at h
  induction h with
  | nil => cases hmem
  | @cons chunk first rest others hfirst _ ih =>
    obtain ⟨header, parsed⟩ := first
    obtain ⟨hkind, hrest⟩ := List.nodup_cons.1 hnodup
    -- the first chunk of the kind answers, and there is no other
    rcases List.mem_cons.1 hmem with heq | hmem
    · subst heq
      obtain ⟨hheader, hparsed⟩ := hfirst
      simp only at hheader hparsed
      rw [hbody] at hparsed
      cases hparsed
      rw [List.find?_cons_of_pos (by simp [hheader])]
      rfl
    · have hne : ¬((header.kind == kind) = true) := by
        intro heq
        have hchunk : kind = chunk.1 := (eq_of_beq heq).symm.trans hfirst.1
        rw [hchunk] at hmem
        exact hkind (List.mem_map_of_mem (f := (·.1)) hmem)
      rw [List.find?_cons_of_neg]
      · exact ih hrest hmem
      · exact hne

/-- An archive with these chunks has none of another kind. -/
theorem chunk?_eq_none {a : Archive} {written : List (ChunkKind × Bytes)}
    (h : List.Forall₂ FoundAs written a.chunks)
    {kind : ChunkKind} (hkind : kind ∉ written.map (·.1)) : a.chunk? kind = none := by
  rw [Archive.chunk?, Option.map_eq_none_iff]
  generalize a.chunks = found at h
  induction h with
  | nil => rfl
  | @cons chunk first rest others hfirst _ ih =>
    rw [List.map_cons, List.mem_cons, not_or] at hkind
    have hne : ¬((first.1.kind == kind) = true) := by
      intro heq
      exact hkind.1 ((eq_of_beq heq).symm.trans hfirst.1)
    rw [List.find?_cons_of_neg]
    · exact ih hkind.2
    · exact hne

end PipelineArchive.Container
