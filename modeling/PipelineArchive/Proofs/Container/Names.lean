import PipelineArchive.Proofs.Container.Regions
import Mathlib.Data.List.TakeWhile

/-!
# Chunks of names

A chunk of names holds the place of each name and each record, and then the names, each with a
zero byte behind it. A name is read up to the first zero byte. The reader therefore sees a name
that has a zero byte itself only up to there, which is still a text
(`exists_ofText_takeWhile`); every other name it sees as it is (`eq_of_takeWhile`).

`read_namedChunk` says that a chunk that was written is read as the entries that were meant.
-/

set_option autoImplicit false

namespace PipelineArchive.Container

open Results

/-! ## Names -/

theorem ofText_ofList (chars : List Char) :
    Bytes.ofText (String.ofList chars) = chars.flatMap String.utf8EncodeChar := by
  simp [Bytes.ofText, List.utf8Encode]

theorem ofNat_ne_zero {n : Nat} (h : n % 256 ≠ 0) : UInt8.ofNat n ≠ 0 := by
  intro hzero
  have hnat := congrArg UInt8.toNat hzero
  simp only [UInt8.toNat_ofNat', UInt8.toNat_zero] at hnat
  omega

/-- No byte of a character is zero, but that of the zero character. -/
theorem ne_zero_of_mem_utf8EncodeChar {char : Char} (h : char ≠ '\x00') {byte : UInt8}
    (hbyte : byte ∈ String.utf8EncodeChar char) : byte ≠ 0 := by
  have hval : char.val.toNat ≠ 0 := fun hzero => h (Char.ext (UInt32.toNat_inj.1 hzero))
  -- a byte of a longer encoding has its marker bits, and a byte alone is the code point
  generalize hn : char.val.toNat = n at hval
  simp only [String.utf8EncodeChar, hn] at hbyte
  split at hbyte
  · simp only [List.mem_singleton] at hbyte
    subst hbyte
    exact ofNat_ne_zero (by omega)
  · split at hbyte
    · simp only [List.mem_cons, List.not_mem_nil, or_false] at hbyte
      rcases hbyte with rfl | rfl <;> exact ofNat_ne_zero (by omega)
    · split at hbyte
      · simp only [List.mem_cons, List.not_mem_nil, or_false] at hbyte
        rcases hbyte with rfl | rfl | rfl <;> exact ofNat_ne_zero (by omega)
      · simp only [List.mem_cons, List.not_mem_nil, or_false] at hbyte
        rcases hbyte with rfl | rfl | rfl | rfl <;> exact ofNat_ne_zero (by omega)

/-- A name up to its first zero byte is a text. -/
theorem exists_ofText_takeWhile (name : String) :
    ∃ cut, Bytes.ofText cut = (Bytes.ofText name).takeWhile (· ≠ 0) := by
  -- cut before the first zero character: no other character has a zero byte
  refine ⟨String.ofList (name.toList.takeWhile (· ≠ '\x00')), ?_⟩
  rw [← String.ofList_toList (s := name), ofText_ofList, ofText_ofList, String.toList_ofList]
  induction name.toList with
  | nil => rfl
  | cons char rest ih =>
    by_cases hchar : char = '\x00'
    · subst hchar
      rfl
    · have hbytes : ∀ byte ∈ String.utf8EncodeChar char, decide (byte ≠ 0) = true := fun byte hb =>
        decide_eq_true (ne_zero_of_mem_utf8EncodeChar hchar hb)
      rw [List.flatMap_cons, List.takeWhile_append_of_pos hbytes, ← ih, List.takeWhile_cons,
        if_pos (decide_eq_true hchar), List.flatMap_cons]

/-- A name without zero bytes is seen as it is. -/
theorem eq_of_takeWhile {name seen : String} (hname : 0 ∉ Bytes.ofText name)
    (hseen : Bytes.ofText seen = (Bytes.ofText name).takeWhile (· ≠ 0)) : seen = name := by
  have hall : ∀ byte ∈ Bytes.ofText name, decide (byte ≠ 0) = true := by
    intro byte hbyte
    apply decide_eq_true
    rintro rfl
    exact hname hbyte
  have hself := List.takeWhile_eq_self_iff.2 hall
  exact Bytes.ofText_injective (hseen.trans hself)

/-- What is seen of a name: all of it up to its first zero byte. -/
def SeenAs (name seen : String) : Prop :=
  Bytes.ofText seen = (Bytes.ofText name).takeWhile (· ≠ 0)

/-- No name is seen with a zero byte. -/
theorem SeenAs.zero_notMem {name seen : String} (h : SeenAs name seen) :
    0 ∉ Bytes.ofText seen := by
  rw [SeenAs] at h
  rw [h]
  intro hzero
  simpa using List.mem_takeWhile_imp hzero

/-- Names without zero bytes are all seen as they are. -/
theorem map_name_of_seenAs {names : List String} {entries : List NamedEntry}
    (h : List.Forall₂ (fun name (e : NamedEntry) => SeenAs name e.name) names entries)
    (hnames : ∀ name ∈ names, 0 ∉ Bytes.ofText name) : entries.map (·.name) = names := by
  induction h with
  | nil => rfl
  | cons hfirst _ ih =>
    obtain ⟨hname, hrest⟩ := List.forall_mem_cons.1 hnames
    rw [List.map_cons, ih hrest, eq_of_takeWhile hname hfirst]

theorem takeWhile_append_zero (bytes after : Bytes) :
    (bytes ++ 0 :: after).takeWhile (· ≠ 0) = bytes.takeWhile (· ≠ 0) := by
  induction bytes with
  | nil => rfl
  | cons byte rest ih =>
    rw [List.cons_append, List.takeWhile_cons, List.takeWhile_cons, ih]

/-- A name is read where it stands with a zero byte behind it. -/
theorem nameAt_eq {kind : ChunkKind} {body : Bytes} {offset : Nat} {name seen : String}
    (hat : body.HasAt offset (Bytes.ofText name ++ [0]))
    (hseen : Bytes.ofText seen = (Bytes.ofText name).takeWhile (· ≠ 0)) :
    ChunkBody.nameAt kind body offset = .ok seen := by
  obtain ⟨after, hafter⟩ := hat.drop
  have hdrop : body.drop offset = Bytes.ofText name ++ 0 :: after := by
    rw [hafter, List.append_assoc]
    rfl
  simp only [ChunkBody.nameAt, hdrop]
  -- the zero byte behind the name ends it, whatever comes after
  rw [if_pos (by simp), takeWhile_append_zero, ← hseen, Utf8.decode?_ofText]
  rfl

/-! ## Entries -/

/-- What an entry says about a record and its place. -/
def EntryOf (placed : Record × Nat × Nat) (e : NamedEntry) : Prop :=
  Bytes.ofText e.name = (Bytes.ofText placed.1.name).takeWhile (· ≠ 0) ∧
    e.offset.toNat = placed.2.1 ∧ e.size.toNat = placed.2.2

/-- The names of records, each with a zero byte behind it. -/
def nameBytes (entries : List (Record × Nat × Nat)) : Bytes :=
  entries.flatMap fun (r, _) => Bytes.ofText r.name ++ [0]

theorem length_namedEntries {offset : Nat} {entries : List (Record × Nat × Nat)} {table : Bytes}
    (h : namedEntries offset entries = .ok table) :
    table.length = namedEntrySize * entries.length := by
  induction entries generalizing offset table with
  | nil =>
    cases h
    rfl
  | cons entry rest ih =>
    obtain ⟨w₁, -, h⟩ := bind_eq_ok_iff.1 h
    obtain ⟨w₂, -, h⟩ := bind_eq_ok_iff.1 h
    obtain ⟨w₃, -, h⟩ := bind_eq_ok_iff.1 h
    obtain ⟨others, hothers, h⟩ := bind_eq_ok_iff.1 h
    cases h
    simp only [List.length_append, length_encode_u32, ih hothers, List.length_cons, namedEntrySize]
    omega

/-- The entries are read, if the names stand where they say. -/
theorem reads_entries (kind : ChunkKind) {body : Bytes} {offset : Nat}
    {entries : List (Record × Nat × Nat)} {table : Bytes}
    (h : namedEntries offset entries = .ok table) (hat : body.HasAt offset (nameBytes entries)) :
    ∃ found, (ChunkBody.readEntries kind body entries.length).Reads table found ∧
      List.Forall₂ EntryOf entries found := by
  induction entries generalizing offset table with
  | nil =>
    cases h
    exact ⟨[], Read.Reads.pure [], .nil⟩
  | cons entry rest ih =>
    obtain ⟨r, place, size⟩ := entry
    obtain ⟨w₁, hw₁, h⟩ := bind_eq_ok_iff.1 h
    obtain ⟨w₂, hw₂, h⟩ := bind_eq_ok_iff.1 h
    obtain ⟨w₃, hw₃, h⟩ := bind_eq_ok_iff.1 h
    obtain ⟨others, hothers, h⟩ := bind_eq_ok_iff.1 h
    cases h
    rw [word_eq_ok_iff] at hw₁ hw₂ hw₃
    -- the first name stands at the offset, the others behind it and its zero byte
    have hname : (nameBytes ((r, place, size) :: rest)).HasAt 0 (Bytes.ofText r.name ++ [0]) :=
      ⟨[], nameBytes rest, rfl, rfl⟩
    have hnames : (nameBytes ((r, place, size) :: rest)).HasAt
        ((Bytes.ofText r.name).length + 1) (nameBytes rest) :=
      ⟨Bytes.ofText r.name ++ [0], [], by simp [nameBytes], by simp⟩
    obtain ⟨found, hfound, hrel⟩ := ih hothers (hat.trans hnames)
    obtain ⟨seen, hseen⟩ := exists_ofText_takeWhile r.name
    have hlookup : ChunkBody.nameAt kind body w₁.toNat = .ok seen :=
      nameAt_eq (by rw [hw₁]; exact hat.trans hname) hseen
    refine ⟨⟨seen, w₂, w₃⟩ :: found, ?_, .cons ⟨hseen, hw₂, hw₃⟩ hrel⟩
    rw [List.append_assoc, List.append_assoc]
    refine (Read.reads_u32 w₁).bind ?_
    refine (Read.reads_u32 w₂).bind ?_
    refine (Read.reads_u32 w₃).bind ?_
    -- looking a name up takes no bytes of the table
    rw [← List.nil_append others]
    exact (Read.Reads.lift hlookup).bind hfound.bind_pure

/-! ## Chunks -/

theorem length_nameBytes (entries : List (Record × Nat × Nat)) :
    (nameBytes entries).length =
      totalSize ((entries.map (·.1)).map fun r => (Bytes.ofText r.name).length + 1) := by
  rw [nameBytes, length_flatMap, List.map_map]
  simp [Function.comp_def]

theorem namedChunk_spec {entries : List (Record × Nat × Nat)} {bytes : Bytes}
    (h : namedChunk entries = .ok bytes) :
    ∃ table, namedEntries (4 + namedEntrySize * entries.length) entries = .ok table ∧
      bytes = Bytes.padTo alignment
        (Encode.count entries.length ++ table ++ nameBytes entries) := by
  obtain ⟨table, htable, h⟩ := bind_eq_ok_iff.1 h
  cases h
  exact ⟨table, htable, rfl⟩

/-- The size of a chunk of names is the one that is predicted. -/
theorem length_namedChunk {entries : List (Record × Nat × Nat)} {bytes : Bytes}
    (h : namedChunk entries = .ok bytes) :
    bytes.length = namedChunkSize (entries.map (·.1)) := by
  obtain ⟨table, htable, rfl⟩ := namedChunk_spec h
  rw [length_padTo, List.length_append, List.length_append, Encode.length_count,
    length_namedEntries htable, length_nameBytes, namedChunkSize, List.length_map]

/-- A chunk of names is read as the entries that were meant. -/
theorem read_namedChunk {kind : ChunkKind} (hkind : kind.isNamed = true)
    {entries : List (Record × Nat × Nat)} {bytes : Bytes} (h : namedChunk entries = .ok bytes)
    (hlength : bytes.length < UInt32.size) :
    ∃ found, (ChunkBody.read kind bytes).value? bytes = .ok (.named found) ∧
      List.Forall₂ EntryOf entries found := by
  have hsize := length_namedChunk h
  have hcount : 4 + namedEntrySize * entries.length ≤ bytes.length := by
    rw [hsize, namedChunkSize, List.length_map]
    exact Nat.le_trans (Nat.le_add_right _ _) (le_paddedSize _)
  simp only [namedEntrySize] at hcount
  obtain ⟨table, htable, hbytes⟩ := namedChunk_spec h
  have htablelength := length_namedEntries htable
  have hat : bytes.HasAt (4 + namedEntrySize * entries.length) (nameBytes entries) := by
    rw [hbytes]
    exact ⟨Encode.count entries.length ++ table, _, rfl, by
      rw [List.length_append, Encode.length_count, htablelength]⟩
  obtain ⟨found, hfound, hrel⟩ := reads_entries kind htable hat
  refine ⟨found, ?_, hrel⟩
  have hreads : (ChunkBody.read kind bytes).Reads (Encode.count entries.length ++ table)
      (.named found) := by
    -- the reader goes by the kind, and does the same for all kinds of records
    have hread : ChunkBody.read kind bytes = (do
        let count ← Read.ofDecoder (.count namedEntrySize)
        return .named (← ChunkBody.readEntries kind bytes count)) := by
      cases kind <;> first | rfl | cases hkind
    rw [hread]
    refine Read.Reads.count_bind (by omega) ?_ hfound.bind_pure
    exact Nat.le_of_eq (by rw [htablelength, Nat.mul_comm])
  -- behind the table there are the names and the padding, which the reader leaves
  have hbegin : ∃ after, bytes = Encode.count entries.length ++ table ++ after :=
    ⟨_, by rw [hbytes, Bytes.padTo, List.append_assoc _ (nameBytes entries)]⟩
  obtain ⟨after, hafter⟩ := hbegin
  have hvalue := hreads.value? after
  rwa [← hafter] at hvalue

end PipelineArchive.Container
