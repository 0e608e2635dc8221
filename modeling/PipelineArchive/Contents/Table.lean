import PipelineArchive.Chunk

/-!
# Tables in key order

A table is a list of entries in the strict order of their keys, so that a key has at most one
value. `get?_insert` says what an insertion does to every key, and `get?_eq_some_iff` that a
table holds exactly the entries it is asked for.
-/

set_option autoImplicit false

namespace PipelineArchive

/-- Types whose values are keys of a table. -/
class Key (κ : Type) where
  /-- Whether a key stands before another one. -/
  before : κ → κ → Bool
  irrefl (a : κ) : before a a = false
  trans {a b c : κ} : before a b = true → before b c = true → before a c = true
  total (a b : κ) : before a b = true ∨ a = b ∨ before b a = true

/-- Names stand in the order of their bytes. -/
instance : Key String where
  before a b := !Bytes.le (Bytes.ofText b) (Bytes.ofText a)
  irrefl a := by simp
  trans {a b c} hab hbc := by
    simp only [Bool.not_eq_true'] at hab hbc ⊢
    cases hca : Bytes.le (Bytes.ofText c) (Bytes.ofText a) with
    | false => rfl
    | true =>
      rcases Bytes.le_total (Bytes.ofText a) (Bytes.ofText b) with h | h
      · rw [Bytes.le_trans hca h] at hbc
        exact hbc
      · rw [h] at hab
        exact hab
  total a b := by
    cases hba : Bytes.le (Bytes.ofText b) (Bytes.ofText a) with
    | false => exact Or.inl rfl
    | true =>
      cases hab : Bytes.le (Bytes.ofText a) (Bytes.ofText b) with
      | false => exact Or.inr (Or.inr rfl)
      | true => exact Or.inr (Or.inl (Bytes.ofText_injective (Bytes.le_antisymm hab hba)))

/-- Names of chunks stand in the order of the chunks. -/
instance : Key (ChunkKind × String) where
  before a b :=
    if a.1 = b.1 then Key.before a.2 b.2 else a.1.ordinal < b.1.ordinal
  irrefl a := by simp [Key.irrefl]
  trans {a b c} hab hbc := by
    by_cases h₁ : a.1 = b.1
    · by_cases h₂ : b.1 = c.1
      · simp only [h₁, h₂, if_true] at hab hbc ⊢
        exact Key.trans hab hbc
      · simpa [h₁, h₂] using hbc
    · by_cases h₂ : b.1 = c.1
      · simpa [h₁, ← h₂] using hab
      · simp only [h₁, h₂, if_false, decide_eq_true_eq] at hab hbc
        have hac : a.1 ≠ c.1 := fun h => by
          rw [h] at hab
          omega
        simp only [hac, if_false, decide_eq_true_eq]
        omega
  total a b := by
    obtain ⟨k, m⟩ := a
    obtain ⟨l, n⟩ := b
    by_cases h : k = l
    · subst h
      rcases Key.total m n with h | rfl | h
      · simp [h]
      · simp
      · simp [h]
    · have hne : k.ordinal ≠ l.ordinal := fun hkl => h (ChunkKind.ordinal_injective hkl)
      simp only [h, Ne.symm h, if_false, decide_eq_true_eq]
      omega

/-- Entries in the order of their keys. -/
structure Table (κ α : Type) [Key κ] where
  entries : List (κ × α)
  sorted : entries.Pairwise fun a b => Key.before a.1 b.1 = true
  deriving DecidableEq, Repr

namespace Table

variable {κ α β : Type} [DecidableEq κ] [Key κ]

omit [DecidableEq κ] in
theorem ne_of_before {a b : κ} (h : Key.before a b = true) : a ≠ b := by
  rintro rfl
  rw [Key.irrefl] at h
  cases h

/-- Entries with the value of a key replaced or put in its place. -/
def insertEntry (key : κ) (value : α) : List (κ × α) → List (κ × α)
  | [] => [(key, value)]
  | (other, old) :: rest =>
      if key = other then (key, value) :: rest
      else if Key.before key other then (key, value) :: (other, old) :: rest
      else (other, old) :: insertEntry key value rest

theorem mem_insertEntry {key : κ} {value : α} {entries : List (κ × α)} {entry : κ × α}
    (h : entry ∈ insertEntry key value entries) : entry = (key, value) ∨ entry ∈ entries := by
  induction entries with
  | nil => simpa [insertEntry] using h
  | cons first rest ih =>
    obtain ⟨other, old⟩ := first
    unfold insertEntry at h
    split at h
    · rcases List.mem_cons.1 h with h | h
      · exact Or.inl h
      · exact Or.inr (List.mem_cons_of_mem _ h)
    · split at h
      · exact List.mem_cons.1 h
      · rcases List.mem_cons.1 h with h | h
        · exact Or.inr (h ▸ List.mem_cons_self)
        · exact (ih h).imp_right (List.mem_cons_of_mem _)

theorem sorted_insertEntry (key : κ) (value : α) {entries : List (κ × α)}
    (h : entries.Pairwise fun a b => Key.before a.1 b.1 = true) :
    (insertEntry key value entries).Pairwise fun a b => Key.before a.1 b.1 = true := by
  induction entries with
  | nil => simp [insertEntry]
  | cons first rest ih =>
    obtain ⟨other, old⟩ := first
    obtain ⟨hfirst, hrest⟩ := List.pairwise_cons.1 h
    unfold insertEntry
    split
    · rename_i heq
      subst heq
      exact List.pairwise_cons.2 ⟨hfirst, hrest⟩
    · rename_i hne
      split
      · rename_i hbefore
        refine List.pairwise_cons.2 ⟨fun entry hmem => ?_, h⟩
        rcases List.mem_cons.1 hmem with rfl | hmem
        · exact hbefore
        · exact Key.trans hbefore (hfirst entry hmem)
      · rename_i hbefore
        refine List.pairwise_cons.2 ⟨fun entry hmem => ?_, ih hrest⟩
        rcases mem_insertEntry hmem with rfl | hmem
        · -- the order is total, and the key stands neither at nor before the first one
          rcases Key.total key other with h' | h' | h'
          · exact absurd h' hbefore
          · exact absurd h' hne
          · exact h'
        · exact hfirst entry hmem

/-- The table without entries. -/
def empty : Table κ α := ⟨[], List.Pairwise.nil⟩

/-- The value of a key. -/
def get? (t : Table κ α) (key : κ) : Option α := t.entries.lookup key

/-- A table with the value of a key replaced or put in its place. -/
def insert (t : Table κ α) (key : κ) (value : α) : Table κ α :=
  ⟨insertEntry key value t.entries, sorted_insertEntry key value t.sorted⟩

/-- The keys in order. -/
def keys (t : Table κ α) : List κ := t.entries.map (·.1)

/-- The values in the order of their keys. -/
def values (t : Table κ α) : List α := t.entries.map (·.2)

/-- The position of a key among the keys. -/
def position? (t : Table κ α) (key : κ) : Option Nat := t.keys.findIdx? (· = key)

/-- A table with every value replaced. -/
def mapValues (t : Table κ α) (f : α → β) : Table κ β :=
  ⟨t.entries.map fun (key, value) => (key, f value), List.pairwise_map.2 t.sorted⟩

/-! ## Looking up -/

omit [Key κ] in
/-- The lookup of a key among entries, without the instance of `BEq`. -/
theorem lookup_cons (key other : κ) (value : α) (rest : List (κ × α)) :
    ((other, value) :: rest).lookup key = if key = other then some value else rest.lookup key := by
  by_cases h : key = other
  · simp [h]
  · have : (key == other) = false := by simpa using h
    simp [List.lookup_cons, h, this]

theorem lookup_insertEntry (key : κ) (value : α) (entries : List (κ × α)) (other : κ) :
    (insertEntry key value entries).lookup other =
      if other = key then some value else entries.lookup other := by
  induction entries with
  | nil => simp [insertEntry, lookup_cons]
  | cons entry rest ih =>
    obtain ⟨first, old⟩ := entry
    unfold insertEntry
    by_cases hfirst : key = first
    · subst hfirst
      by_cases h : other = key <;> simp [h, lookup_cons]
    · by_cases hbefore : Key.before key first = true
      · simp only [hfirst, hbefore, if_true, if_false, lookup_cons]
      · simp only [hfirst, hbefore, if_false, lookup_cons, ih, Bool.false_eq_true]
        by_cases h : other = first
        · subst h
          simp [Ne.symm hfirst]
        · simp [h]

/-- After an insertion the key has the new value and every other key the one it had. -/
@[simp] theorem get?_insert (t : Table κ α) (key : κ) (value : α) (other : κ) :
    (t.insert key value).get? other = if other = key then some value else t.get? other :=
  lookup_insertEntry key value t.entries other

@[simp] theorem get?_empty (key : κ) : (empty : Table κ α).get? key = none := rfl

omit [Key κ] in
theorem lookup_map (f : α → β) (key : κ) (entries : List (κ × α)) :
    (entries.map fun (k, value) => (k, f value)).lookup key = (entries.lookup key).map f := by
  induction entries with
  | nil => rfl
  | cons entry rest ih =>
    obtain ⟨first, value⟩ := entry
    rw [List.map_cons, lookup_cons, lookup_cons, ih]
    split <;> rfl

@[simp] theorem get?_mapValues (t : Table κ α) (f : α → β) (key : κ) :
    (t.mapValues f).get? key = (t.get? key).map f := lookup_map f key t.entries

omit [Key κ] in
theorem mem_entries_of_lookup {key : κ} {value : α} {entries : List (κ × α)}
    (h : entries.lookup key = some value) : (key, value) ∈ entries := by
  induction entries with
  | nil => simp at h
  | cons entry rest ih =>
    obtain ⟨first, old⟩ := entry
    rw [lookup_cons] at h
    split at h
    · rename_i heq
      subst heq
      injection h with h
      subst h
      exact List.mem_cons_self
    · exact List.mem_cons_of_mem _ (ih h)

/-- A key has a value exactly if the table has an entry of both. -/
theorem get?_eq_some_iff (t : Table κ α) (key : κ) (value : α) :
    t.get? key = some value ↔ (key, value) ∈ t.entries := by
  refine ⟨mem_entries_of_lookup, fun hmem => ?_⟩
  obtain ⟨entries, hsorted⟩ := t
  simp only [get?] at hmem ⊢
  induction entries with
  | nil => simp at hmem
  | cons entry rest ih =>
    obtain ⟨first, old⟩ := entry
    obtain ⟨hfirst, hrest⟩ := List.pairwise_cons.1 hsorted
    rw [lookup_cons]
    rcases List.mem_cons.1 hmem with heq | hmem
    · simp only [Prod.mk.injEq] at heq
      simp [heq.1, heq.2]
    · rw [if_neg (Ne.symm (ne_of_before (hfirst _ hmem)))]
      exact ih hrest hmem

omit [DecidableEq κ] in
theorem nodup_keys (t : Table κ α) : t.keys.Nodup :=
  List.pairwise_map.2 (t.sorted.imp ne_of_before)

/-- A position belongs to the key that stands there. -/
theorem position?_eq_some_iff (t : Table κ α) (key : κ) (index : Nat) :
    t.position? key = some index ↔ t.keys[index]? = some key := by
  rw [position?, List.findIdx?_eq_some_iff_getElem]
  constructor
  · rintro ⟨hindex, hkey, -⟩
    rw [List.getElem?_eq_getElem hindex]
    simpa using hkey
  · intro h
    obtain ⟨hindex, hkey⟩ := List.getElem?_eq_some_iff.1 h
    refine ⟨hindex, by simpa using hkey, fun j hj => ?_⟩
    simp only [decide_eq_true_eq]
    intro hjkey
    have hji : j = index := (List.getElem_inj t.nodup_keys).1 (hjkey.trans hkey.symm)
    omega

theorem mem_keys_iff (t : Table κ α) (key : κ) : key ∈ t.keys ↔ (t.get? key).isSome := by
  simp only [keys, List.mem_map, Option.isSome_iff_exists, get?_eq_some_iff]
  constructor
  · rintro ⟨⟨k, value⟩, hmem, rfl⟩
    exact ⟨value, hmem⟩
  · rintro ⟨value, hmem⟩
    exact ⟨(key, value), hmem, rfl⟩

end Table

end PipelineArchive
