import Mathlib.Data.List.DropRight
import PipelineArchive.Text.Blank

/-!
# Splitting and trimming

What is left of a text after its ends are trimmed has no blank at its ends, so that trimming it
again changes nothing (`trim_trim`), also behind a further blank (`trim_cons_trim`). The parts
between separators have no separator in them, and parts without one are found again in the text
that joins them (`splitOn_joinWith`).
-/

set_option autoImplicit false

namespace PipelineArchive.Text

/-! ## Trimming -/

theorem trimEnd_subset (cs : List Char) : trimEnd cs ⊆ cs := by
  intro c hc
  rw [← trimEnd_append_trailingBlanks cs]
  exact List.mem_append_left _ hc

theorem trim_subset (cs : List Char) : trim cs ⊆ cs :=
  fun _ hc => trimStart_subset cs (trimEnd_subset _ hc)

/-- Only a character that is not blank is kept with nothing behind it. -/
theorem trimEnd_cons (c : Char) (rest : List Char) :
    trimEnd (c :: rest) =
      if trimEnd rest = [] then (if isBlank c then [] else [c]) else c :: trimEnd rest := by
  rw [trimEnd]
  split
  · rename_i hnone
    rw [if_pos hnone]
  · rename_i hsome
    rw [if_neg (fun hnone => hsome hnone)]

theorem trimEnd_trimEnd (cs : List Char) : trimEnd (trimEnd cs) = trimEnd cs := by
  induction cs with
  | nil => rfl
  | cons c rest ih =>
    rw [trimEnd_cons]
    split
    · split
      · rfl
      · rename_i hc
        simp [trimEnd, hc]
    · rename_i hrest
      rw [trimEnd_cons, ih, if_neg hrest]

/-- A text whose start is not trimmed starts with no blank. -/
theorem not_isBlank_of_trimStart {c : Char} {rest : List Char}
    (h : trimStart (c :: rest) = c :: rest) : isBlank c = false := by
  refine Bool.eq_false_iff.2 fun hblank => ?_
  rw [trimStart, List.dropWhile_cons_of_pos hblank] at h
  have hlength := congrArg List.length h
  have hle := (List.dropWhile_suffix isBlank (l := rest)).length_le
  rw [List.length_cons] at hlength
  omega

/-- A text that starts with no blank still does so when its end is trimmed. -/
theorem trimStart_trimEnd {cs : List Char} (h : trimStart cs = cs) :
    trimStart (trimEnd cs) = trimEnd cs := by
  cases cs with
  | nil => rfl
  | cons c rest =>
    have hc := not_isBlank_of_trimStart h
    rw [trimEnd_cons, hc]
    split <;> simp [trimStart, hc]

/-- What has been trimmed starts with no blank. -/
theorem trimStart_trim (cs : List Char) : trimStart (trim cs) = trim cs :=
  trimStart_trimEnd (List.dropWhile_idempotent isBlank cs)

theorem trim_trim (cs : List Char) : trim (trim cs) = trim cs := by
  rw [trim, trimStart_trim, trim, trimEnd_trimEnd]

theorem trim_cons_trim {c : Char} (hc : isBlank c) (cs : List Char) :
    trim (c :: trim cs) = trim cs := by
  have hstart : trimStart (c :: trim cs) = trimStart (trim cs) := by
    rw [trimStart, List.dropWhile_cons_of_pos hc, trimStart]
  rw [trim, hstart, trimStart_trim, trim, trimEnd_trimEnd]

/-- What stands before a text is trimmed off with the blanks it begins with, if it is blank. -/
theorem trimStart_append_eq_iff {before text : List Char} :
    trimStart (before ++ text) = trimStart text ↔ ∀ c ∈ before, isBlank c := by
  rw [trimStart, trimStart, List.dropWhile_append]
  constructor
  · intro h
    split at h
    · rename_i hempty
      exact List.dropWhile_eq_nil_iff.1 (List.isEmpty_iff.1 hempty)
    · rename_i hempty
      have hlength := congrArg List.length h
      have hle := (List.dropWhile_suffix isBlank (l := text)).length_le
      have hpos := List.length_pos_iff.2 fun hnil => hempty (List.isEmpty_iff.2 hnil)
      rw [List.length_append] at hlength
      omega
  · intro h
    rw [if_pos (List.isEmpty_iff.2 (List.dropWhile_eq_nil_iff.2 h))]

/-! ## Taking off a word or a part -/

theorem after?_append (word text : List Char) : after? word (word ++ text) = some text := by
  rw [after?, if_pos (List.isPrefixOf_iff_prefix.2 (List.prefix_append _ _)), List.drop_left]

theorem eq_append_of_after? {word text rest : List Char} (h : after? word text = some rest) :
    text = word ++ rest := by
  rw [after?] at h
  split at h
  · rename_i hpre
    obtain ⟨more, rfl⟩ := List.isPrefixOf_iff_prefix.1 hpre
    rw [List.drop_left] at h
    cases h
    rfl
  · cases h

/-- A text is cut before the first character that ends the part. -/
theorem takeWhile_append_cons {p : Char → Bool} {part : List Char} (hpart : ∀ c ∈ part, p c)
    {c : Char} (hc : p c = false) (rest : List Char) :
    (part ++ c :: rest).takeWhile p = part ∧ (part ++ c :: rest).dropWhile p = c :: rest := by
  rw [List.takeWhile_append_of_pos hpart, List.dropWhile_append_of_pos hpart]
  simp [hc]

/-! ## Parts between separators -/

theorem splitOn_ne_nil (separator : Char) (cs : List Char) : splitOn separator cs ≠ [] := by
  cases cs with
  | nil => simp [splitOn]
  | cons c rest =>
    rw [splitOn]
    split
    · exact List.cons_ne_nil _ _
    · split <;> exact List.cons_ne_nil _ _

/-- A part has the characters of the text, but not the separator. -/
theorem mem_splitOn {separator : Char} {cs part : List Char} (h : part ∈ splitOn separator cs) :
    part ⊆ cs ∧ separator ∉ part := by
  induction cs generalizing part with
  | nil =>
    obtain rfl := List.mem_singleton.1 h
    exact ⟨List.Subset.refl _, List.not_mem_nil⟩
  | cons c rest ih =>
    rw [splitOn] at h
    split at h
    · rcases List.mem_cons.1 h with rfl | h
      · exact ⟨List.nil_subset _, List.not_mem_nil⟩
      · exact ⟨fun x hx => List.mem_cons_of_mem c ((ih h).1 hx), (ih h).2⟩
    · rename_i hc
      split at h
      · rename_i hnone
        exact (splitOn_ne_nil separator rest hnone).elim
      · rename_i first parts hsplit
        rw [hsplit] at ih
        rcases List.mem_cons.1 h with rfl | h
        · obtain ⟨hsubset, hfree⟩ := ih List.mem_cons_self
          refine ⟨List.cons_subset_cons c hsubset, ?_⟩
          rw [List.mem_cons, not_or]
          exact ⟨fun heq => hc heq.symm, hfree⟩
        · obtain ⟨hsubset, hfree⟩ := ih (List.mem_cons_of_mem _ h)
          exact ⟨fun x hx => List.mem_cons_of_mem c (hsubset hx), hfree⟩

theorem splitOn_of_not_mem {separator : Char} {part : List Char} (h : separator ∉ part) :
    splitOn separator part = [part] := by
  induction part with
  | nil => rfl
  | cons c rest ih =>
    rw [List.mem_cons, not_or] at h
    rw [splitOn, if_neg (Ne.symm h.1), ih h.2]

theorem splitOn_append_cons {separator : Char} {part : List Char} (h : separator ∉ part)
    (rest : List Char) :
    splitOn separator (part ++ separator :: rest) = part :: splitOn separator rest := by
  induction part with
  | nil => rw [List.nil_append, splitOn, if_pos rfl]
  | cons c part ih =>
    rw [List.mem_cons, not_or] at h
    rw [List.cons_append, splitOn, if_neg (Ne.symm h.1), ih h.2]

theorem joinWith_cons_cons (separator first second : List Char) (parts : List (List Char)) :
    joinWith separator (first :: second :: parts) =
      first ++ separator ++ joinWith separator (second :: parts) := by
  rw [joinWith]
  exact List.cons_ne_nil _ _

/-- The last part stands at the end, and what joins it to others right before it. -/
theorem joinWith_concat (separator last : List Char) {parts : List (List Char)}
    (h : parts ≠ []) :
    joinWith separator (parts ++ [last]) = joinWith separator parts ++ separator ++ last := by
  induction parts with
  | nil => exact (h rfl).elim
  | cons first parts ih =>
    cases parts with
    | nil => simp [joinWith]
    | cons second parts =>
      have hrest := ih (List.cons_ne_nil _ _)
      rw [List.cons_append] at hrest
      rw [List.cons_append, List.cons_append, joinWith_cons_cons, joinWith_cons_cons, hrest]
      simp only [List.append_assoc]

theorem joinWith_subset {separator : List Char} {parts : List (List Char)} {c : Char}
    (h : c ∈ joinWith separator parts) : c ∈ separator ∨ ∃ part ∈ parts, c ∈ part := by
  induction parts with
  | nil => cases h
  | cons first parts ih =>
    cases parts with
    | nil => exact .inr ⟨first, List.mem_cons_self, h⟩
    | cons second parts =>
      rw [joinWith_cons_cons, List.mem_append, List.mem_append] at h
      rcases h with (h | h) | h
      · exact .inr ⟨first, List.mem_cons_self, h⟩
      · exact .inl h
      · rcases ih h with h | ⟨part, hpart, h⟩
        · exact .inl h
        · exact .inr ⟨part, List.mem_cons_of_mem _ hpart, h⟩

/-- Parts that were joined by a separator and a blank are found again, each but the first one
behind the blank. -/
theorem splitOn_joinWith {separator : Char} (blank : Char) (hblank : blank ≠ separator)
    {first : List Char} {parts : List (List Char)} (hfirst : separator ∉ first)
    (hparts : ∀ part ∈ parts, separator ∉ part) :
    splitOn separator (joinWith [separator, blank] (first :: parts)) =
      first :: parts.map (blank :: ·) := by
  have hbehind {part : List Char} (h : separator ∉ part) : separator ∉ blank :: part := by
    rw [List.mem_cons, not_or]
    exact ⟨Ne.symm hblank, h⟩
  -- the parts behind the first one begin with the blank
  suffices hall : ∀ start : List Char, separator ∉ start → splitOn separator
      (start ++ joinWith [separator, blank] ([] :: parts)) =
        start :: parts.map (blank :: ·) by
    have h := hall first hfirst
    cases parts with
    | nil => simpa [joinWith] using h
    | cons second parts => simpa [joinWith_cons_cons] using h
  induction parts with
  | nil =>
    intro start hstart
    simpa [joinWith] using splitOn_of_not_mem hstart
  | cons second parts ih =>
    intro start hstart
    obtain ⟨hsecond, hrest⟩ := List.forall_mem_cons.1 hparts
    have hnext := ih hrest (blank :: second) (hbehind hsecond)
    have hjoin : joinWith [separator, blank] ([] :: second :: parts) =
        separator :: (blank :: second ++ joinWith [separator, blank] ([] :: parts)) := by
      cases parts with
      | nil => simp [joinWith]
      | cons third parts => simp [joinWith_cons_cons]
    rw [hjoin, splitOn_append_cons hstart, hnext, List.map_cons]

end PipelineArchive.Text
