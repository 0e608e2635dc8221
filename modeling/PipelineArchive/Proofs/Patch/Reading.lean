import PipelineArchive.Proofs.Patch.Declarations
import PipelineArchive.Proofs.Text.Splitting

/-!
# The shape of a declaration

`read?` finds a declaration at the start of a line exactly if the line starts with its text and
the declaration is cut as declarations are written (`read?_eq_some_iff`). Nothing that follows
the terminator has a say in this.
-/

set_option autoImplicit false

namespace PipelineArchive.Patch

open Text

namespace Declaration

/-! ## Blanks and words -/

/-- The codes of the blanks. -/
def blankCodes : List Nat :=
  [0x09, 0x0A, 0x0B, 0x0C, 0x0D, 0x20, 0x85, 0xA0, 0x1680, 0x2000, 0x2001, 0x2002, 0x2003,
    0x2004, 0x2005, 0x2006, 0x2007, 0x2008, 0x2009, 0x200A, 0x2028, 0x2029, 0x202F, 0x205F, 0x3000]

theorem mem_blankCodes {c : Char} (h : isBlank c) : c.toNat ∈ blankCodes := by
  simp only [isBlank, Bool.or_eq_true, Bool.and_eq_true, decide_eq_true_eq, beq_iff_eq] at h
  simp only [blankCodes, List.mem_cons, List.not_mem_nil, or_false]
  omega

/-- What holds of all blanks is checked code by code. -/
theorem forall_isBlank {P : Char → Prop} (h : ∀ code ∈ blankCodes, P (Char.ofNat code)) {c : Char}
    (hc : isBlank c) : P c := by
  have hcode := h _ (mem_blankCodes hc)
  rwa [Char.ofNat_toNat] at hcode

theorem not_isWord_of_isBlank {c : Char} (h : isBlank c) : isWord c = false :=
  forall_isBlank (P := fun c => isWord c = false) (by decide +kernel) h

theorem not_isTerminator_of_isBlank {c : Char} (h : isBlank c) : isTerminator c = false :=
  forall_isBlank (P := fun c => isTerminator c = false) (by decide +kernel) h

theorem isTerminator_iff {c : Char} : isTerminator c ↔ c = ';' ∨ c = '{' := by
  rw [isTerminator, Bool.or_eq_true, beq_iff_eq, beq_iff_eq]

theorem not_isTerminator_of_isWord {c : Char} (h : isWord c) : isTerminator c = false := by
  refine Bool.eq_false_iff.2 fun hterminator => ?_
  rcases isTerminator_iff.1 hterminator with rfl | rfl
  all_goals exact absurd h (by decide)

theorem not_isIndent_of_isWord {c : Char} (h : isWord c) : isIndent c = false := by
  refine Bool.eq_false_iff.2 fun hindent => ?_
  rw [isIndent, Bool.or_eq_true, beq_iff_eq, beq_iff_eq] at hindent
  rcases hindent with rfl | rfl
  all_goals exact absurd h (by decide)

theorem isBlank_of_isIndent {c : Char} (h : isIndent c) : isBlank c := by
  rw [isIndent, Bool.or_eq_true, beq_iff_eq, beq_iff_eq] at h
  rcases h with rfl | rfl
  all_goals decide

theorem trimStart_append {blanks : List Char} (hblanks : ∀ c ∈ blanks, isBlank c)
    (text : List Char) : trimStart (blanks ++ text) = trimStart text :=
  List.dropWhile_append_of_pos hblanks

/-! ## Words before a keyword -/

/-- Whether a keyword starts here is decided before the next character that is in no word. -/
theorem startsWithWord_append_cons {word : List Char} (hword : ∀ x ∈ word, isWord x) {c : Char}
    (hc : isWord c = false) (text rest rest' : List Char) :
    startsWithWord word (text ++ c :: rest) = startsWithWord word (text ++ c :: rest') := by
  have hmem : c ∉ word := fun h => by
    rw [hword c h] at hc
    cases hc
  rw [startsWithWord, startsWithWord, after?, after?, isPrefixOf_append_cons hmem,
    isPrefixOf_append_cons hmem]
  by_cases hpre : word.isPrefixOf text = true
  · obtain ⟨more, rfl⟩ := List.isPrefixOf_iff_prefix.1 hpre
    rw [if_pos hpre, if_pos hpre, List.append_assoc, List.append_assoc, List.drop_left,
      List.drop_left]
    cases more <;> rfl
  · rw [if_neg hpre, if_neg hpre]

theorem startsWithKeyword_append_cons {c : Char} (hc : isWord c = false)
    (text rest rest' : List Char) :
    startsWithKeyword (text ++ c :: rest) = startsWithKeyword (text ++ c :: rest') := by
  have huniform : ∀ x ∈ "uniform".toList, isWord x := List.all_eq_true.1 rfl
  have hbuffer : ∀ x ∈ "buffer".toList, isWord x := List.all_eq_true.1 rfl
  rw [startsWithKeyword, startsWithKeyword, startsWithWord_append_cons huniform hc text rest rest',
    startsWithWord_append_cons hbuffer hc text rest rest']

/-- Words are read up to a terminator at most. -/
theorem words?_append_cons {c : Char} (hc : isTerminator c) (text rest rest' : List Char)
    (place : WordPlace) : words? place (text ++ c :: rest) = words? place (text ++ c :: rest') := by
  have hword : isWord c = false := Bool.eq_false_iff.2 fun h => by
    rw [not_isTerminator_of_isWord h] at hc
    cases hc
  have hblank : isBlank c = false := Bool.eq_false_iff.2 fun h => by
    rw [not_isTerminator_of_isBlank h] at hc
    cases hc
  induction text generalizing place with
  | nil =>
    have hstop (more : List Char) : words? place (c :: more) = none := by
      have hkeyword := startsWithKeyword_of_not_isWord hword more
      cases place <;> simp [words?, hkeyword, hword, hblank]
    rw [List.nil_append, List.nil_append, hstop, hstop]
  | cons x text ih =>
    have hkeyword := startsWithKeyword_append_cons hword (x :: text) rest rest'
    rw [List.cons_append, List.cons_append] at hkeyword ⊢
    cases place <;> simp [words?, hkeyword, ih]

/-- Before the keyword are words and blanks. -/
theorem words?_eq_some {text words : List Char} {place : WordPlace}
    (h : words? place text = some words) :
    (∀ c ∈ words, isTerminator c = false) ∧ ∃ rest, text = words ++ rest := by
  induction text generalizing place words with
  | nil => cases place <;> cases h
  | cons c text ih =>
    -- where a character is passed over, it is in a word or blank
    have hpassed {next : WordPlace} (hc : isTerminator c = false)
        (hnext : (words? next text).map (c :: ·) = some words) :
        (∀ x ∈ words, isTerminator x = false) ∧ ∃ rest, c :: text = words ++ rest := by
      obtain ⟨more, hmore, rfl⟩ := Option.map_eq_some_iff.1 hnext
      obtain ⟨hall, rest, rfl⟩ := ih hmore
      exact ⟨List.forall_mem_cons.2 ⟨hc, hall⟩, rest, rfl⟩
    have hhere (hkeyword : some [] = some words) :
        (∀ x ∈ words, isTerminator x = false) ∧ ∃ rest, c :: text = words ++ rest := by
      cases hkeyword
      exact ⟨List.forall_mem_nil _, _, rfl⟩
    cases place with
    | start =>
      rw [words?] at h
      split at h
      · exact hhere h
      · split at h
        · exact hpassed (not_isTerminator_of_isWord ‹_›) h
        · cases h
    | inside =>
      rw [words?] at h
      split at h
      · exact hpassed (not_isTerminator_of_isWord ‹_›) h
      · split at h
        · exact hpassed (not_isTerminator_of_isBlank ‹_›) h
        · cases h
    | blank =>
      rw [words?] at h
      split at h
      · exact hhere h
      · split at h
        · exact hpassed (not_isTerminator_of_isWord ‹_›) h
        · split at h
          · exact hpassed (not_isTerminator_of_isBlank ‹_›) h
          · cases h

/-- A statement starts with a word. -/
theorem exists_isWord_of_words? {text words : List Char} (h : words? .start text = some words) :
    ∃ c rest, text = c :: rest ∧ isWord c := by
  cases text with
  | nil => cases h
  | cons c rest =>
    refine ⟨c, rest, rfl, ?_⟩
    by_cases hc : isWord c = true
    · exact hc
    · have hkeyword := startsWithKeyword_of_not_isWord (Bool.eq_false_iff.2 hc) rest
      rw [words?, hkeyword, if_neg Bool.false_ne_true, if_neg hc] at h
      cases h

theorem words?_blanks {blanks : List Char} (hblanks : ∀ c ∈ blanks, isBlank c)
    {text : List Char} (h : words? .blank text = none) :
    words? .blank (blanks ++ text) = none := by
  induction blanks with
  | nil => exact h
  | cons c blanks ih =>
    rw [List.forall_mem_cons] at hblanks
    have hword := not_isWord_of_isBlank hblanks.1
    have hkeyword := startsWithKeyword_of_not_isWord hword (blanks ++ text)
    simp [words?, hkeyword, hword, hblanks.1, ih hblanks.2]

/-- A layout is not one of the words. -/
theorem words?_layout {blanks : List Char} (hblanks : ∀ c ∈ blanks, isBlank c)
    (rest : List Char) (place : WordPlace) :
    words? place ("layout".toList ++ (blanks ++ '(' :: rest)) = none := by
  have hstop (place : WordPlace) : words? place ('(' :: rest) = none := by
    cases place <;> rfl
  have hinside : words? .inside (blanks ++ '(' :: rest) = none := by
    cases blanks with
    | nil => exact hstop .inside
    | cons c blanks =>
      rw [List.forall_mem_cons] at hblanks
      have hword := not_isWord_of_isBlank hblanks.1
      simp [words?, hword, hblanks.1, words?_blanks hblanks.2 (hstop .blank)]
  -- the word is followed by a blank or by the parenthesis
  obtain ⟨c, more, hmore, hc⟩ : ∃ c more, blanks ++ '(' :: rest = c :: more ∧ isWord c = false := by
    cases blanks with
    | nil => exact ⟨_, _, rfl, rfl⟩
    | cons c blanks => exact ⟨c, _, rfl, not_isWord_of_isBlank (hblanks c List.mem_cons_self)⟩
  rw [hmore] at hinside ⊢
  let word : Identifier := ⟨'l', "ayout".toList, by decide, List.all_eq_true.1 rfl⟩
  have hkeyword : ¬word.IsKeyword := by
    rintro (h | h) <;> exact absurd h (by decide)
  exact Identifier.words?_eq_none hkeyword hc hinside place

/-! ## Layouts -/

/-- A layout as it stands before a statement, and what stands between its parentheses. -/
inductive IsOpening : List Char → List Char → Prop
  | none : IsOpening [] []
  | layout {blanks qualifiers after : List Char} (hblanks : ∀ c ∈ blanks, isBlank c)
      (hqualifiers : ')' ∉ qualifiers) (hafter : ∀ c ∈ after, isBlank c) :
      IsOpening ("layout".toList ++ (blanks ++ '(' :: (qualifiers ++ ')' :: after))) qualifiers

theorem IsOpening.exists_layout {opening qualifiers : List Char}
    (h : IsOpening opening qualifiers) (hne : opening ≠ []) :
    ∃ blanks after,
      opening = "layout".toList ++ (blanks ++ '(' :: (qualifiers ++ ')' :: after)) ∧
        (∀ c ∈ blanks, isBlank c) ∧ ')' ∉ qualifiers ∧ ∀ c ∈ after, isBlank c := by
  cases h with
  | none => exact (hne rfl).elim
  | @layout blanks _ after hblanks hqualifiers hafter =>
    exact ⟨blanks, after, rfl, hblanks, hqualifiers, hafter⟩

theorem IsOpening.qualifiers_eq_nil {opening qualifiers : List Char}
    (h : IsOpening opening qualifiers) (hopening : opening = []) : qualifiers = [] := by
  cases h with
  | none => rfl
  | layout => exact (List.append_ne_nil_of_left_ne_nil (by decide) _ hopening).elim

theorem IsOpening.not_mem_qualifiers {opening qualifiers : List Char}
    (h : IsOpening opening qualifiers) : ')' ∉ qualifiers := by
  cases h with
  | none => exact List.not_mem_nil
  | layout _ hqualifiers => exact hqualifiers

theorem eq_append_trimStart (text : List Char) :
    ∃ blanks, (∀ c ∈ blanks, isBlank c) ∧ text = blanks ++ trimStart text :=
  ⟨text.takeWhile isBlank, fun _ hc => List.mem_takeWhile_imp hc,
    List.takeWhile_append_dropWhile.symm⟩

theorem takeWhile_parenthesis {qualifiers : List Char} (h : ')' ∉ qualifiers)
    (rest : List Char) :
    (qualifiers ++ ')' :: rest).takeWhile (· ≠ ')') = qualifiers ∧
      (qualifiers ++ ')' :: rest).dropWhile (· ≠ ')') = ')' :: rest := by
  refine takeWhile_append_cons (fun c hc => ?_) (by decide) rest
  rw [decide_eq_true_eq]
  rintro rfl
  exact h hc

/-- The word `layout` is none of a layout if no parenthesis follows. -/
theorem layout?_of_ne {text more : List Char} {c : Char} (hstart : trimStart text = c :: more)
    (hc : c ≠ '(') : layout? ("layout".toList ++ text) = none := by
  rw [layout?, after?_append]
  dsimp only
  rw [hstart]
  split
  · rename_i heq
    cases heq
    exact (hc rfl).elim
  · rfl

/-- A layout whose parenthesis is closed is taken off with the blanks behind it. -/
theorem layout?_of_closed {text qualifiers after : List Char}
    (hstart : trimStart text = '(' :: (qualifiers ++ ')' :: after))
    (hqualifiers : ')' ∉ qualifiers) :
    layout? ("layout".toList ++ text) = some (qualifiers, trimStart after) := by
  obtain ⟨htake, hdrop⟩ := takeWhile_parenthesis hqualifiers after
  rw [layout?, after?_append]
  dsimp only
  rw [hstart]
  simp only [htake, hdrop]

/-- What is left of a text when a layout is taken off. -/
def behindLayout (text : List Char) : List Char := ((layout? text).getD ([], text)).2

/-- With its layout taken off, a text is as `read?` looks at it behind the indentation. -/
theorem exists_opening (text : List Char) :
    ∃ opening qualifiers rest, text = opening ++ rest ∧ IsOpening opening qualifiers ∧
      (layout? text).getD ([], text) = (qualifiers, rest) := by
  have hnone : ∃ opening qualifiers rest, text = opening ++ rest ∧
      IsOpening opening qualifiers ∧ ([], text) = (qualifiers, rest) :=
    ⟨[], [], text, rfl, .none, rfl⟩
  rw [layout?]
  split
  · exact hnone
  · rename_i behind hbehind
    split
    · rename_i inner hinner
      split
      · rename_i after hafter
        obtain ⟨blanks, hblanks, htrim⟩ := eq_append_trimStart behind
        obtain ⟨gap, hgap, hrest⟩ := eq_append_trimStart after
        have hqualifiers : ')' ∉ inner.takeWhile (· ≠ ')') := fun h => by
          simpa using List.mem_takeWhile_imp h
        have hclosed : inner = inner.takeWhile (· ≠ ')') ++ ')' :: after := by
          rw [← hafter, List.takeWhile_append_dropWhile]
        refine ⟨_, _, _, ?_, .layout hblanks hqualifiers hgap, rfl⟩
        rw [eq_append_of_after? hbehind, htrim, hinner]
        simp only [List.append_assoc, List.cons_append]
        rw [← hrest, ← hclosed]
      · exact hnone
    · exact hnone

/-- A layout before a statement is taken off. -/
theorem IsOpening.getD_layout? {opening qualifiers : List Char}
    (h : IsOpening opening qualifiers) {rest words : List Char}
    (hwords : words? .start rest = some words) :
    (layout? (opening ++ rest)).getD ([], opening ++ rest) = (qualifiers, rest) := by
  obtain ⟨c, more, rfl, hc⟩ := exists_isWord_of_words? hwords
  have hstart : trimStart (c :: more) = c :: more :=
    List.dropWhile_cons_of_neg fun hblank => by
      rw [not_isWord_of_isBlank hblank] at hc
      cases hc
  cases h with
  | none =>
    obtain ⟨opening, qualifiers, rest, htext, hopening, hlayout⟩ := exists_opening (c :: more)
    rw [List.nil_append, hlayout]
    cases hopening with
    | none => rw [htext, List.nil_append]
    | layout hblanks =>
      -- the words would start with the layout
      rw [htext, List.append_assoc, List.append_assoc, List.cons_append,
        words?_layout hblanks] at hwords
      cases hwords
  | @layout blanks _ after hblanks hqualifiers hafter =>
    have hopen : trimStart (blanks ++ ('(' :: (qualifiers ++ ')' :: (after ++ c :: more)))) =
        '(' :: (qualifiers ++ ')' :: (after ++ c :: more)) := by
      rw [trimStart_append hblanks, trimStart, List.dropWhile_cons_of_neg (by decide)]
    simp only [List.append_assoc, List.cons_append]
    rw [layout?_of_closed hopen hqualifiers, trimStart_append hafter, hstart, Option.getD_some]

/-! ## Reading a declaration -/

/-- A declaration is cut into parts as `read?` does: the words before the keyword are followed
by a body that goes up to the terminator, with its trailing blanks in the gap. -/
structure IsWritten (d : Declaration) : Prop where
  indent : ∀ c ∈ d.indent, isIndent c
  opening : IsOpening d.opening d.qualifiers
  statement : ∃ words body, d.head = words ++ trimEnd body ∧ d.gap = trailingBlanks body ∧
    (∀ c ∈ body, isTerminator c = false) ∧
    words? .start (words ++ (body ++ [d.terminator])) = some words
  terminator : isTerminator d.terminator

/-- A layout starts with a word, as a statement does. -/
theorem IsOpening.exists_isWord {opening qualifiers : List Char}
    (h : IsOpening opening qualifiers) {rest words : List Char}
    (hwords : words? .start rest = some words) :
    ∃ c more, opening ++ rest = c :: more ∧ isWord c := by
  cases h with
  | none => exact exists_isWord_of_words? hwords
  | layout => exact ⟨'l', _, rfl, by decide⟩

theorem read?_of_layout {indent opening qualifiers rest : List Char}
    (hindent : ∀ c ∈ indent, isIndent c)
    (hstart : (opening ++ rest).dropWhile isIndent = opening ++ rest)
    (hlayout : (layout? (opening ++ rest)).getD ([], opening ++ rest) = (qualifiers, rest)) :
    read? (indent ++ (opening ++ rest)) =
      match words? .start rest with
      | none => none
      | some words =>
          let body := (rest.drop words.length).takeWhile fun c => !isTerminator c
          match (rest.drop words.length).dropWhile fun c => !isTerminator c with
          | [] => none
          | terminator :: _ =>
              some ⟨indent, opening, qualifiers, words ++ trimEnd body, trailingBlanks body,
                terminator⟩ := by
  have hnone : (opening ++ rest).takeWhile isIndent = [] := by
    have hsplit := List.takeWhile_append_dropWhile (p := isIndent) (l := opening ++ rest)
    rw [hstart] at hsplit
    exact List.append_left_eq_self.1 hsplit
  have hopening : (opening ++ rest).take ((opening ++ rest).length - rest.length) = opening := by
    rw [List.length_append, Nat.add_sub_cancel, List.take_left]
  rw [read?, List.takeWhile_append_of_pos hindent, List.dropWhile_append_of_pos hindent, hstart,
    hnone, List.append_nil, hlayout]
  dsimp only
  generalize (opening ++ rest).take _ = found at hopening ⊢
  subst hopening
  rfl

/-- A body goes up to the first terminator, if there is one. -/
theorem exists_body (text : List Char) :
    (∀ c ∈ text, isTerminator c = false) ∨ ∃ body terminator rest,
      text = body ++ terminator :: rest ∧ (∀ c ∈ body, isTerminator c = false) ∧
        isTerminator terminator := by
  induction text with
  | nil => exact .inl (List.forall_mem_nil _)
  | cons c text ih =>
    by_cases hc : isTerminator c = true
    · exact .inr ⟨[], c, text, rfl, List.forall_mem_nil _, hc⟩
    · have hc : isTerminator c = false := Bool.eq_false_iff.2 hc
      rcases ih with hfree | ⟨body, terminator, rest, rfl, hbody, hterminator⟩
      · exact .inl (List.forall_mem_cons.2 ⟨hc, hfree⟩)
      · exact .inr ⟨c :: body, terminator, rest, rfl, List.forall_mem_cons.2 ⟨hc, hbody⟩,
          hterminator⟩

/-- Words, body and terminator are the statement of a declaration. -/
theorem append_statement (words body : List Char) (terminator : Char) (rest : List Char) :
    words ++ trimEnd body ++ trailingBlanks body ++ terminator :: rest =
      words ++ (body ++ terminator :: rest) := by
  rw [List.append_assoc words, trimEnd_append_trailingBlanks, List.append_assoc]

/-- Whatever follows the terminator, the same words are read. -/
theorem IsWritten.exists_words {d : Declaration} (h : d.IsWritten) :
    ∃ words body, d.head = words ++ trimEnd body ∧ d.gap = trailingBlanks body ∧
      (∀ c ∈ body, isTerminator c = false) ∧ ∀ rest,
        d.text ++ rest = d.indent ++ (d.opening ++ (words ++ (body ++ d.terminator :: rest))) ∧
        words? .start (words ++ (body ++ d.terminator :: rest)) = some words := by
  obtain ⟨words, body, hhead, hgap, hfree, hwords⟩ := h.statement
  refine ⟨words, body, hhead, hgap, hfree, fun rest => ⟨?_, ?_⟩⟩
  · rw [← append_statement, ← hgap, ← hhead]
    simp [Declaration.text]
  · rw [← hwords, ← List.append_assoc, ← List.append_assoc]
    exact words?_append_cons h.terminator (words ++ body) rest [] .start

/-- A declaration stands at the start of a line exactly if the line starts with its text and it
is cut into parts as `read?` does. -/
theorem read?_eq_some_iff {line : List Char} {d : Declaration} :
    read? line = some d ↔ d.IsWritten ∧ ∃ rest, line = d.text ++ rest := by
  constructor
  · intro h
    obtain ⟨opening, qualifiers, rest, htext, hopening, hlayout⟩ :=
      exists_opening (line.dropWhile isIndent)
    have hindent : ∀ c ∈ line.takeWhile isIndent, isIndent c := fun _ hc =>
      List.mem_takeWhile_imp hc
    have hline : line.takeWhile isIndent ++ (opening ++ rest) = line := by
      rw [← htext, List.takeWhile_append_dropWhile]
    have hstart : (opening ++ rest).dropWhile isIndent = opening ++ rest := by
      rw [← htext, List.dropWhile_idempotent]
    rw [htext] at hlayout
    rw [← hline, read?_of_layout hindent hstart hlayout] at h
    cases hwords : words? .start rest with
    | none =>
      rw [hwords] at h
      cases h
    | some words =>
      obtain ⟨-, behind, rfl⟩ := words?_eq_some hwords
      simp only [hwords, List.drop_left] at h
      rcases exists_body behind with hfree | ⟨body, terminator, more, rfl, hfree, hterminator⟩
      · have hnone : behind.dropWhile (fun c => !isTerminator c) = [] :=
          List.dropWhile_eq_nil_iff.2 (by simpa using hfree)
        rw [hnone] at h
        cases h
      · obtain ⟨htake, hdrop⟩ := takeWhile_append_cons (p := fun c => !isTerminator c)
          (by simpa using hfree) (by simpa using hterminator) more
        rw [← List.append_assoc, words?_append_cons hterminator (words ++ body) more []] at hwords
        rw [List.append_assoc] at hwords
        simp only [htake, hdrop] at h
        cases h
        refine ⟨⟨hindent, hopening, ⟨words, body, rfl, rfl, hfree, hwords⟩, hterminator⟩, more, ?_⟩
        rw [← append_statement] at hline
        simp only [Declaration.text, List.append_assoc, List.cons_append,
          List.nil_append] at hline ⊢
        exact hline.symm
  · rintro ⟨hd, rest, rfl⟩
    obtain ⟨words, body, hhead, hgap, hfree, hrest⟩ := hd.exists_words
    obtain ⟨hline, hwords⟩ := hrest rest
    have hstart : (d.opening ++ (words ++ (body ++ d.terminator :: rest))).dropWhile isIndent =
        d.opening ++ (words ++ (body ++ d.terminator :: rest)) := by
      obtain ⟨c, more, hcons, hc⟩ := hd.opening.exists_isWord hwords
      rw [hcons]
      refine List.dropWhile_cons_of_neg ?_
      rw [not_isIndent_of_isWord hc]
      exact Bool.false_ne_true
    obtain ⟨htake, hdrop⟩ := takeWhile_append_cons (p := fun c => !isTerminator c)
      (by simpa using hfree) (by simpa using hd.terminator) rest
    rw [hline, read?_of_layout hd.indent hstart (hd.opening.getD_layout? hwords), hwords]
    simp only [List.drop_left, htake, hdrop]
    rw [← hhead, ← hgap]

/-- Behind its indentation a declaration starts with a word. -/
theorem IsWritten.exists_isWord {d : Declaration} (h : d.IsWritten) (rest : List Char) :
    ∃ c more, trimStart (d.text ++ rest) = c :: more ∧ isWord c := by
  obtain ⟨words, body, -, -, -, hrest⟩ := h.exists_words
  obtain ⟨hline, hwords⟩ := hrest rest
  obtain ⟨c, more, hcons, hc⟩ := h.opening.exists_isWord hwords
  refine ⟨c, more, ?_, hc⟩
  rw [hline, hcons, trimStart_append fun c hc => isBlank_of_isIndent (h.indent c hc)]
  refine List.dropWhile_cons_of_neg fun hblank => ?_
  rw [not_isWord_of_isBlank hblank] at hc
  cases hc

/-! ## Lines without a declaration -/

theorem read?_eq_none_of_words? {indent text : List Char} (hindent : ∀ c ∈ indent, isIndent c)
    (hstart : text.dropWhile isIndent = text) (h : words? .start (behindLayout text) = none) :
    read? (indent ++ text) = none := by
  obtain ⟨opening, qualifiers, rest, rfl, -, hlayout⟩ := exists_opening text
  rw [behindLayout, hlayout] at h
  rw [read?_of_layout hindent hstart hlayout, h]

/-- Where a terminator follows, there is no declaration only if there are no words. -/
theorem words?_eq_none_of_read? {indent text : List Char} (hindent : ∀ c ∈ indent, isIndent c)
    (hstart : text.dropWhile isIndent = text) {c : Char} (hc : c ∈ behindLayout text)
    (hterminator : isTerminator c) (h : read? (indent ++ text) = none) :
    words? .start (behindLayout text) = none := by
  obtain ⟨opening, qualifiers, rest, rfl, -, hlayout⟩ := exists_opening text
  rw [behindLayout, hlayout] at hc ⊢
  rw [read?_of_layout hindent hstart hlayout] at h
  cases hwords : words? .start rest with
  | none => rfl
  | some words =>
    obtain ⟨hfree, behind, rfl⟩ := words?_eq_some hwords
    -- the words go on to the terminator
    have hbehind : c ∈ behind := (List.mem_append.1 hc).resolve_left fun hmem => by
      rw [hfree c hmem] at hterminator
      cases hterminator
    have hsome : behind.dropWhile (fun c => !isTerminator c) ≠ [] := fun hnil => by
      have hall := List.dropWhile_eq_nil_iff.1 hnil c hbehind
      rw [hterminator] at hall
      cases hall
    obtain ⟨terminator, more, hmore⟩ := List.exists_cons_of_ne_nil hsome
    simp only [hwords, List.drop_left, hmore] at h
    cases h

end Declaration

end PipelineArchive.Patch
