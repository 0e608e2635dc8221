import PipelineArchive.Patch.Declaration

/-!
# Declarations that start a line

A declaration is found where it starts a line. In a text of uniforms this is the case for the
first one, and for any other if a newline stands in the spacing before it. `assignBindings` puts
the units of these before their declarations and copies everything else
(`assignBindings_uniforms`). So it does what is asked of it exactly if every later uniform that
has a unit starts a line, and two uniforms in one line are a text for which it does not
(`not_always_bound`).
-/

set_option autoImplicit false

namespace PipelineArchive.Patch

open Text Declaration

/-! ## Uniforms -/

/-- Whether a character may stand between words. -/
def isSpacing (c : Char) : Bool := c == ' ' || c == '\t' || c == '\n'

/-- Whether a character may stand in an identifier. -/
def isNameChar (c : Char) : Bool := c.isAlphanum || c == '_'

/-- A run of spaces, tabs and newlines. -/
structure Spacing where
  chars : List Char
  isSpacing_chars : ∀ c ∈ chars, isSpacing c

/-- A plain identifier: letters, digits and underscores, the first of which is no digit. -/
structure Identifier where
  first : Char
  others : List Char
  isNameChar_first : isNameChar first ∧ first.isDigit = false
  isNameChar_others : ∀ c ∈ others, isNameChar c

namespace Identifier

def chars (i : Identifier) : List Char := i.first :: i.others

def text (i : Identifier) : String := String.ofList i.chars

/-- Whether the identifier is a word that a declaration may begin with. -/
def IsKeyword (i : Identifier) : Prop :=
  i.chars = "uniform".toList ∨ i.chars = "buffer".toList

end Identifier

/-- A declaration `uniform TYPE NAME;` with the spacing before it. If there is a newline in it,
its type and its name are no keywords, with which another declaration could start. -/
structure Uniform where
  before : Spacing
  afterKeyword : Spacing
  typeName : Identifier
  afterType : Spacing
  name : Identifier
  afterKeyword_ne_nil : afterKeyword.chars ≠ []
  afterType_ne_nil : afterType.chars ≠ []
  not_isKeyword : '\n' ∈ afterKeyword.chars ++ afterType.chars →
    ¬typeName.IsKeyword ∧ ¬name.IsKeyword

namespace Uniform

variable (units : String → Option UInt32) (u : Uniform)

/-- The word that uniforms start with. -/
def keyword : List Char := "uniform".toList

/-- From the keyword to the name. -/
def head : List Char :=
  keyword ++ u.afterKeyword.chars ++ u.typeName.chars ++ u.afterType.chars ++ u.name.chars

/-- The uniform as it is written. -/
def text : List Char := u.before.chars ++ u.head ++ [';']

/-- What is written before a declaration whose name has a unit. -/
def placing : List Char :=
  match units u.name.text with
  | some unit => s!"layout(binding = {unit.toNat}) ".toList
  | none => []

/-- The uniform with the unit of its name, if there is one. -/
def bound : List Char := u.before.chars ++ u.placing units ++ u.head ++ [';']

/-- What the uniform becomes, at the start of a line or elsewhere. -/
def written (atLineStart : Bool) : List Char :=
  if atLineStart = true ∨ '\n' ∈ u.before.chars then u.bound units else u.text

end Uniform

/-- What uniforms become, the first at the start of a line or elsewhere, and each other one
behind the uniform before it. -/
def writtenAll (units : String → Option UInt32) : Bool → List Uniform → List Char
  | _, [] => []
  | atLineStart, u :: rest => u.written units atLineStart ++ writtenAll units false rest

/-! ## Characters -/

/-- Spacing without a newline may indent a line. -/
theorem forall_isIndent {spacing : List Char} (h : ∀ c ∈ spacing, isSpacing c)
    (hline : '\n' ∉ spacing) : ∀ c ∈ spacing, isIndent c := by
  intro c hc
  have hne : c ≠ '\n' := fun heq => hline (heq ▸ hc)
  simpa [isSpacing, isIndent, hne] using h c hc

theorem isBlank_of_isSpacing {c : Char} (h : isSpacing c) : isBlank c := by
  simp only [isSpacing, Bool.or_eq_true, beq_iff_eq] at h
  obtain (rfl | rfl) | rfl := h <;> rfl

theorem not_isWord_of_isSpacing {c : Char} (h : isSpacing c) : isWord c = false := by
  simp only [isSpacing, Bool.or_eq_true, beq_iff_eq] at h
  obtain (rfl | rfl) | rfl := h <;> rfl

/-- The codes of the characters of identifiers. -/
theorem toNat_of_isNameChar {c : Char} (h : isNameChar c) :
    48 ≤ c.toNat ∧ c.toNat ≤ 57 ∨ 65 ≤ c.toNat ∧ c.toNat ≤ 90 ∨ c.toNat = 95 ∨
      97 ≤ c.toNat ∧ c.toNat ≤ 122 := by
  have hupper (h : c.isUpper) : 65 ≤ c.toNat ∧ c.toNat ≤ 90 := of_decide_eq_true h
  have hlower (h : c.isLower) : 97 ≤ c.toNat ∧ c.toNat ≤ 122 :=
    (Bool.and_eq_true_iff.1 h).imp of_decide_eq_true of_decide_eq_true
  have hdigit (h : c.isDigit) : 48 ≤ c.toNat ∧ c.toNat ≤ 57 :=
    (Bool.and_eq_true_iff.1 h).imp of_decide_eq_true of_decide_eq_true
  obtain h | h := Bool.or_eq_true_iff.1 h
  · obtain h | h := Bool.or_eq_true_iff.1 h
    · obtain h | h := Bool.or_eq_true_iff.1 h
      · exact .inr (.inl (hupper h))
      · exact .inr (.inr (.inr (hlower h)))
    · exact .inl (hdigit h)
  · obtain rfl := beq_iff_eq.1 h
    exact .inr (.inr (.inl rfl))

theorem isWord_of_isNameChar {c : Char} (h : isNameChar c) : isWord c := by
  have hcode := toNat_of_isNameChar h
  rw [isWord, if_pos (by omega)]
  exact h

theorem not_isBlank_of_isNameChar {c : Char} (h : isNameChar c) : isBlank c = false := by
  have hcode := toNat_of_isNameChar h
  simp only [isBlank, Bool.or_eq_false_iff, Bool.and_eq_false_iff, decide_eq_false_iff_not,
    beq_eq_false_iff_ne]
  omega

theorem Identifier.isNameChar_chars (i : Identifier) : ∀ c ∈ i.chars, isNameChar c :=
  List.forall_mem_cons.2 ⟨i.isNameChar_first.1, i.isNameChar_others⟩

theorem Identifier.not_mem_chars (i : Identifier) {c : Char} (h : isNameChar c = false) :
    c ∉ i.chars := by
  intro hmem
  rw [i.isNameChar_chars c hmem] at h
  cases h

theorem Spacing.not_mem_chars (s : Spacing) {c : Char} (h : isSpacing c = false) :
    c ∉ s.chars := by
  intro hmem
  rw [s.isSpacing_chars c hmem] at h
  cases h

/-- What is not in identifiers is in a uniform only as a part of its spacing. -/
theorem Uniform.not_mem_head (u : Uniform) {c : Char} (hname : isNameChar c = false)
    (hgaps : c ∉ u.afterKeyword.chars ++ u.afterType.chars) : c ∉ u.head := by
  rw [List.mem_append, not_or] at hgaps
  rw [head, List.mem_append, List.mem_append, List.mem_append, List.mem_append]
  rintro ((((h | h) | h) | h) | h)
  · have hall : ∀ x ∈ keyword, isNameChar x := List.all_eq_true.1 rfl
    rw [hall c h] at hname
    cases hname
  · exact hgaps.1 h
  · exact u.typeName.not_mem_chars hname h
  · exact hgaps.2 h
  · exact u.name.not_mem_chars hname h

theorem Uniform.not_mem_gaps (u : Uniform) {c : Char} (h : isSpacing c = false) :
    c ∉ u.afterKeyword.chars ++ u.afterType.chars := by
  rw [List.mem_append, not_or]
  exact ⟨u.afterKeyword.not_mem_chars h, u.afterType.not_mem_chars h⟩

/-! ## Words at the start of a text -/

/-- A word is not continued beyond a character that is not in it. -/
theorem isPrefixOf_append_cons {word : List Char} {c : Char} (hc : c ∉ word)
    (text rest : List Char) :
    word.isPrefixOf (text ++ c :: rest) = word.isPrefixOf text := by
  induction word generalizing text with
  | nil => simp
  | cons x word ih =>
    rw [List.mem_cons, not_or] at hc
    cases text with
    | nil => simp [List.isPrefixOf, Ne.symm hc.1]
    | cons y text => simp [List.isPrefixOf, ih hc.2]

theorem startsWithWord_append {word w : List Char} {c : Char} (hword : ∀ x ∈ word, isWord x)
    (hw : ∀ x ∈ w, isWord x) (hc : isWord c = false) (rest : List Char) :
    startsWithWord word (w ++ c :: rest) = true ↔ w = word := by
  have hmem : c ∉ word := fun h => by
    rw [hword c h] at hc
    cases hc
  rw [startsWithWord, after?, isPrefixOf_append_cons hmem]
  by_cases hpre : word.isPrefixOf w = true
  · obtain ⟨more, rfl⟩ := List.isPrefixOf_iff_prefix.1 hpre
    rw [if_pos hpre, List.append_assoc, List.drop_left]
    cases more with
    | nil => simp [hc]
    | cons x more =>
      have hx : isWord x := hw x (by simp)
      simp [hx]
  · rw [if_neg hpre]
    refine ⟨fun h => (Bool.false_ne_true h).elim, fun h => (hpre ?_).elim⟩
    rw [h]
    exact List.isPrefixOf_iff_prefix.2 List.prefix_rfl

theorem startsWithKeyword_append {w : List Char} {c : Char} (hw : ∀ x ∈ w, isWord x)
    (hc : isWord c = false) (rest : List Char) :
    startsWithKeyword (w ++ c :: rest) = true ↔
      w = "uniform".toList ∨ w = "buffer".toList := by
  have huniform : ∀ x ∈ "uniform".toList, isWord x := List.all_eq_true.1 rfl
  have hbuffer : ∀ x ∈ "buffer".toList, isWord x := List.all_eq_true.1 rfl
  rw [startsWithKeyword, Bool.or_eq_true, startsWithWord_append huniform hw hc,
    startsWithWord_append hbuffer hw hc]

theorem startsWithKeyword_of_not_isWord {c : Char} (hc : isWord c = false) (rest : List Char) :
    startsWithKeyword (c :: rest) = false := by
  rw [← Bool.not_eq_true, ← List.nil_append (c :: rest),
    startsWithKeyword_append (List.forall_mem_nil _) hc]
  decide

theorem Identifier.not_startsWithKeyword {i : Identifier} (h : ¬i.IsKeyword) {c : Char}
    (hc : isWord c = false) (rest : List Char) :
    startsWithKeyword (i.chars ++ c :: rest) = false := by
  have hchars : ∀ x ∈ i.chars, isWord x := fun x hx =>
    isWord_of_isNameChar (i.isNameChar_chars x hx)
  rw [← Bool.not_eq_true, startsWithKeyword_append hchars hc]
  exact h

/-- There is no layout where no parenthesis opens before the end of the statement. -/
theorem layout?_eq_none {text : List Char} (h : '(' ∉ text) (rest : List Char) :
    layout? (text ++ ';' :: rest) = none := by
  rw [layout?, after?, isPrefixOf_append_cons (by decide)]
  by_cases hpre : "layout".toList.isPrefixOf text = true
  · obtain ⟨more, rfl⟩ := List.isPrefixOf_iff_prefix.1 hpre
    have hopen : ∀ inner, trimStart (more ++ ';' :: rest) ≠ '(' :: inner := by
      intro inner hinner
      rw [trimStart, List.dropWhile_append] at hinner
      split at hinner
      · cases hinner
      · rename_i hmore
        obtain ⟨x, others, hx⟩ := List.exists_cons_of_ne_nil (mt List.isEmpty_iff.2 hmore)
        rw [hx] at hinner
        cases hinner
        refine h (List.mem_append_right _ (trimStart_subset more ?_))
        rw [trimStart, hx]
        exact List.mem_cons_self
    rw [if_pos hpre, List.append_assoc, List.drop_left]
    dsimp only
    split
    · rename_i inner hinner
      exact (hopen inner hinner).elim
    · rfl
  · rw [if_neg hpre]

/-! ## Places where no declaration starts -/

/-- After its indentation the text does not start with a declaration. -/
structure NoDeclaration (text : List Char) : Prop where
  dropWhile_eq : text.dropWhile isIndent = text
  layout?_eq : layout? text = none
  words?_eq : words? .start text = none

namespace NoDeclaration

theorem nil : NoDeclaration [] := ⟨rfl, rfl, rfl⟩

theorem newline (rest : List Char) : NoDeclaration ('\n' :: rest) := ⟨rfl, rfl, rfl⟩

theorem read?_indented {text : List Char} (h : NoDeclaration text) {indent : List Char}
    (hindent : ∀ c ∈ indent, isIndent c) : read? (indent ++ text) = none := by
  rw [read?, List.dropWhile_append_of_pos hindent, h.dropWhile_eq, h.layout?_eq]
  simp only [Option.getD_none, h.words?_eq]

theorem read?_self {text : List Char} (h : NoDeclaration text) : read? text = none :=
  List.nil_append text ▸ h.read?_indented (List.forall_mem_nil _)

/-- Where no declaration starts, there is none after spacing either. -/
theorem read?_eq_none {text : List Char} (h : NoDeclaration text) {spacing : List Char}
    (hspacing : ∀ c ∈ spacing, isSpacing c) : read? (spacing ++ text) = none := by
  by_cases hline : '\n' ∈ spacing
  · -- only what is before the first newline is indentation
    obtain ⟨indent, rest, rfl, hfree⟩ := List.eq_append_cons_of_mem hline
    rw [List.append_assoc]
    exact (newline _).read?_indented
      (forall_isIndent (fun c hc => hspacing c (List.mem_append_left _ hc)) hfree)
  · exact h.read?_indented (forall_isIndent hspacing hline)

end NoDeclaration

/-- An identifier that is no keyword is passed over in the search for one. -/
theorem Identifier.words?_eq_none {i : Identifier} (h : ¬i.IsKeyword) {c : Char}
    {rest : List Char} (hc : isWord c = false) (hrest : words? .inside (c :: rest) = none)
    (place : WordPlace) : words? place (i.chars ++ c :: rest) = none := by
  have hinside (word : List Char) (hword : ∀ x ∈ word, isNameChar x) :
      words? .inside (word ++ c :: rest) = none := by
    induction word with
    | nil => exact hrest
    | cons x word ih =>
      have hx := isWord_of_isNameChar (hword x List.mem_cons_self)
      rw [List.cons_append, words?, if_pos hx, ih fun y hy => hword y (List.mem_cons_of_mem _ hy)]
      rfl
  have hkeyword := Identifier.not_startsWithKeyword h hc rest
  have hfirst := isWord_of_isNameChar i.isNameChar_first.1
  have hothers := hinside i.others i.isNameChar_others
  rw [chars, List.cons_append] at hkeyword ⊢
  cases place <;> simp [words?, hkeyword, hfirst, hothers]

theorem Spacing.words?_eq_none (s : Spacing) {text : List Char}
    (h : words? .blank text = none) : words? .blank (s.chars ++ text) = none := by
  obtain ⟨spacing, hall⟩ := s
  change words? .blank (spacing ++ text) = none
  induction spacing with
  | nil => exact h
  | cons c spacing ih =>
    rw [List.forall_mem_cons] at hall
    have hword := not_isWord_of_isSpacing hall.1
    have hkeyword := startsWithKeyword_of_not_isWord hword (spacing ++ text)
    simp [words?, hkeyword, hword, isBlank_of_isSpacing hall.1, ih hall.2]

/-- Words that end with spacing go on behind it. -/
theorem Spacing.words?_inside_eq_none (s : Spacing) (hs : s.chars ≠ []) {text : List Char}
    (h : words? .blank text = none) : words? .inside (s.chars ++ text) = none := by
  obtain ⟨spacing, hall⟩ := s
  obtain ⟨c, spacing, rfl⟩ := List.exists_cons_of_ne_nil hs
  rw [List.forall_mem_cons] at hall
  have hrest : words? .blank (spacing ++ text) = none :=
    Spacing.words?_eq_none ⟨spacing, hall.2⟩ h
  change words? .inside (c :: (spacing ++ text)) = none
  simp [words?, not_isWord_of_isSpacing hall.1, isBlank_of_isSpacing hall.1, hrest]

theorem Identifier.noDeclaration {i : Identifier} (h : ¬i.IsKeyword) {c : Char}
    {rest : List Char} (hc : isWord c = false) (hrest : words? .inside (c :: rest) = none)
    (hlayout : layout? (i.chars ++ c :: rest) = none) : NoDeclaration (i.chars ++ c :: rest) where
  dropWhile_eq := by
    refine List.dropWhile_cons_of_neg fun hindent => ?_
    have hcode := toNat_of_isNameChar i.isNameChar_first.1
    simp only [isIndent, Bool.or_eq_true, beq_iff_eq] at hindent
    obtain hfirst | hfirst := hindent
    all_goals
      rw [hfirst] at hcode
      exact absurd hcode (by decide)
  layout?_eq := hlayout
  words?_eq := Identifier.words?_eq_none h hc hrest .start

namespace Uniform

/-- Where spacing can make its name start a line, the name starts no declaration. -/
theorem noDeclaration_name {u : Uniform}
    (h : '\n' ∈ u.afterKeyword.chars ++ u.afterType.chars) (rest : List Char) :
    NoDeclaration (u.name.chars ++ ';' :: rest) :=
  Identifier.noDeclaration (u.not_isKeyword h).2 rfl rfl
    (layout?_eq_none (u.name.not_mem_chars rfl) rest)

/-- Where spacing can make its type start a line, the type starts no declaration. -/
theorem noDeclaration_typeName {u : Uniform}
    (h : '\n' ∈ u.afterKeyword.chars ++ u.afterType.chars) (rest : List Char) :
    NoDeclaration (u.typeName.chars ++ (u.afterType.chars ++ (u.name.chars ++ ';' :: rest))) := by
  have hwords : words? .inside (u.afterType.chars ++ (u.name.chars ++ ';' :: rest)) = none :=
    u.afterType.words?_inside_eq_none u.afterType_ne_nil
      (Identifier.words?_eq_none (u.not_isKeyword h).2 rfl rfl .blank)
  have hlayout : layout? (u.typeName.chars ++ (u.afterType.chars ++ (u.name.chars ++ ';' :: rest)))
      = none := by
    rw [← List.append_assoc, ← List.append_assoc]
    refine layout?_eq_none ?_ rest
    rw [List.mem_append, List.mem_append]
    rintro ((hmem | hmem) | hmem)
    · exact u.typeName.not_mem_chars rfl hmem
    · exact u.afterType.not_mem_chars rfl hmem
    · exact u.name.not_mem_chars rfl hmem
  obtain ⟨c, spacing, hspacing⟩ := List.exists_cons_of_ne_nil u.afterType_ne_nil
  have hc : isWord c = false :=
    not_isWord_of_isSpacing (u.afterType.isSpacing_chars c (by simp [hspacing]))
  rw [hspacing] at hwords hlayout ⊢
  exact Identifier.noDeclaration (u.not_isKeyword h).1 hc hwords hlayout

end Uniform

/-! ## Copied characters -/

section Copying

variable (replace : Declaration → List Char)

/-- Nothing but a newline makes a line start. -/
theorem mapFrom_append_of_not_mem {text : List Char} (h : '\n' ∉ text) (rest : List Char) :
    mapFrom replace false 0 (text ++ rest) = text ++ mapFrom replace false 0 rest := by
  induction text with
  | nil => rfl
  | cons c text ih =>
    rw [List.mem_cons, not_or] at h
    have hline : (c == '\n') = false := beq_false_of_ne (Ne.symm h.1)
    rw [List.cons_append, mapFrom, if_neg Bool.false_ne_true, hline, ih h.2, List.cons_append]

/-- Where no declaration starts, a character is copied. -/
theorem mapFrom_cons_of_read?_eq_none {c : Char} {rest : List Char}
    (h : read? (c :: rest) = none) (atLineStart : Bool) :
    mapFrom replace atLineStart 0 (c :: rest) = c :: mapFrom replace (c == '\n') 0 rest := by
  rw [mapFrom, h, ite_self]

/-- The characters of a declaration that has been replaced are passed over. -/
theorem mapFrom_skip (read rest : List Char) :
    mapFrom replace false read.length (read ++ rest) = mapFrom replace false 0 rest := by
  induction read with
  | nil => rfl
  | cons c read ih => exact ih

/-- A declaration that starts a line is replaced. -/
theorem mapFrom_of_read? {d : Declaration} {rest : List Char}
    (h : read? (d.text ++ rest) = some d) :
    mapFrom replace true 0 (d.text ++ rest) = replace d ++ mapFrom replace false 0 rest := by
  obtain ⟨c, read, hread⟩ : ∃ c read, d.text = c :: read :=
    List.exists_cons_of_ne_nil (by simp [Declaration.text])
  rw [hread, List.cons_append] at h ⊢
  rw [mapFrom, if_pos rfl, h]
  simp only
  rw [hread, List.length_cons, Nat.add_sub_cancel, mapFrom_skip]

theorem NoDeclaration.exists_mapFrom {text : List Char} (h : NoDeclaration text)
    {spacing : List Char} (hspacing : ∀ c ∈ spacing, isSpacing c) (atLineStart : Bool) :
    ∃ atTextStart, mapFrom replace atLineStart 0 (spacing ++ text) =
      spacing ++ mapFrom replace atTextStart 0 text := by
  induction spacing generalizing atLineStart with
  | nil => exact ⟨atLineStart, rfl⟩
  | cons c spacing ih =>
    obtain ⟨atTextStart, hcopy⟩ := ih (List.forall_mem_cons.1 hspacing).2 (c == '\n')
    have hnone := h.read?_eq_none hspacing
    rw [List.cons_append] at hnone
    refine ⟨atTextStart, ?_⟩
    rw [List.cons_append, mapFrom_cons_of_read?_eq_none replace hnone, hcopy, List.cons_append]

/-- Spacing and a word are copied if no declaration starts with the word. -/
theorem NoDeclaration.mapFrom_word {word rest : List Char} (h : NoDeclaration (word ++ rest))
    (hword : ∀ c ∈ word, isNameChar c) (hne : word ≠ []) (s : Spacing) (atLineStart : Bool) :
    mapFrom replace atLineStart 0 (s.chars ++ (word ++ rest)) =
      s.chars ++ (word ++ mapFrom replace false 0 rest) := by
  obtain ⟨atTextStart, hcopy⟩ := h.exists_mapFrom replace s.isSpacing_chars atLineStart
  have hnewline {c : Char} (hc : c ∈ word) : c ≠ '\n' := by
    rintro rfl
    exact absurd (hword _ hc) (by decide)
  have hnone := h.read?_self
  obtain ⟨c, word, rfl⟩ := List.exists_cons_of_ne_nil hne
  have hline : (c == '\n') = false := beq_false_of_ne (hnewline List.mem_cons_self)
  rw [List.cons_append] at hnone
  rw [hcopy, List.cons_append, mapFrom_cons_of_read?_eq_none replace hnone, hline,
    mapFrom_append_of_not_mem replace fun h => hnewline (List.mem_cons_of_mem _ h) rfl,
    List.cons_append]

theorem mapFrom_spacing (s : Spacing) (atLineStart : Bool) :
    mapFrom replace atLineStart 0 s.chars = s.chars := by
  obtain ⟨atTextStart, hcopy⟩ :=
    NoDeclaration.nil.exists_mapFrom replace s.isSpacing_chars atLineStart
  rwa [mapFrom, List.append_nil] at hcopy

end Copying

/-! ## The name of a uniform -/

theorem suffixLength_of_not_mem {text : List Char} (h : '[' ∉ text) : suffixLength text = 0 := by
  unfold suffixLength
  split
  · rename_i inner hinner
    refine (h (trimStart_subset text ?_)).elim
    rw [hinner]
    exact List.mem_cons_self
  · rfl

/-- Without a bracket nothing is an array suffix. -/
theorem withoutSuffixesFrom_of_not_mem {text : List Char} (h : '[' ∉ text) :
    withoutSuffixesFrom 0 text = text := by
  induction text with
  | nil => rfl
  | cons c text ih =>
    rw [withoutSuffixesFrom_cons (suffixLength_of_not_mem h),
      ih fun hmem => h (List.mem_cons_of_mem _ hmem)]

/-! ## One uniform -/

namespace Uniform

variable (units : String → Option UInt32) (u : Uniform)

/-- The uniform as a declaration that is found after an indentation. -/
def found (indent : List Char) : Declaration := ⟨indent, [], [], u.head, [], ';'⟩

theorem text_found (indent : List Char) : (u.found indent).text = indent ++ u.head ++ [';'] := by
  simp [found, Declaration.text]

theorem trimEnd_head : trimEnd u.head = u.head :=
  trimEnd_append _ (fun c hc => not_isBlank_of_isNameChar (u.name.isNameChar_chars c hc)) (by
    simp [Identifier.chars])

theorem startsWithKeyword_head (rest : List Char) : startsWithKeyword (u.head ++ rest) := by
  obtain ⟨c, spacing, hspacing⟩ := List.exists_cons_of_ne_nil u.afterKeyword_ne_nil
  have hc : isWord c = false :=
    not_isWord_of_isSpacing (u.afterKeyword.isSpacing_chars c (by simp [hspacing]))
  have hkeyword : ∀ x ∈ keyword, isWord x := List.all_eq_true.1 rfl
  simp only [head, hspacing, List.append_assoc, List.cons_append]
  exact (startsWithKeyword_append hkeyword hc _).2 (.inl rfl)

theorem read?_found {indent : List Char} (hindent : ∀ c ∈ indent, isIndent c)
    (rest : List Char) :
    read? (indent ++ (u.head ++ ';' :: rest)) = some (u.found indent) := by
  obtain ⟨more, hmore⟩ : ∃ more, u.head ++ ';' :: rest = 'u' :: more := ⟨_, rfl⟩
  have hstart : (u.head ++ ';' :: rest).dropWhile isIndent = u.head ++ ';' :: rest := by
    rw [hmore]
    rfl
  have hnone : (u.head ++ ';' :: rest).takeWhile isIndent = [] := by
    rw [hmore]
    rfl
  have hlayout : layout? (u.head ++ ';' :: rest) = none :=
    layout?_eq_none (u.not_mem_head rfl (u.not_mem_gaps rfl)) rest
  have hwords : words? .start (u.head ++ ';' :: rest) = some [] := by
    have hkeyword := u.startsWithKeyword_head (';' :: rest)
    rw [hmore] at hkeyword ⊢
    rw [words?, if_pos hkeyword]
  have hbody : ∀ c ∈ u.head, (!isTerminator c) = true := by
    intro c hc
    rw [Bool.not_eq_true', isTerminator, Bool.or_eq_false_iff, beq_eq_false_iff_ne,
      beq_eq_false_iff_ne]
    constructor
    · rintro rfl
      exact u.not_mem_head rfl (u.not_mem_gaps rfl) hc
    · rintro rfl
      exact u.not_mem_head rfl (u.not_mem_gaps rfl) hc
  rw [read?, List.takeWhile_append_of_pos hindent, List.dropWhile_append_of_pos hindent, hstart,
    hnone, hlayout]
  simp only [Option.getD_none, hwords, List.length_nil, List.drop_zero, List.nil_append,
    List.append_nil, Nat.sub_self, List.take_zero]
  rw [List.takeWhile_append_of_pos hbody, List.dropWhile_append_of_pos hbody]
  simp [isTerminator, found, trimEnd_head, trailingBlanks]

theorem name?_found (indent : List Char) : (u.found indent).name? = some u.name.text := by
  have hlast := u.afterType.isSpacing_chars _ (List.getLast_mem u.afterType_ne_nil)
  have hname : ∀ c ∈ u.name.chars, isBlank c = false := fun c hc =>
    not_isBlank_of_isNameChar (u.name.isNameChar_chars c hc)
  have hword : lastWord? u.head = some u.name.chars := by
    rw [head, ← List.dropLast_concat_getLast u.afterType_ne_nil, ← List.append_assoc]
    exact lastWord?_append (isBlank_of_isSpacing hlast) hname (List.cons_ne_nil _ _)
  have hplain : withoutSuffixesFrom 0 u.head = u.head :=
    withoutSuffixesFrom_of_not_mem (u.not_mem_head rfl (u.not_mem_gaps rfl))
  change (lastWord? (withoutSuffixesFrom 0 u.head)).map String.ofList = _
  rw [hplain, hword]
  rfl

/-- What is found is written again behind the unit of its name. -/
theorem rebound_found (indent : List Char) :
    rebound units (u.found indent) = indent ++ (u.placing units ++ u.head ++ [';']) := by
  rw [rebound, name?_found, Option.bind_some, placing]
  cases units u.name.text with
  | none => simp [text_found]
  | some unit =>
    have hkept : (u.found indent).keptQualifiers = [] := rfl
    have hwritten : s!"layout(binding = {unit.toNat}) ".toList =
        "layout(".toList ++ s!"binding = {unit.toNat}".toList ++ ") ".toList := by
      simp [toString]
    simp only [withBinding, hkept, hwritten, List.nil_append, joinWith]
    simp only [found, List.append_nil, List.append_assoc]

theorem mapFrom_found {indent : List Char} (hindent : ∀ c ∈ indent, isIndent c)
    (rest : List Char) :
    mapFrom (rebound units) true 0 (indent ++ (u.head ++ ';' :: rest)) =
      indent ++ (u.placing units ++ u.head ++ [';']) ++ mapFrom (rebound units) false 0 rest := by
  have htext : indent ++ (u.head ++ ';' :: rest) = (u.found indent).text ++ rest := by
    simp [text_found]
  have hread := u.read?_found hindent rest
  rw [htext] at hread ⊢
  rw [mapFrom_of_read? _ hread, rebound_found]

/-- Where the spacing starts a line or has a newline, the uniform gets its unit. -/
theorem mapFrom_bound {spacing : List Char} (hspacing : ∀ c ∈ spacing, isSpacing c)
    {atLineStart : Bool} (hline : atLineStart = true ∨ '\n' ∈ spacing) (rest : List Char) :
    mapFrom (rebound units) atLineStart 0 (spacing ++ (u.head ++ ';' :: rest)) =
      spacing ++ (u.placing units ++ u.head ++ [';']) ++ mapFrom (rebound units) false 0 rest := by
  by_cases hnewline : '\n' ∈ spacing
  · -- what is behind the last newline is the indentation
    obtain ⟨indent, front, hsplit, hfree⟩ :=
      List.eq_append_cons_of_mem (List.mem_reverse.2 hnewline)
    obtain rfl : spacing = front.reverse ++ '\n' :: indent.reverse := by
      rw [← List.reverse_reverse spacing, hsplit]
      simp
    rw [List.forall_mem_append, List.forall_mem_cons] at hspacing
    have hblank := NoDeclaration.newline (indent.reverse ++ (u.head ++ ';' :: rest))
    obtain ⟨atNewline, hcopy⟩ := hblank.exists_mapFrom (rebound units) hspacing.1 atLineStart
    have hindent := forall_isIndent hspacing.2.2 (mt List.mem_reverse.1 hfree)
    rw [List.append_assoc, List.cons_append, hcopy,
      mapFrom_cons_of_read?_eq_none _ hblank.read?_self, beq_self_eq_true,
      u.mapFrom_found units hindent]
    simp
  · obtain rfl : atLineStart = true := hline.resolve_right hnewline
    exact u.mapFrom_found units (forall_isIndent hspacing hnewline) rest

/-- Where neither is the case, the uniform is copied. -/
theorem mapFrom_copied (h : '\n' ∉ u.before.chars) (rest : List Char) :
    mapFrom (rebound units) false 0 (u.text ++ rest) =
      u.text ++ mapFrom (rebound units) false 0 rest := by
  have hend : '\n' ∉ [';'] := by decide
  by_cases hgaps : '\n' ∈ u.afterKeyword.chars ++ u.afterType.chars
  · -- its type or its name starts a line, but no declaration
    have htext : u.text ++ rest = (u.before.chars ++ keyword) ++ (u.afterKeyword.chars ++
        (u.typeName.chars ++ (u.afterType.chars ++ (u.name.chars ++ ';' :: rest)))) := by
      simp [text, head]
    have hstart : '\n' ∉ u.before.chars ++ keyword := by
      rw [List.mem_append, not_or]
      exact ⟨h, by decide⟩
    rw [htext, mapFrom_append_of_not_mem _ hstart,
      (noDeclaration_typeName hgaps rest).mapFrom_word _ u.typeName.isNameChar_chars
        (List.cons_ne_nil _ _),
      (noDeclaration_name hgaps rest).mapFrom_word _ u.name.isNameChar_chars (List.cons_ne_nil _ _),
      ← List.singleton_append, mapFrom_append_of_not_mem _ hend]
    simp [text, head]
  · refine mapFrom_append_of_not_mem _ ?_ rest
    rw [text, List.mem_append, List.mem_append, not_or, not_or]
    exact ⟨⟨h, u.not_mem_head rfl hgaps⟩, hend⟩

/-- One uniform is written as its place demands, and behind it no line starts. -/
theorem mapFrom_text (atLineStart : Bool) (rest : List Char) :
    mapFrom (rebound units) atLineStart 0 (u.text ++ rest) =
      u.written units atLineStart ++ mapFrom (rebound units) false 0 rest := by
  by_cases hline : atLineStart = true ∨ '\n' ∈ u.before.chars
  · have hbound := u.mapFrom_bound units u.before.isSpacing_chars hline rest
    rw [written, if_pos hline]
    simpa [text, bound] using hbound
  · obtain ⟨hstart, hnewline⟩ := not_or.1 hline
    obtain rfl : atLineStart = false := Bool.eq_false_iff.2 hstart
    rw [written, if_neg hline, u.mapFrom_copied units hnewline]

theorem placing_eq_nil_iff : u.placing units = [] ↔ ¬(units u.name.text).isSome := by
  rw [placing]
  cases units u.name.text with
  | none => simp
  | some unit => simp [toString]

theorem written_eq_bound_iff (atLineStart : Bool) :
    u.written units atLineStart = u.bound units ↔
      ((units u.name.text).isSome → atLineStart = true ∨ '\n' ∈ u.before.chars) := by
  rw [written]
  split
  · rename_i hline
    exact ⟨fun _ _ => hline, fun _ => rfl⟩
  · rename_i hline
    have hplacing : u.text = u.bound units ↔ u.placing units = [] := by
      rw [text, bound, List.append_left_inj, List.append_left_inj, List.self_eq_append_right]
    rw [hplacing, placing_eq_nil_iff]
    exact ⟨fun hnone hsome => (hnone hsome).elim, fun h hsome => hline (h hsome)⟩

theorem length_written_le (atLineStart : Bool) :
    (u.written units atLineStart).length ≤ (u.bound units).length := by
  rw [written]
  split
  · exact Nat.le_refl _
  · simp only [text, bound, List.length_append]
    omega

end Uniform

/-! ## A row of uniforms -/

section Rows

variable (units : String → Option UInt32)

/-- The declarations of a row are replaced one after the other. -/
theorem mapFrom_uniforms (atLineStart : Bool) (us : List Uniform) (after : Spacing) :
    mapFrom (rebound units) atLineStart 0 (us.flatMap Uniform.text ++ after.chars) =
      writtenAll units atLineStart us ++ after.chars := by
  induction us generalizing atLineStart with
  | nil => exact mapFrom_spacing _ after atLineStart
  | cons u us ih =>
    rw [List.flatMap_cons, List.append_assoc, u.mapFrom_text, ih, writtenAll, List.append_assoc]

theorem length_writtenAll_le (atLineStart : Bool) (us : List Uniform) :
    (writtenAll units atLineStart us).length ≤ (us.flatMap (Uniform.bound units)).length := by
  induction us generalizing atLineStart with
  | nil => exact Nat.le_refl _
  | cons u us ih =>
    rw [writtenAll, List.flatMap_cons, List.length_append, List.length_append]
    exact Nat.add_le_add (u.length_written_le units atLineStart) (ih false)

/-- No uniform makes up for the characters that another one lacks. -/
theorem writtenAll_cons_eq_iff (atLineStart : Bool) (u : Uniform) (us : List Uniform) :
    writtenAll units atLineStart (u :: us) = (u :: us).flatMap (Uniform.bound units) ↔
      u.written units atLineStart = u.bound units ∧
        writtenAll units false us = us.flatMap (Uniform.bound units) := by
  rw [writtenAll, List.flatMap_cons]
  refine ⟨fun h => List.append_inj h ?_, fun ⟨hfirst, hrest⟩ => by rw [hfirst, hrest]⟩
  have hlength := congrArg List.length h
  rw [List.length_append, List.length_append] at hlength
  have hfirst := u.length_written_le units atLineStart
  have hrest := length_writtenAll_le units false us
  omega

theorem writtenAll_eq_iff (us : List Uniform) :
    writtenAll units false us = us.flatMap (Uniform.bound units) ↔
      ∀ u ∈ us, (units u.name.text).isSome → '\n' ∈ u.before.chars := by
  induction us with
  | nil => simp [writtenAll]
  | cons u us ih =>
    rw [writtenAll_cons_eq_iff, ih, u.written_eq_bound_iff, List.forall_mem_cons]
    simp

end Rows

/-- In a text of uniforms, the first one and those that have a newline in the spacing before them
get the units of their names, and everything else is copied. So all that have a unit get it
exactly if a newline stands before each of them but the first. -/
theorem assignBindings_uniforms (units : String → Option UInt32) (us : List Uniform)
    (after : Spacing) :
    assignBindings units (us.flatMap Uniform.text ++ after.chars) =
        writtenAll units true us ++ after.chars ∧
      (assignBindings units (us.flatMap Uniform.text ++ after.chars) =
          us.flatMap (Uniform.bound units) ++ after.chars ↔
        ∀ u ∈ us.tail, (units u.name.text).isSome → '\n' ∈ u.before.chars) := by
  have hwritten : assignBindings units (us.flatMap Uniform.text ++ after.chars) =
      writtenAll units true us ++ after.chars := mapFrom_uniforms units true us after
  refine ⟨hwritten, ?_⟩
  rw [hwritten, List.append_left_inj]
  cases us with
  | nil => simp [writtenAll]
  | cons u us =>
    rw [writtenAll_cons_eq_iff, writtenAll_eq_iff, u.written_eq_bound_iff, List.tail_cons]
    simp

/-! ## Two uniforms in one line -/

def Spacing.single : Spacing := ⟨[' '], List.all_eq_true.1 rfl⟩

/-- The sampler of a name of one letter. -/
def sampler (before : Spacing) (letter : Char)
    (h : isNameChar letter ∧ letter.isDigit = false) : Uniform where
  before := before
  afterKeyword := .single
  typeName := ⟨'s', "ampler2D".toList, by decide, List.all_eq_true.1 rfl⟩
  afterType := .single
  name := ⟨letter, [], h, List.forall_mem_nil _⟩
  afterKeyword_ne_nil := by decide
  afterType_ne_nil := by decide
  not_isKeyword h := absurd h (by decide)

/-- The text `uniform sampler2D a; uniform sampler2D b;`. -/
def samplers : List Uniform :=
  [sampler ⟨[], List.forall_mem_nil _⟩ 'a' (by decide), sampler .single 'b' (by decide)]

/-- It is not so that all declarations get the units of their names whatever spaces, tabs and
newlines stand between them: of two in one line, the second one is left without a unit. -/
theorem not_always_bound :
    ¬∀ (units : String → Option UInt32) (us : List Uniform),
      (us.map fun u => u.name.text).Nodup →
      (∀ u ∈ us, u.afterKeyword.chars = [' '] ∧ u.afterType.chars = [' ']) →
      (∀ u ∈ us.tail, u.before.chars ≠ []) →
      assignBindings units (us.flatMap Uniform.text) = us.flatMap (Uniform.bound units) := by
  intro hall
  let units : String → Option UInt32 := fun name => if name = "a" then some 0 else some 1
  have hbound := hall units samplers (by decide) (by decide) (by decide)
  have htext : samplers.flatMap Uniform.text =
      "uniform sampler2D a; uniform sampler2D b;".toList := by decide +kernel
  have hwritten : assignBindings units "uniform sampler2D a; uniform sampler2D b;".toList =
      "layout(binding = 0) uniform sampler2D a; uniform sampler2D b;".toList := by decide +kernel
  have hasked : samplers.flatMap (Uniform.bound units) =
      "layout(binding = 0) uniform sampler2D a; layout(binding = 1) uniform sampler2D b;".toList :=
    by decide +kernel
  rw [htext, hwritten, hasked] at hbound
  exact absurd hbound (by decide)

end PipelineArchive.Patch
