import PipelineArchive.Proofs.Patch.Reading

/-!
# Assigning the same units twice

`assignBindings` cuts a text into declarations that start a line and characters that it copies.
A declaration with its unit is found again with the same qualifiers, so that the same unit
changes nothing in it. What was copied before can be read differently, though: where a line opens
a layout and no parenthesis closes it before a declaration gets its first layout, the parenthesis
of this one closes both. `assignBindings_twice_iff` shows that this is the only way in which
assigning the same units again changes something, and `not_always_stable` that it comes about.
-/

set_option autoImplicit false

namespace PipelineArchive.Patch

open Text Declaration

/-! ## The parts of a text -/

/-- A part of a text: a character, or a declaration that starts a line. -/
inductive Part where
  | copied (c : Char)
  | declared (d : Declaration)

namespace Part

/-- The characters of a part. -/
def text : Part → List Char
  | copied c => [c]
  | declared d => d.text

/-- What is written in place of a part. -/
def written (units : String → Option UInt32) : Part → List Char
  | copied c => [c]
  | declared d => d.rebound units

/-- Whether a part declares a name that has a unit. -/
def IsKnown (units : String → Option UInt32) : Part → Prop
  | copied _ => False
  | declared d => (d.name?.bind units).isSome

end Part

/-- A text is cut into parts from a place on, which may start a line: a character is copied
unless a declaration starts a line with it. -/
inductive IsCut : Bool → List Part → Prop
  | nil (atLineStart : Bool) : IsCut atLineStart []
  | copied {atLineStart : Bool} {c : Char} {parts : List Part}
      (hnone : atLineStart = true → read? (c :: parts.flatMap Part.text) = none)
      (hparts : IsCut (c == '\n') parts) : IsCut atLineStart (.copied c :: parts)
  | declared {d : Declaration} {parts : List Part} (hd : d.IsWritten)
      (hparts : IsCut false parts) : IsCut true (.declared d :: parts)

theorem exists_isCut (atLineStart : Bool) (text : List Char) :
    ∃ parts, IsCut atLineStart parts ∧ parts.flatMap Part.text = text := by
  -- a declaration takes several characters at once
  induction hlength : text.length using Nat.strongRecOn generalizing atLineStart text with
  | _ length ih =>
    cases text with
    | nil => exact ⟨[], .nil _, rfl⟩
    | cons c rest =>
      by_cases hread : atLineStart = true ∧ ∃ d, read? (c :: rest) = some d
      · obtain ⟨rfl, d, hd⟩ := hread
        obtain ⟨hwritten, behind, htext⟩ := read?_eq_some_iff.1 hd
        have hshorter : behind.length < length := by
          rw [← hlength, htext]
          simp only [Declaration.text, List.length_append, List.length_singleton]
          omega
        obtain ⟨parts, hparts, hbehind⟩ := ih _ hshorter false behind rfl
        refine ⟨.declared d :: parts, .declared hwritten hparts, ?_⟩
        rw [List.flatMap_cons, hbehind, htext, Part.text]
      · have hshorter : rest.length < length := by
          rw [← hlength, List.length_cons]
          exact Nat.lt_succ_self _
        obtain ⟨parts, hparts, hrest⟩ := ih _ hshorter (c == '\n') rest rfl
        refine ⟨.copied c :: parts, .copied (fun hline => ?_) hparts, ?_⟩
        · rw [hrest, Option.eq_none_iff_forall_ne_some]
          exact fun d hd => hread ⟨hline, d, hd⟩
        · rw [List.flatMap_cons, hrest, Part.text, List.singleton_append]

section Units

variable (units : String → Option UInt32)

/-- Each part is replaced by what is written in its place. -/
theorem IsCut.mapFrom_eq {atLineStart : Bool} {parts : List Part} (h : IsCut atLineStart parts) :
    mapFrom (rebound units) atLineStart 0 (parts.flatMap Part.text) =
      parts.flatMap (Part.written units) := by
  induction h with
  | nil => rfl
  | @copied atLineStart c parts hnone hparts ih =>
    rw [List.flatMap_cons, List.flatMap_cons, Part.text, List.singleton_append, mapFrom]
    cases atLineStart with
    | false => rw [if_neg Bool.false_ne_true, ih, Part.written, List.singleton_append]
    | true => rw [if_pos rfl, hnone rfl, ih, Part.written, List.singleton_append]
  | @declared d parts hd hparts ih =>
    rw [List.flatMap_cons, List.flatMap_cons, Part.text,
      mapFrom_of_read? _ (read?_eq_some_iff.2 ⟨hd, _, rfl⟩), ih, Part.written]

variable {units}

theorem Part.written_of_not_isKnown {p : Part} (h : ¬p.IsKnown units) :
    p.written units = p.text := by
  cases p with
  | copied c => rfl
  | declared d =>
    rw [IsKnown, Option.not_isSome_iff_eq_none] at h
    rw [written, rebound, h, text]

theorem flatMap_written_of_not_isKnown {parts : List Part} (h : ∀ p ∈ parts, ¬p.IsKnown units) :
    parts.flatMap (Part.written units) = parts.flatMap Part.text := by
  induction parts with
  | nil => rfl
  | cons p parts ih =>
    rw [List.forall_mem_cons] at h
    rw [List.flatMap_cons, List.flatMap_cons, Part.written_of_not_isKnown h.1, ih h.2]

end Units

/-! ## A declaration with its unit -/

namespace Declaration

/-- The qualifier that gives a unit. -/
def bindingOf (unit : UInt32) : List Char := s!"binding = {unit.toNat}".toList

theorem bindingOf_eq (unit : UInt32) :
    bindingOf unit = "binding = ".toList ++ Nat.toDigits 10 unit.toNat := by
  simp [bindingOf, toString]

theorem not_mem_bindingOf (unit : UInt32) {c : Char} (hfree : c ∉ "binding = ".toList)
    (hdigit : c.isDigit = false) : c ∉ bindingOf unit := by
  rw [bindingOf_eq, List.mem_append, not_or]
  refine ⟨hfree, fun hmem => ?_⟩
  rw [Nat.isDigit_of_mem_toDigits (by decide) (by decide) hmem] at hdigit
  cases hdigit

theorem trim_bindingOf (unit : UInt32) : trim (bindingOf unit) = bindingOf unit := by
  have hblank : ∀ c ∈ Nat.toDigits 10 unit.toNat, isBlank c = false := fun c hc =>
    Bool.eq_false_iff.2 fun hc' => by
      have hdigit := Nat.isDigit_of_mem_toDigits (by decide) (by decide) hc
      rw [forall_isBlank (P := fun c => c.isDigit = false) (by decide) hc'] at hdigit
      cases hdigit
  rw [trim, bindingOf_eq]
  exact trimEnd_append "binding = ".toList hblank Nat.toDigits_ne_nil

theorem isPlace_bindingOf (unit : UInt32) : isPlace (bindingOf unit) = true := by
  rw [isPlace, bindingOf_eq]
  rfl

/-- The qualifiers of a declaration with a unit. -/
def joined (d : Declaration) (unit : UInt32) : List Char :=
  joinWith ", ".toList (d.keptQualifiers ++ [bindingOf unit])

/-- The declaration with a unit, cut as `read?` finds it again. -/
def placed (d : Declaration) (unit : UInt32) : Declaration :=
  { d with opening := "layout(".toList ++ (d.joined unit ++ ") ".toList)
           qualifiers := d.joined unit }

theorem text_placed (d : Declaration) (unit : UInt32) :
    (d.placed unit).text = d.withBinding unit := by
  simp [text, placed, joined, withBinding, bindingOf]

/-- A kept qualifier is a trimmed part of the qualifiers that gives no place. -/
theorem mem_keptQualifiers {d : Declaration} {q : List Char} (h : q ∈ d.keptQualifiers) :
    q ⊆ d.qualifiers ∧ ',' ∉ q ∧ trim q = q ∧ q ≠ [] ∧ isPlace q = false := by
  rw [keptQualifiers, List.mem_filter, List.mem_map] at h
  obtain ⟨⟨part, hpart, rfl⟩, hkept⟩ := h
  obtain ⟨hsubset, hfree⟩ := mem_splitOn hpart
  simp only [Bool.and_eq_true, Bool.not_eq_true', List.isEmpty_eq_false_iff] at hkept
  exact ⟨fun c hc => hsubset (trim_subset part hc), fun hc => hfree (trim_subset part hc),
    trim_trim part, hkept.1, hkept.2⟩

theorem not_mem_joined {d : Declaration} (unit : UInt32) (h : ')' ∉ d.qualifiers) :
    ')' ∉ d.joined unit := by
  intro hmem
  rcases joinWith_subset hmem with hmem | ⟨part, hpart, hmem⟩
  · exact absurd hmem (by decide)
  · rcases List.mem_append.1 hpart with hpart | hpart
    · exact h ((mem_keptQualifiers hpart).1 hmem)
    · rw [List.mem_singleton.1 hpart] at hmem
      exact not_mem_bindingOf unit (by decide) (by decide) hmem

theorem IsWritten.placed {d : Declaration} (h : d.IsWritten) (unit : UInt32) :
    (d.placed unit).IsWritten where
  indent := h.indent
  opening := @IsOpening.layout [] _ [' '] (List.forall_mem_nil _)
    (not_mem_joined unit h.opening.not_mem_qualifiers) (List.forall_mem_singleton.2 (by decide))
  statement := h.statement
  terminator := h.terminator

/-- The parts of the joined qualifiers are these qualifiers, but for blanks. -/
theorem map_trim_splitOn_joinWith {qualifiers : List (List Char)} (hne : qualifiers ≠ [])
    (h : ∀ q ∈ qualifiers, ',' ∉ q ∧ trim q = q) :
    (splitOn ',' (joinWith ", ".toList qualifiers)).map trim = qualifiers := by
  obtain ⟨first, others, rfl⟩ := List.exists_cons_of_ne_nil hne
  rw [List.forall_mem_cons] at h
  have hsplit := splitOn_joinWith ' ' (by decide) h.1.1 fun q hq => (h.2 q hq).1
  have hothers : (others.map (' ' :: ·)).map trim = others := by
    rw [List.map_map]
    refine (List.map_congr_left fun q hq => ?_).trans (List.map_id others)
    have htrim := trim_cons_trim (c := ' ') (by decide) q
    rwa [(h.2 q hq).2] at htrim
  change (splitOn ',' (joinWith [',', ' '] (first :: others))).map trim = first :: others
  rw [hsplit, List.map_cons, h.1.2, hothers]

/-- The qualifiers that are kept are kept again, and the binding is taken out. -/
theorem keptQualifiers_placed (d : Declaration) (unit : UInt32) :
    (d.placed unit).keptQualifiers = d.keptQualifiers := by
  have hbinding : ',' ∉ bindingOf unit ∧ trim (bindingOf unit) = bindingOf unit :=
    ⟨not_mem_bindingOf unit (by decide) (by decide), trim_bindingOf unit⟩
  have hall : ∀ q ∈ d.keptQualifiers ++ [bindingOf unit], ',' ∉ q ∧ trim q = q := by
    intro q hq
    rcases List.mem_append.1 hq with hq | hq
    · exact ⟨(mem_keptQualifiers hq).2.1, (mem_keptQualifiers hq).2.2.1⟩
    · rwa [List.mem_singleton.1 hq]
  have hkept : d.keptQualifiers.filter (fun q => !q.isEmpty && !isPlace q) = d.keptQualifiers :=
    List.filter_eq_self.2 fun q hq => by
      simp [(mem_keptQualifiers hq).2.2.2.1, (mem_keptQualifiers hq).2.2.2.2]
  change ((splitOn ',' (d.joined unit)).map trim).filter (fun q => !q.isEmpty && !isPlace q) =
    d.keptQualifiers
  rw [joined, map_trim_splitOn_joinWith (by simp) hall, List.filter_append, hkept]
  simp [isPlace_bindingOf]

/-- A declaration that has its unit is written as it is. -/
theorem rebound_placed {units : String → Option UInt32} {d : Declaration} {unit : UInt32}
    (h : d.name?.bind units = some unit) :
    rebound units (d.placed unit) = (d.placed unit).text := by
  have hname : (d.placed unit).name? = d.name? := rfl
  have hagain : (d.placed unit).withBinding unit = d.withBinding unit := by
    rw [withBinding, keptQualifiers_placed]
    rfl
  rw [rebound, hname, h, text_placed]
  exact hagain

end Declaration

/-! ## Layouts that are left open -/

/-- A text opens a layout at its start and does not close it. -/
def OpensLayout (text : List Char) : Prop :=
  ∃ indent blanks inner, text = indent ++ ("layout".toList ++ (blanks ++ '(' :: inner)) ∧
    (∀ c ∈ indent, isIndent c) ∧ (∀ c ∈ blanks, isBlank c) ∧ ')' ∉ inner

/-- A layout is left open before the first declaration of a known name. -/
def Opens (units : String → Option UInt32) (parts : List Part) : Prop :=
  ∃ before d after, parts = before ++ .declared d :: after ∧ (∀ p ∈ before, ¬p.IsKnown units) ∧
    (Part.declared d).IsKnown units ∧ OpensLayout (before.flatMap Part.text)

/-- A line outside of the declarations leaves a layout open before the next declaration of a
known name. -/
def LeavesOpen (units : String → Option UInt32) : Bool → List Part → Prop
  | _, [] => False
  | atLineStart, .copied c :: parts =>
      (atLineStart = true ∧ Opens units (.copied c :: parts)) ∨
        LeavesOpen units (c == '\n') parts
  | _, .declared _ :: parts => LeavesOpen units false parts

theorem not_mem_of_forall_isBlank {blanks : List Char} (h : ∀ c ∈ blanks, isBlank c) {c : Char}
    (hc : isBlank c = false) : c ∉ blanks := fun hmem => by
  rw [h c hmem] at hc
  cases hc

theorem OpensLayout.not_mem {text : List Char} (h : OpensLayout text) : ')' ∉ text := by
  obtain ⟨indent, blanks, inner, rfl, hindent, hblanks, hinner⟩ := h
  have hindent := not_mem_of_forall_isBlank
    (fun c hc => isBlank_of_isIndent (hindent c hc)) (c := ')') (by decide)
  have hblanks := not_mem_of_forall_isBlank hblanks (c := ')') (by decide)
  simp [hindent, hblanks, hinner]

/-- The layout of a declaration closes the one that was left open before it. -/
theorem OpensLayout.exists_swallowing {text : List Char} (h : OpensLayout text)
    {d : Declaration} (hd : d.IsWritten) (hopening : d.opening ≠ []) :
    ∃ e : Declaration, e.IsWritten ∧ e.text = text ++ d.text ∧ e.head = d.head ∧
      e.gap = d.gap ∧ e.terminator = d.terminator ∧ e.indent.length < text.length := by
  obtain ⟨indent, blanks, inner, rfl, hindent, hblanks, hinner⟩ := h
  obtain ⟨before, after, hlayout, hbefore, hqualifiers, hafter⟩ :=
    hd.opening.exists_layout hopening
  have hindent' := not_mem_of_forall_isBlank
    (fun c hc => isBlank_of_isIndent (hd.indent c hc)) (c := ')') (by decide)
  have hbefore := not_mem_of_forall_isBlank hbefore (c := ')') (by decide)
  have hclosed :
      ')' ∉ inner ++ (d.indent ++ ("layout".toList ++ (before ++ '(' :: d.qualifiers))) := by
    simp [hinner, hindent', hbefore, hqualifiers]
  refine ⟨⟨indent, _, _, d.head, d.gap, d.terminator⟩,
    ⟨hindent, .layout hblanks hclosed hafter, hd.statement, hd.terminator⟩, ?_, rfl, rfl, rfl, ?_⟩
  · simp [Declaration.text, hlayout]
  · simp

/-- Trimming stops at the first character that is not blank, whatever follows. -/
theorem blank_or_trimStart (cs : List Char) :
    (∀ c ∈ cs, isBlank c) ∨ ∃ blanks c rest, cs = blanks ++ c :: rest ∧
      (∀ c ∈ blanks, isBlank c) ∧ ∀ text, trimStart (cs ++ text) = c :: (rest ++ text) := by
  obtain ⟨blanks, hblanks, hcs⟩ := eq_append_trimStart cs
  cases hstart : trimStart cs with
  | nil =>
    left
    rwa [hcs, hstart, List.append_nil]
  | cons c rest =>
    rw [hstart] at hcs
    refine .inr ⟨blanks, c, rest, hcs, hblanks, fun text => ?_⟩
    have hagain : trimStart (trimStart cs) = trimStart cs := List.dropWhile_idempotent isBlank cs
    rw [hstart] at hagain
    have hc := Bool.eq_false_iff.1 (not_isBlank_of_trimStart hagain)
    rw [hcs, List.append_assoc, trimStart_append hblanks, List.cons_append, trimStart,
      List.dropWhile_cons_of_neg hc]

/-- Where lines leave no layout open, either some of them is left when a layout is taken off, or
they end with the layout, so that only what follows them is left. -/
theorem behindLayout_cases {front : List Char} (h : ¬OpensLayout (front ++ ['\n'])) :
    (∃ line, ∀ c more text, isWord c → trimStart text = c :: more →
      behindLayout (front ++ '\n' :: text) = line ++ '\n' :: text) ∨
    ∀ text, behindLayout (front ++ '\n' :: text) = trimStart text := by
  have hnewline : isBlank '\n' := by decide
  -- without a layout all is left
  have hall (hnone : ∀ c more text, isWord c → trimStart text = c :: more →
      layout? (front ++ '\n' :: text) = none) :
      ∃ line, ∀ c more text, isWord c → trimStart text = c :: more →
        behindLayout (front ++ '\n' :: text) = line ++ '\n' :: text :=
    ⟨front, fun c more text hc htext => by rw [behindLayout, hnone c more text hc htext]; rfl⟩
  by_cases hpre : "layout".toList.isPrefixOf front = true
  · obtain ⟨w, rfl⟩ := List.isPrefixOf_iff_prefix.1 hpre
    rcases blank_or_trimStart w with hblank | ⟨blanks, c, rest, hw, hblanks, hstart⟩
    · -- what follows does not open the layout
      refine .inl (hall fun c more text hc htext => ?_)
      have hstart : trimStart (w ++ '\n' :: text) = c :: more := by
        rw [trimStart_append hblank, trimStart, List.dropWhile_cons_of_pos hnewline, ← trimStart,
          htext]
      rw [List.append_assoc]
      refine layout?_of_ne hstart ?_
      rintro rfl
      exact absurd hc (by decide)
    · by_cases hopen : c = '('
      · subst hopen
        -- the lines close what they open
        have hclosed : ')' ∈ rest := by
          by_contra hmem
          refine h ⟨[], blanks, rest ++ ['\n'], ?_, List.forall_mem_nil _, hblanks, ?_⟩
          · simp [hw]
          · simp [hmem]
        obtain ⟨qualifiers, after, rfl, hqualifiers⟩ := List.eq_append_cons_of_mem hclosed
        have hlayout (text : List Char) : behindLayout ("layout".toList ++ w ++ '\n' :: text) =
            trimStart (after ++ '\n' :: text) := by
          have hstart := hstart ('\n' :: text)
          rw [List.append_assoc, List.cons_append] at hstart
          rw [behindLayout, List.append_assoc, layout?_of_closed hstart hqualifiers,
            Option.getD_some]
        rcases blank_or_trimStart after with hblank | ⟨-, c, line, -, -, hline⟩
        · refine .inr fun text => ?_
          rw [hlayout, trimStart_append hblank, trimStart, List.dropWhile_cons_of_pos hnewline,
            trimStart]
        · refine .inl ⟨c :: line, fun _ _ text _ _ => ?_⟩
          rw [hlayout, hline, List.cons_append]
      · refine .inl (hall fun _ _ text _ _ => ?_)
        rw [List.append_assoc]
        exact layout?_of_ne (hstart _) hopen
  · refine .inl (hall fun _ _ text _ _ => ?_)
    rw [layout?, after?, isPrefixOf_append_cons (by decide), if_neg hpre]

/-- Words that pass a newline before one text pass it before another one in which no words
follow. -/
theorem words?_append_newline {text : List Char} (htext : words? .blank text = none)
    {line other : List Char} {place : WordPlace}
    (h : words? place (line ++ '\n' :: other) = none) :
    words? place (line ++ '\n' :: text) = none := by
  induction line generalizing place with
  | nil =>
    have hword : isWord '\n' = false := by decide
    have hkeyword := startsWithKeyword_of_not_isWord hword text
    cases place <;> simp [words?, hkeyword, hword, htext]
  | cons c line ih =>
    have hkeyword := startsWithKeyword_append_cons (c := '\n') (by decide) (c :: line) other text
    rw [List.cons_append, List.cons_append] at hkeyword
    rw [List.cons_append] at h ⊢
    -- both texts take the same branch
    cases place
    all_goals
      simp only [words?, hkeyword] at h ⊢
      repeat' split at h
    all_goals simp_all

/-- A declaration with a unit starts with a layout. -/
theorem exists_text_placed (d : Declaration) (unit : UInt32) (rest : List Char) :
    ∃ more, (d.placed unit).text ++ rest =
      d.indent ++ ("layout".toList ++ ([] ++ '(' :: more)) := by
  refine ⟨d.joined unit ++ (") ".toList ++ (d.head ++ (d.gap ++ d.terminator :: rest))), ?_⟩
  simp [Declaration.text, placed]

/-- Where lines start no declaration and leave no layout open, they start none either when the
declaration behind them gets a unit. -/
theorem read?_placed_eq_none {lines : List Char} {d : Declaration} (hd : d.IsWritten)
    {rest : List Char} (hnone : read? (lines ++ '\n' :: (d.text ++ rest)) = none)
    (hopen : ¬OpensLayout (lines ++ ['\n'])) (unit : UInt32) (behind : List Char) :
    read? (lines ++ '\n' :: ((d.placed unit).text ++ behind)) = none := by
  obtain ⟨indent, front, rfl, hindent, hfront⟩ : ∃ indent front, lines = indent ++ front ∧
      (∀ c ∈ indent, isIndent c) ∧ front.dropWhile isIndent = front :=
    ⟨lines.takeWhile isIndent, lines.dropWhile isIndent, List.takeWhile_append_dropWhile.symm,
      fun _ hc => List.mem_takeWhile_imp hc, List.dropWhile_idempotent isIndent lines⟩
  have hstart (text : List Char) :
      (front ++ '\n' :: text).dropWhile isIndent = front ++ '\n' :: text := by
    rw [List.dropWhile_append, hfront]
    cases front <;> rfl
  have hopen : ¬OpensLayout (front ++ ['\n']) := by
    rintro ⟨own, blanks, inner, htext, hown, hblanks, hinner⟩
    refine hopen ⟨indent ++ own, blanks, inner, ?_, ?_, hblanks, hinner⟩
    · rw [List.append_assoc, htext, List.append_assoc]
    · exact List.forall_mem_append.2 ⟨hindent, hown⟩
  obtain ⟨more, hplaced⟩ := exists_text_placed d unit behind
  have hlayout := words?_layout (List.forall_mem_nil _) more
  have hblank (c : Char) (hc : c ∈ d.indent) : isBlank c := isBlank_of_isIndent (hd.indent c hc)
  rw [List.append_assoc] at hnone ⊢
  apply read?_eq_none_of_words? hindent (hstart _)
  rcases behindLayout_cases hopen with ⟨line, hline⟩ | htrim
  · -- the words of the lines do not reach a keyword, as they did not before
    obtain ⟨c, start, hcons, hc⟩ := hd.exists_isWord rest
    obtain ⟨c', start', hcons', hc'⟩ := (hd.placed unit).exists_isWord behind
    have hbefore := hline c start _ hc hcons
    have hterminator : d.terminator ∈ behindLayout (front ++ '\n' :: (d.text ++ rest)) := by
      rw [hbefore]
      simp [Declaration.text]
    have hwords := words?_eq_none_of_read? hindent (hstart _) hterminator hd.terminator hnone
    rw [hbefore] at hwords
    rw [hline c' start' _ hc' hcons']
    refine words?_append_newline ?_ hwords
    rw [hplaced]
    exact words?_blanks hblank (hlayout .blank)
  · rw [htrim, hplaced, trimStart_append hblank]
    exact hlayout .start

theorem exists_withBinding (d : Declaration) (unit : UInt32) :
    ∃ rest, d.withBinding unit =
      d.indent ++ ("layout(".toList ++ d.joined unit) ++ ')' :: rest := by
  refine ⟨' ' :: (d.head ++ (d.gap ++ [d.terminator])), ?_⟩
  simp [withBinding, joined, bindingOf]

/-- Where lines leave a layout open, they start a declaration when the one behind them gets its
first unit, and this declaration is not written as it is. -/
theorem exists_read?_placed {units : String → Option UInt32} {lines : List Char}
    (hopen : OpensLayout lines) {d : Declaration} (hd : d.IsWritten) {unit : UInt32}
    (hunit : d.name?.bind units = some unit) {rest : List Char}
    (hnone : read? (lines ++ (d.text ++ rest)) = none) (behind : List Char) :
    ∃ e, read? (lines ++ ((d.placed unit).text ++ behind)) = some e ∧
      e.text = lines ++ (d.placed unit).text ∧
      ∀ more more', rebound units e ++ more ≠ e.text ++ more' := by
  have hopening : d.opening = [] := by
    by_contra hne
    obtain ⟨e, he, htext, -⟩ := hopen.exists_swallowing hd hne
    rw [← List.append_assoc, ← htext, read?_eq_some_iff.2 ⟨he, rest, rfl⟩] at hnone
    cases hnone
  have hkept : d.keptQualifiers = [] := by
    rw [keptQualifiers, hd.opening.qualifiers_eq_nil hopening]
    rfl
  obtain ⟨e, he, htext, hhead, -, -, hshorter⟩ :=
    hopen.exists_swallowing (hd.placed unit) (by simp [placed])
  refine ⟨e, read?_eq_some_iff.2 ⟨he, behind, by rw [htext, List.append_assoc]⟩, htext, ?_⟩
  have hname : e.name? = d.name? := by rw [name?, hhead]; rfl
  have hrebound : rebound units e = e.withBinding unit := by rw [rebound, hname, hunit]
  intro more more' heq
  rw [hrebound, htext, text_placed] at heq
  -- compared are the parts before the first closing parenthesis
  obtain ⟨own, hown⟩ := exists_withBinding e unit
  obtain ⟨inner, hinner⟩ := exists_withBinding d unit
  have hindent {f : Declaration} (hf : f.IsWritten) : ')' ∉ f.indent :=
    not_mem_of_forall_isBlank (fun c hc => isBlank_of_isIndent (hf.indent c hc)) (by decide)
  have hownFree : ')' ∉ e.indent ++ ("layout(".toList ++ e.joined unit) := by
    have hjoined := not_mem_joined unit he.opening.not_mem_qualifiers
    simp [hindent he, hjoined]
  have hinnerFree : ')' ∉ lines ++ (d.indent ++ ("layout(".toList ++ d.joined unit)) := by
    have hjoined := not_mem_joined unit hd.opening.not_mem_qualifiers
    simp [hindent hd, hjoined, hopen.not_mem]
  rw [hown, hinner, ← List.append_assoc lines, List.append_assoc,
    List.append_assoc _ _ more'] at heq
  have hfronts := congrArg (List.takeWhile (· ≠ ')')) heq
  rw [List.cons_append, List.cons_append, (takeWhile_parenthesis hownFree _).1,
    (takeWhile_parenthesis hinnerFree _).1, joined, joined, hkept] at hfronts
  by_cases hnil : e.keptQualifiers = []
  · -- the declaration is longer than what would be written
    have hlength := congrArg List.length hfronts
    rw [hnil] at hlength
    simp only [List.length_append] at hlength
    omega
  · -- the binding stands behind a comma and a blank, or right behind the parenthesis
    rw [joinWith_concat _ _ hnil, List.nil_append, joinWith] at hfronts
    simp only [← List.append_assoc] at hfronts
    have hlast := congrArg List.getLast? (List.append_cancel_right hfronts)
    simp only [List.getLast?_append] at hlast
    exact absurd (show some ' ' = some '(' from hlast) (by decide)

/-! ## The parts of the written text -/

section Units

variable {units : String → Option UInt32}

/-- The parts before the first declaration of a known name are written as they are. -/
theorem exists_firstKnown (parts : List Part) :
    (∀ p ∈ parts, ¬p.IsKnown units) ∨ ∃ before d after, parts = before ++ .declared d :: after ∧
      (∀ p ∈ before, ¬p.IsKnown units) ∧ (Part.declared d).IsKnown units := by
  induction parts with
  | nil => exact .inl (List.forall_mem_nil _)
  | cons p parts ih =>
    by_cases hp : p.IsKnown units
    · cases p with
      | copied c => exact hp.elim
      | declared d => exact .inr ⟨[], d, parts, rfl, List.forall_mem_nil _, hp⟩
    · rcases ih with hnone | ⟨before, d, after, rfl, hbefore, hd⟩
      · exact .inl (List.forall_mem_cons.2 ⟨hp, hnone⟩)
      · exact .inr ⟨p :: before, d, after, rfl, List.forall_mem_cons.2 ⟨hp, hbefore⟩, hd⟩

/-- A declaration behind other parts starts a line. -/
theorem IsCut.exists_newline {atLineStart : Bool} {before after : List Part} {d : Declaration}
    (h : IsCut atLineStart (before ++ .declared d :: after)) :
    d.IsWritten ∧ (before ≠ [] → ∃ lines, before.flatMap Part.text = lines ++ ['\n']) := by
  induction before generalizing atLineStart with
  | nil =>
    cases h with
    | declared hd => exact ⟨hd, fun hne => (hne rfl).elim⟩
  | cons p before ih =>
    rw [List.cons_append] at h
    cases h with
    | @copied _ c _ hnone hparts =>
      obtain ⟨hd, hlines⟩ := ih hparts
      refine ⟨hd, fun _ => ?_⟩
      cases before with
      | nil =>
        -- no line starts behind another character
        by_cases hc : c = '\n'
        · exact ⟨[], by rw [hc]; rfl⟩
        · rw [beq_false_of_ne hc] at hparts
          cases hparts
      | cons q before =>
        obtain ⟨lines, hlines⟩ := hlines (List.cons_ne_nil _ _)
        exact ⟨c :: lines, by rw [List.flatMap_cons, hlines]; rfl⟩
    | @declared e _ he hparts =>
      obtain ⟨hd, hlines⟩ := ih hparts
      refine ⟨hd, fun _ => ?_⟩
      cases before with
      | nil => cases hparts
      | cons q before =>
        obtain ⟨lines, hlines⟩ := hlines (List.cons_ne_nil _ _)
        exact ⟨e.text ++ lines, by rw [List.flatMap_cons, hlines, List.append_assoc]; rfl⟩

/-- The first declaration of a known name is the first part that is written with something else. -/
theorem flatMap_firstKnown {before : List Part} {d : Declaration} {unit : UInt32}
    (hbefore : ∀ p ∈ before, ¬p.IsKnown units) (hunit : d.name?.bind units = some unit)
    (after : List Part) :
    (before ++ .declared d :: after).flatMap Part.text =
        before.flatMap Part.text ++ (d.text ++ after.flatMap Part.text) ∧
      (before ++ .declared d :: after).flatMap (Part.written units) =
        before.flatMap Part.text ++
          ((d.placed unit).text ++ after.flatMap (Part.written units)) := by
  have hd : (Part.declared d).written units = (d.placed unit).text := by
    rw [Part.written, rebound, hunit, text_placed]
  rw [List.flatMap_append, List.flatMap_append, List.flatMap_cons, List.flatMap_cons, hd,
    flatMap_written_of_not_isKnown hbefore]
  exact ⟨rfl, rfl⟩

/-- Where a line starts no declaration, it starts one in the written text exactly if it leaves
a layout open. -/
theorem IsCut.read?_written {c : Char} {parts : List Part}
    (h : IsCut true (.copied c :: parts)) :
    (¬Opens units (.copied c :: parts) →
      read? (c :: parts.flatMap (Part.written units)) = none) ∧
    (Opens units (.copied c :: parts) →
      ∃ e rest, c :: parts.flatMap (Part.written units) = e.text ++ rest ∧
        read? (e.text ++ rest) = some e ∧
        ∀ more more', rebound units e ++ more ≠ e.text ++ more') := by
  have hnone : read? (c :: parts.flatMap Part.text) = none := by
    cases h with
    | copied hnone => exact hnone rfl
  have htext : c :: parts.flatMap Part.text = (Part.copied c :: parts).flatMap Part.text := rfl
  have hwritten : c :: parts.flatMap (Part.written units) =
      (Part.copied c :: parts).flatMap (Part.written units) := rfl
  rw [htext] at hnone
  rw [hwritten]
  generalize hall : Part.copied c :: parts = all at *
  -- the text up to the first declaration that changes ends with a line
  have hsplit {before : List Part} {d : Declaration} {after : List Part}
      (heq : all = before ++ .declared d :: after) :
      d.IsWritten ∧ ∃ lines, before.flatMap Part.text = lines ++ ['\n'] := by
    subst heq
    obtain ⟨hd, hlines⟩ := h.exists_newline
    refine ⟨hd, hlines ?_⟩
    rintro rfl
    cases hall
  constructor
  · intro hopens
    rcases exists_firstKnown all with hunknown | ⟨before, d, after, heq, hbefore, hknown⟩
    · rwa [flatMap_written_of_not_isKnown hunknown]
    · obtain ⟨unit, hunit⟩ := Option.isSome_iff_exists.1 hknown
      obtain ⟨hd, lines, hlines⟩ := hsplit heq
      obtain ⟨hbeforeText, hbeforeWritten⟩ := flatMap_firstKnown hbefore hunit after
      have hclosed : ¬OpensLayout (lines ++ ['\n']) := by
        rw [← hlines]
        exact fun hopen => hopens ⟨before, d, after, heq, hbefore, hknown, hopen⟩
      rw [heq, hbeforeText, hlines, List.append_assoc] at hnone
      rw [heq, hbeforeWritten, hlines, List.append_assoc]
      exact read?_placed_eq_none hd hnone hclosed unit _
  · rintro ⟨before, d, after, heq, hbefore, hknown, hopen⟩
    obtain ⟨unit, hunit⟩ := Option.isSome_iff_exists.1 hknown
    obtain ⟨hd, -⟩ := hsplit heq
    obtain ⟨hbeforeText, hbeforeWritten⟩ := flatMap_firstKnown hbefore hunit after
    rw [heq, hbeforeText] at hnone
    obtain ⟨e, hread, heText, hne⟩ :=
      exists_read?_placed hopen hd hunit hnone (after.flatMap (Part.written units))
    rw [← List.append_assoc, ← heText] at hbeforeWritten hread
    exact ⟨e, _, heq ▸ hbeforeWritten, hread, hne⟩

/-- The units change nothing in the written text exactly if no line leaves a layout open. -/
theorem IsCut.mapFrom_written_iff {atLineStart : Bool} {parts : List Part}
    (h : IsCut atLineStart parts) :
    mapFrom (rebound units) atLineStart 0 (parts.flatMap (Part.written units)) =
        parts.flatMap (Part.written units) ↔
      ¬LeavesOpen units atLineStart parts := by
  induction h with
  | nil => simp [mapFrom, LeavesOpen]
  | @copied atLineStart c parts hnone hparts ih =>
    have hwritten : (Part.copied c :: parts).flatMap (Part.written units) =
        c :: parts.flatMap (Part.written units) := rfl
    rw [hwritten, LeavesOpen]
    by_cases hopens : atLineStart = true ∧ Opens units (.copied c :: parts)
    · obtain ⟨rfl, hopens⟩ := hopens
      obtain ⟨e, rest, htext, hread, hne⟩ := (IsCut.copied hnone hparts).read?_written.2 hopens
      rw [htext, mapFrom_of_read? _ hread]
      exact iff_of_false (hne _ _) fun h => h (.inl ⟨rfl, hopens⟩)
    · have hcopied : mapFrom (rebound units) atLineStart 0
          (c :: parts.flatMap (Part.written units)) =
            c :: mapFrom (rebound units) (c == '\n') 0 (parts.flatMap (Part.written units)) := by
        cases atLineStart with
        | false => rfl
        | true =>
          refine mapFrom_cons_of_read?_eq_none _ ?_ true
          exact (IsCut.copied hnone hparts).read?_written.1 fun h => hopens ⟨rfl, h⟩
      rw [hcopied, List.cons_inj_right, ih, or_iff_right hopens]
  | @declared d parts hd hparts ih =>
    -- what is written for a declaration is read again and stays as it is
    obtain ⟨e, he, htext, hagain⟩ : ∃ e : Declaration, e.IsWritten ∧ rebound units d = e.text ∧
        rebound units e = e.text := by
      cases hunit : d.name?.bind units with
      | none =>
        have hsame : rebound units d = d.text := by rw [rebound, hunit]
        exact ⟨d, hd, hsame, hsame⟩
      | some unit =>
        exact ⟨d.placed unit, hd.placed unit, by rw [rebound, hunit, text_placed],
          rebound_placed hunit⟩
    rw [List.flatMap_cons, Part.written, htext,
      mapFrom_of_read? _ (read?_eq_some_iff.2 ⟨he, _, rfl⟩), hagain, List.append_right_inj, ih,
      LeavesOpen]

end Units

/-- A text is cut into declarations that start a line and characters. Declarations of known names
are written with their units, everything else is copied, and without units all is. Assigning
the same units to what is written changes nothing exactly if no line outside of the declarations
leaves a layout open before the next declaration of a known name. -/
theorem assignBindings_twice_iff (units : String → Option UInt32) (text : List Char) :
    ∃ parts, IsCut true parts ∧ parts.flatMap Part.text = text ∧
      assignBindings units text = parts.flatMap (Part.written units) ∧
      (∀ p ∈ parts, ¬p.IsKnown units → p.written units = p.text) ∧
      assignBindings (fun _ => none) text = text ∧
      (assignBindings units (assignBindings units text) = assignBindings units text ↔
        ¬LeavesOpen units true parts) := by
  obtain ⟨parts, hcut, rfl⟩ := exists_isCut true text
  have hwritten : assignBindings units (parts.flatMap Part.text) =
      parts.flatMap (Part.written units) := hcut.mapFrom_eq units
  have hunknown : ∀ p ∈ parts, ¬p.IsKnown (fun _ => none) := by
    intro p _
    cases p <;> simp [Part.IsKnown]
  refine ⟨parts, hcut, rfl, hwritten, fun p _ => Part.written_of_not_isKnown, ?_, ?_⟩
  · exact (hcut.mapFrom_eq _).trans (flatMap_written_of_not_isKnown hunknown)
  · rw [hwritten]
    exact hcut.mapFrom_written_iff

/-- It is not so that assigning the same units again never changes anything: a layout that is
opened in a comment is closed by the one that the declaration behind it gets, and what stands
between them is read as its qualifiers. -/
theorem not_always_stable :
    ¬∀ (units : String → Option UInt32) (text : List Char),
      assignBindings units (assignBindings units text) = assignBindings units text := by
  intro hall
  have htwice := hall (fun _ => some 0) "/*\nlayout (see below\n*/\nuniform sampler2D a;".toList
  have honce : assignBindings (fun _ => some 0)
      "/*\nlayout (see below\n*/\nuniform sampler2D a;".toList =
      "/*\nlayout (see below\n*/\nlayout(binding = 0) uniform sampler2D a;".toList := by
    decide +kernel
  have hagain : assignBindings (fun _ => some 0)
      "/*\nlayout (see below\n*/\nlayout(binding = 0) uniform sampler2D a;".toList =
      "/*\nlayout(see below\n*/\nlayout(binding = 0, binding = 0) uniform sampler2D a;".toList := by
    decide +kernel
  rw [honce, hagain] at htwice
  exact absurd htwice (by decide)

end PipelineArchive.Patch
