import PipelineArchive.Glsl.Token
import PipelineArchive.Proofs.Text.Splitting

/-!
# Version directives of GLSL texts

A text is read in the phases of the language: its line ends become line feeds, continued lines are
joined, and comments become spaces (`reading`). A version directive is a line of what is left that
begins with a number sign and the word `version`, and blanks may stand before and between these
(`versions`). Blanks before a text add no directive (`length_versions_trimStart`), and lines that
are read as such whatever follows them (`IsWholeLine`) have theirs one by one (`versions_written`).
A text with one directive is cut before and behind it (`Versioned`), which is possible exactly where
it is read first (`exists_versioned_iff`).
-/

set_option autoImplicit false

namespace PipelineArchive.Glsl

open Text

/-- A text with all of its line ends as line feeds. -/
def lineFeeds : List Char → List Char
  | '\r' :: '\n' :: rest => '\n' :: lineFeeds rest
  | '\r' :: rest => '\n' :: lineFeeds rest
  | c :: rest => c :: lineFeeds rest
  | [] => []

/-- A text without the line feeds behind backslashes, and without those. -/
def joinedLines : List Char → List Char
  | '\\' :: '\n' :: rest => joinedLines rest
  | c :: rest => c :: joinedLines rest
  | [] => []

/-- What is left of a text when its lines are joined and its comments are spaces. -/
def reading (text : List Char) : List Char :=
  withoutComments .outside (joinedLines (lineFeeds text))

/-- Whether a line is a version directive. -/
def isVersion (line : List Char) : Bool :=
  match trimStart line with
  | '#' :: directive =>
      match after? "version".toList (trimStart directive) with
      | some rest => !rest.head?.any isWord
      | none => false
  | _ => false

/-- The version directives among the lines of what was read. -/
def versionLines (read : List Char) : List (List Char) := (splitOn '\n' read).filter isVersion

/-- The first line of what was read that is not blank, without the blanks before it. -/
def firstLine (read : List Char) : List Char := (trimStart read).takeWhile (· ≠ '\n')

/-- The version directives of a text. -/
def versions (text : List Char) : List (List Char) := versionLines (reading text)

/-! ## Character by character -/

theorem lineFeeds_cons {c : Char} (hc : c ≠ '\r') (rest : List Char) :
    lineFeeds (c :: rest) = c :: lineFeeds rest := by
  rw [lineFeeds] <;> simp [hc]

theorem joinedLines_cons {c : Char} (hc : c ≠ '\\') (rest : List Char) :
    joinedLines (c :: rest) = c :: joinedLines rest := by
  rw [joinedLines]
  simp [hc]

theorem withoutComments_cons {c : Char} (hc : c ≠ '/') (rest : List Char) :
    withoutComments .outside (c :: rest) = c :: withoutComments .outside rest := by
  rw [withoutComments]
  simp [hc]

/-- The characters that stand for themselves wherever they are outside of comments. -/
def isPlain (c : Char) : Bool := c ≠ '\r' && c ≠ '\\' && c ≠ '/'

/-- The plain characters that do not end a line. -/
def isInLine (c : Char) : Bool := isPlain c && c ≠ '\n'

theorem isPlain_of_isInLine {c : Char} (hc : isInLine c) : isPlain c :=
  (Bool.and_eq_true_iff.1 hc).1

theorem reading_cons {c : Char} (hc : isPlain c) (rest : List Char) :
    reading (c :: rest) = c :: reading rest := by
  simp only [isPlain, Bool.and_eq_true, decide_eq_true_eq] at hc
  obtain ⟨⟨hreturn, hbackslash⟩, hslash⟩ := hc
  rw [reading, lineFeeds_cons hreturn, joinedLines_cons hbackslash, withoutComments_cons hslash]
  rfl

theorem reading_append {plain : List Char} (hplain : ∀ c ∈ plain, isPlain c) (rest : List Char) :
    reading (plain ++ rest) = plain ++ reading rest := by
  induction plain with
  | nil => rfl
  | cons c plain ih =>
    obtain ⟨hc, hplain⟩ := List.forall_mem_cons.1 hplain
    rw [List.cons_append, reading_cons hc, ih hplain, List.cons_append]

/-- A carriage return is read as a line feed, unless it is one line end with that behind it. -/
theorem reading_return (rest : List Char) :
    (rest.head? = some '\n' ∧ reading ('\r' :: rest) = reading rest) ∨
      reading ('\r' :: rest) = '\n' :: reading rest := by
  by_cases hfeed : ∃ more, rest = '\n' :: more
  · obtain ⟨more, rfl⟩ := hfeed
    refine .inl ⟨rfl, ?_⟩
    rw [reading, lineFeeds, reading, lineFeeds_cons (by decide)]
  · have hreturn : lineFeeds ('\r' :: rest) = '\n' :: lineFeeds rest := by
      rw [lineFeeds]
      exact fun more h => hfeed ⟨more, h⟩
    right
    rw [reading, hreturn, joinedLines_cons (by decide), withoutComments_cons (by decide)]
    rfl

/-- A blank is read as a blank, or is part of the line end behind it. -/
theorem reading_blank_cons {c : Char} (hc : isBlank c) (rest : List Char) :
    reading (c :: rest) = reading rest ∨
      ∃ d, isBlank d ∧ reading (c :: rest) = d :: reading rest := by
  by_cases hreturn : c = '\r'
  · subst hreturn
    exact (reading_return rest).imp And.right fun h => ⟨'\n', rfl, h⟩
  · have hplain : isPlain c := by
      simp only [isPlain, Bool.and_eq_true, decide_eq_true_eq]
      refine ⟨⟨hreturn, ?_⟩, ?_⟩
      · rintro rfl
        cases hc
      · rintro rfl
        cases hc
    exact .inr ⟨c, hc, reading_cons hplain rest⟩

/-- A text that begins with a line end is read as a line feed and more. -/
theorem exists_reading_of_lineEnd {text : List Char}
    (h : text.head? = some '\n' ∨ text.head? = some '\r') :
    ∃ more, reading text = '\n' :: more := by
  obtain h | h := h
  · obtain ⟨rest, rfl⟩ := List.head?_eq_some_iff.1 h
    exact ⟨_, reading_cons (by decide) rest⟩
  · obtain ⟨rest, rfl⟩ := List.head?_eq_some_iff.1 h
    obtain ⟨hfeed, hreading⟩ | hreading := reading_return rest
    · obtain ⟨more, rfl⟩ := List.head?_eq_some_iff.1 hfeed
      exact ⟨_, hreading.trans (reading_cons (by decide) more)⟩
    · exact ⟨_, hreading⟩

/-- What a text begins with behind its blanks is read, if it is no comment. -/
theorem mem_reading_of_trimStart {text rest : List Char} {c : Char} (hc : isPlain c)
    (h : trimStart text = c :: rest) : c ∈ reading text := by
  induction text with
  | nil => cases h
  | cons x text ih =>
    by_cases hx : isBlank x
    · rw [trimStart, List.dropWhile_cons_of_pos hx] at h
      obtain hreading | ⟨d, -, hreading⟩ := reading_blank_cons hx text
      · rw [hreading]
        exact ih h
      · rw [hreading]
        exact List.mem_cons_of_mem d (ih h)
    · rw [trimStart, List.dropWhile_cons_of_neg hx] at h
      injection h with hxc htext
      subst hxc
      rw [reading_cons hc]
      exact List.mem_cons_self

/-! ## Directives among the lines -/

theorem isVersion_blank_cons {c : Char} (hc : isBlank c) (line : List Char) :
    isVersion (c :: line) = isVersion line := by
  rw [isVersion, isVersion, trimStart, List.dropWhile_cons_of_pos hc]
  rfl

theorem length_versionLines_cons {c : Char} (hc : isBlank c) (read : List Char) :
    (versionLines (c :: read)).length = (versionLines read).length := by
  by_cases hfeed : c = '\n'
  · subst hfeed
    rw [versionLines, splitOn, if_pos rfl, List.filter_cons_of_neg (by decide), versionLines]
  · rw [versionLines, splitOn, if_neg hfeed, versionLines]
    split
    · rename_i hnone
      exact (splitOn_ne_nil _ _ hnone).elim
    · rename_i line lines hlines
      rw [hlines, List.filter_cons, List.filter_cons, isVersion_blank_cons hc]
      split <;> simp

theorem length_versionLines_append {blanks : List Char} (hblanks : ∀ c ∈ blanks, isBlank c)
    (read : List Char) :
    (versionLines (blanks ++ read)).length = (versionLines read).length := by
  induction blanks with
  | nil => rfl
  | cons c blanks ih =>
    obtain ⟨hc, hblanks⟩ := List.forall_mem_cons.1 hblanks
    rw [List.cons_append, length_versionLines_cons hc, ih hblanks]

theorem length_versions_append {blanks : List Char} (hblanks : ∀ c ∈ blanks, isBlank c)
    (text : List Char) : (versions (blanks ++ text)).length = (versions text).length := by
  induction blanks with
  | nil => rfl
  | cons c blanks ih =>
    obtain ⟨hc, hblanks⟩ := List.forall_mem_cons.1 hblanks
    rw [← ih hblanks, List.cons_append, versions, versions]
    obtain h | ⟨d, hd, h⟩ := reading_blank_cons hc (blanks ++ text)
    · rw [h]
    · rw [h, length_versionLines_cons hd]

/-- Leading blanks make no difference to how many version directives a text has. -/
theorem length_versions_trimStart (text : List Char) :
    (versions (trimStart text)).length = (versions text).length := by
  have hblanks : ∀ c ∈ text.takeWhile isBlank, isBlank c := fun _ => List.mem_takeWhile_imp
  have h := length_versions_append hblanks (trimStart text)
  rw [trimStart, List.takeWhile_append_dropWhile] at h
  exact h.symm

/-- Texts that are the same behind their leading blanks both have a version directive, or neither
has. -/
theorem versions_eq_nil_of_trimStart {text other : List Char} (h : trimStart text = trimStart other)
    (hother : versions other = []) : versions text = [] := by
  rw [← List.length_eq_zero_iff, ← length_versions_trimStart, h, length_versions_trimStart, hother]
  rfl

/-- The first line of a text ends with it, or with a line feed. -/
theorem dropWhile_line_feed (text : List Char) :
    text.dropWhile (· ≠ '\n') = [] ∨ ∃ more, text.dropWhile (· ≠ '\n') = '\n' :: more := by
  have hhead := List.head?_dropWhile_not (fun c => decide (c ≠ '\n')) text
  split at hhead
  · rename_i c hc
    obtain ⟨more, hmore⟩ := List.head?_eq_some_iff.1 hc
    rw [decide_eq_false_iff_not, not_not] at hhead
    subst hhead
    exact .inr ⟨more, hmore⟩
  · rename_i hnone
    exact .inl (List.head?_eq_none_iff.1 hnone)

/-- A directive is one more than those of the lines behind it. -/
theorem versionLines_append {line rest : List Char} (hone : '\n' ∉ line) (hversion : isVersion line)
    (hends : rest = [] ∨ rest.head? = some '\n') :
    versionLines (line ++ rest) = line :: versionLines rest := by
  obtain rfl | hfeed := hends
  · rw [List.append_nil, versionLines, splitOn_of_not_mem hone, List.filter_cons_of_pos hversion]
    rfl
  · obtain ⟨more, rfl⟩ := List.head?_eq_some_iff.1 hfeed
    rw [versionLines, splitOn_append_cons hone, List.filter_cons_of_pos hversion, versionLines,
      splitOn, if_pos rfl, List.filter_cons_of_neg (by decide)]

/-- A line that begins with a number sign is the first one if only blanks stand before it. -/
theorem firstLine_append {blanks line rest : List Char} (hblank : ∀ c ∈ blanks, isBlank c)
    (hstart : line.head? = some '#') (hone : '\n' ∉ line)
    (hends : rest = [] ∨ rest.head? = some '\n') : firstLine (blanks ++ (line ++ rest)) = line := by
  have hline : ∀ c ∈ line, decide (c ≠ '\n') = true := by
    rintro c hc
    exact decide_eq_true (ne_of_mem_of_not_mem hc hone)
  have htrim : trimStart (line ++ rest) = line ++ rest := by
    obtain ⟨directive, rfl⟩ := List.head?_eq_some_iff.1 hstart
    rfl
  rw [firstLine, trimStart_append_eq_iff.2 hblank, htrim]
  obtain rfl | hfeed := hends
  · rw [List.append_nil, List.takeWhile_eq_self_iff.2 hline]
  · obtain ⟨more, rfl⟩ := List.head?_eq_some_iff.1 hfeed
    exact (takeWhile_append_cons hline (by decide) more).1

theorem not_mem_firstLine (read : List Char) : '\n' ∉ firstLine read := by
  intro hfeed
  have hother := List.mem_takeWhile_imp (p := fun c => decide (c ≠ '\n')) hfeed
  exact of_decide_eq_true hother rfl

/-- What is read begins with its first line, but for blanks, and goes on with the next one. -/
theorem exists_eq_append_firstLine (read : List Char) :
    ∃ blanks rest, read = blanks ++ (firstLine read ++ rest) ∧ (∀ c ∈ blanks, isBlank c) ∧
      '\n' ∉ firstLine read ∧ (rest = [] ∨ rest.head? = some '\n') := by
  refine ⟨read.takeWhile isBlank, (trimStart read).dropWhile (· ≠ '\n'), ?_,
    fun _ => List.mem_takeWhile_imp, not_mem_firstLine read, ?_⟩
  · rw [firstLine, List.takeWhile_append_dropWhile, trimStart, List.takeWhile_append_dropWhile]
  · refine (dropWhile_line_feed (trimStart read)).imp_right ?_
    rintro ⟨more, hmore⟩
    rw [hmore]
    rfl

theorem head?_firstLine {read : List Char} (h : isVersion (firstLine read)) :
    (firstLine read).head? = some '#' := by
  cases htrim : trimStart read with
  | nil =>
    rw [firstLine, htrim] at h
    cases h
  | cons c rest =>
    have hidempotent : trimStart (c :: rest) = c :: rest := by
      rw [← htrim]
      exact List.dropWhile_idempotent isBlank read
    have hblank := not_isBlank_of_trimStart hidempotent
    -- a line feed is a blank, so the line has at least its first character
    have hfeed : c ≠ '\n' := by
      rintro rfl
      cases hblank
    have hline : firstLine read = c :: rest.takeWhile (· ≠ '\n') := by
      rw [firstLine, htrim]
      exact List.takeWhile_cons_of_pos (decide_eq_true hfeed)
    rw [hline, isVersion, trimStart, List.dropWhile_cons_of_neg (Bool.eq_false_iff.1 hblank)] at h
    rw [hline]
    split at h
    · rename_i hcons
      rw [(List.cons.inj hcons).1]
      rfl
    · cases h

/-! ## Whole lines -/

/-- A text that is one line, whatever lines follow it. -/
structure IsWholeLine (line : List Char) : Prop where
  one : '\n' ∉ reading line
  ends : ∀ rest, reading (line ++ '\n' :: rest) = reading line ++ '\n' :: reading rest

/-- Lines with their line feeds. -/
def written (lines : List (List Char)) : List Char := lines.flatMap (· ++ ['\n'])

theorem reading_of_plain {text : List Char} (hplain : ∀ c ∈ text, isPlain c) :
    reading text = text := by
  have h := reading_append hplain []
  rwa [List.append_nil, show reading [] = [] from rfl, List.append_nil] at h

theorem reading_of_isInLine {line : List Char} (hline : ∀ c ∈ line, isInLine c) :
    reading line = line :=
  reading_of_plain fun c hc => isPlain_of_isInLine (hline c hc)

theorem isWholeLine_of_isInLine {line : List Char} (hline : ∀ c ∈ line, isInLine c) :
    IsWholeLine line where
  one := by
    rw [reading_of_isInLine hline]
    intro hfeed
    cases hline _ hfeed
  ends rest := by
    rw [reading_append fun c hc => isPlain_of_isInLine (hline c hc), reading_cons (by decide),
      reading_of_isInLine hline]

/-- Whole lines have their directives one by one, and those of the rest follow. -/
theorem versions_written {lines : List (List Char)} (h : ∀ line ∈ lines, IsWholeLine line)
    (rest : List Char) :
    versions (written lines ++ rest) = (lines.map reading).filter isVersion ++ versions rest := by
  induction lines with
  | nil => rfl
  | cons line lines ih =>
    obtain ⟨hline, hlines⟩ := List.forall_mem_cons.1 h
    have htext : written (line :: lines) ++ rest = line ++ '\n' :: (written lines ++ rest) := by
      simp [written]
    rw [htext, versions, versionLines, hline.ends, splitOn_append_cons hline.one, List.map_cons,
      List.filter_cons, List.filter_cons]
    change (if isVersion (reading line) then _ :: versions _ else versions _) = _
    rw [ih hlines]
    split <;> rfl

/-! ## Cutting a text where it is read -/

/-- What one character adds to what is read, and the place behind it: nothing, the character behind
a slash that was held back, or a space for a comment that it ends. -/
theorem withoutComments_step (place : CommentPlace) (c : Char) :
    ∃ out next, (∀ rest, withoutComments place (c :: rest) = out ++ withoutComments next rest) ∧
      (out = [] ∨ next = .outside ∧ (out = withoutComments place [] ++ [c] ∨ out = [' '])) := by
  cases place with
  | outside =>
    by_cases hslash : c = '/'
    · subst hslash
      exact ⟨[], .slash, fun _ => rfl, .inl rfl⟩
    · exact ⟨[c], .outside, withoutComments_cons hslash, .inr ⟨rfl, .inl rfl⟩⟩
  | slash =>
    by_cases hslash : c = '/'
    · subst hslash
      exact ⟨[], .line, fun _ => rfl, .inl rfl⟩
    · by_cases hstar : c = '*'
      · subst hstar
        exact ⟨[], .block, fun _ => rfl, .inl rfl⟩
      · refine ⟨['/', c], .outside, fun rest => ?_, .inr ⟨rfl, .inl rfl⟩⟩
        rw [withoutComments] <;> simp [hslash, hstar]
  | line =>
    by_cases hfeed : c = '\n'
    · subst hfeed
      exact ⟨['\n'], .outside, fun _ => rfl, .inr ⟨rfl, .inl rfl⟩⟩
    · refine ⟨[], .line, fun rest => ?_, .inl rfl⟩
      rw [withoutComments] <;> simp [hfeed]
  | block =>
    by_cases hstar : c = '*'
    · subst hstar
      exact ⟨[], .star, fun _ => rfl, .inl rfl⟩
    · refine ⟨[], .block, fun rest => ?_, .inl rfl⟩
      rw [withoutComments] <;> simp [hstar]
  | star =>
    by_cases hslash : c = '/'
    · subst hslash
      exact ⟨[' '], .outside, fun _ => rfl, .inr ⟨rfl, .inr rfl⟩⟩
    · by_cases hstar : c = '*'
      · subst hstar
        exact ⟨[], .star, fun _ => rfl, .inl rfl⟩
      · refine ⟨[], .block, fun rest => ?_, .inl rfl⟩
        rw [withoutComments] <;> simp [hslash, hstar]

theorem not_mem_withoutComments_nil {c : Char} (hslash : c ≠ '/') (place : CommentPlace) :
    c ∉ withoutComments place [] := by
  cases place <;> simp [withoutComments, hslash]

theorem eq_of_append_singleton {α : Type} {first before more : List α} {x c : α} (hc : c ∉ first)
    (h : first ++ [x] = before ++ c :: more) : before = first ∧ c = x ∧ more = [] := by
  obtain ⟨rest, rfl, hrest⟩ | ⟨rest, rfl, hrest⟩ := List.append_eq_append_iff.1 h
  · cases rest with
    | nil =>
      rw [List.nil_append, List.cons.injEq] at hrest
      exact ⟨List.append_nil _, hrest.1.symm, hrest.2.symm⟩
    | cons y rest =>
      have hlength := congrArg List.length hrest
      simp at hlength
  · cases rest with
    | nil =>
      rw [List.nil_append, List.cons.injEq] at hrest
      exact ⟨(List.append_nil _).symm, hrest.1, hrest.2⟩
    | cons y rest =>
      injection hrest with hy _
      subst hy
      exact (hc (List.mem_append_right before List.mem_cons_self)).elim

theorem withoutComments_split {place : CommentPlace} {text before behind : List Char} {c : Char}
    (hslash : c ≠ '/') (hblank : c ≠ ' ')
    (h : withoutComments place text = before ++ c :: behind) :
    ∃ a b, text = a ++ c :: b ∧ withoutComments place a = before ∧
      withoutComments .outside b = behind := by
  induction text generalizing place before with
  | nil =>
    refine (not_mem_withoutComments_nil hslash place ?_).elim
    rw [h]
    exact List.mem_append_right before List.mem_cons_self
  | cons x text ih =>
    obtain ⟨out, next, hstep, rfl | ⟨rfl, hout⟩⟩ := withoutComments_step place x
    · obtain ⟨a, b, rfl, ha, hb⟩ := ih ((hstep text).symm.trans h)
      exact ⟨x :: a, b, rfl, (hstep a).trans ha, hb⟩
    · -- the character is the one that was looked for, or stands behind all that this one adds
      rw [hstep] at h
      obtain ⟨more, rfl, hrest⟩ | ⟨more, rfl, hrest⟩ := List.append_eq_append_iff.1 h
      · obtain ⟨a, b, rfl, ha, hb⟩ := ih hrest
        exact ⟨x :: a, b, rfl, by rw [hstep, ha], hb⟩
      · cases more with
        | nil =>
          have hrest : withoutComments .outside text = [] ++ c :: behind := hrest.symm
          obtain ⟨a, b, rfl, ha, hb⟩ := ih hrest
          exact ⟨x :: a, b, rfl, by rw [hstep, ha, List.append_nil, List.append_nil], hb⟩
        | cons d more =>
          injection hrest with hd hbehind
          subst hd
          obtain hout | hout := hout
          · obtain ⟨rfl, rfl, rfl⟩ := eq_of_append_singleton
              (not_mem_withoutComments_nil hslash place) hout.symm
            exact ⟨[], text, rfl, rfl, hbehind.symm⟩
          · cases before with
            | nil => exact (hblank (List.cons.inj hout).1).elim
            | cons _ _ => simp at hout

theorem joinedLines_split {text before behind : List Char} {c : Char}
    (h : joinedLines text = before ++ c :: behind) :
    ∃ a b, text = a ++ c :: b ∧ joinedLines a = before ∧ joinedLines b = behind := by
  fun_induction joinedLines text generalizing before with
  | case1 rest ih =>
    obtain ⟨a, b, rfl, ha, hb⟩ := ih h
    exact ⟨'\\' :: '\n' :: a, b, rfl, ha, hb⟩
  | case2 d rest hd ih =>
    cases before with
    | nil =>
      injection h with hdc hrest
      subst hdc
      exact ⟨[], rest, rfl, rfl, hrest⟩
    | cons d' before =>
      injection h with hdd hrest
      subst hdd
      obtain ⟨a, b, rfl, ha, hb⟩ := ih hrest
      refine ⟨d :: a, b, rfl, ?_, hb⟩
      rw [joinedLines, ha]
      rintro more rfl rfl
      exact hd _ rfl rfl
  | case3 => cases before <;> cases h

theorem lineFeeds_split {text before behind : List Char} {c : Char}
    (h : lineFeeds text = before ++ c :: behind) :
    ∃ a rest, text = a ++ rest ∧ lineFeeds a = before ∧ lineFeeds rest = c :: behind ∧
      (rest.head? = some c ∨ c = '\n' ∧ rest.head? = some '\r') := by
  fun_induction lineFeeds text generalizing before with
  | case1 rest ih =>
    cases before with
    | nil =>
      injection h with hc hrest
      subst hc
      exact ⟨[], '\r' :: '\n' :: rest, rfl, rfl, by rw [lineFeeds, hrest], .inr ⟨rfl, rfl⟩⟩
    | cons d before =>
      injection h with hd hrest
      subst hd
      obtain ⟨a, more, rfl, ha, hmore⟩ := ih hrest
      exact ⟨'\r' :: '\n' :: a, more, rfl, by rw [lineFeeds, ha], hmore⟩
  | case2 rest hfeed ih =>
    cases before with
    | nil =>
      injection h with hc hrest
      subst hc
      exact ⟨[], '\r' :: rest, rfl, rfl, by rw [lineFeeds, hrest]; exact hfeed, .inr ⟨rfl, rfl⟩⟩
    | cons d before =>
      injection h with hd hrest
      subst hd
      obtain ⟨a, more, rfl, ha, hmore⟩ := ih hrest
      refine ⟨'\r' :: a, more, rfl, ?_, hmore⟩
      rw [lineFeeds, ha]
      rintro other rfl
      exact hfeed _ rfl
  | case3 d rest hreturn hfeed ih =>
    cases before with
    | nil =>
      injection h with hc hrest
      subst hc
      exact ⟨[], d :: rest, rfl, rfl, by rw [lineFeeds_cons hfeed, hrest], .inl rfl⟩
    | cons d' before =>
      injection h with hd hrest
      subst hd
      obtain ⟨a, more, rfl, ha, hmore⟩ := ih hrest
      exact ⟨d :: a, more, rfl, by rw [lineFeeds_cons hfeed, ha], hmore⟩
  | case4 => cases before <;> cases h

/-- Where a character is read that is no part of a comment, it stands in the text, which is read in
two parts there. -/
theorem reading_split {text before behind : List Char} {c : Char} (hplain : isPlain c)
    (hblank : c ≠ ' ') (h : reading text = before ++ c :: behind) :
    ∃ a rest, text = a ++ rest ∧ reading a = before ∧ reading rest = c :: behind ∧
      (rest.head? = some c ∨ c = '\n' ∧ rest.head? = some '\r') := by
  simp only [isPlain, Bool.and_eq_true, decide_eq_true_eq] at hplain
  obtain ⟨⟨-, hbackslash⟩, hslash⟩ := hplain
  obtain ⟨a₂, b₂, h₂, ha₂, hb₂⟩ := withoutComments_split hslash hblank h
  obtain ⟨a₁, b₁, h₁, rfl, rfl⟩ := joinedLines_split h₂
  obtain ⟨a, rest, rfl, rfl, hrest, hhead⟩ := lineFeeds_split h₁
  refine ⟨a, rest, rfl, ha₂, ?_, hhead⟩
  rw [reading, hrest, joinedLines_cons hbackslash, withoutComments_cons hslash, hb₂]

/-! ## Texts with one directive -/

/-- A text with one version directive: `line` is its line from the number sign on, what stands
before is read as blanks, and `rest` begins with the end of the line, if there is more. -/
structure Versioned (text before line rest : List Char) : Prop where
  text_eq : text = before ++ (line ++ rest)
  reading_eq : reading text = reading before ++ (reading line ++ reading rest)
  blank : ∀ c ∈ reading before, isBlank c
  starts : line.head? = some '#'
  one : '\n' ∉ reading line
  version : isVersion (reading line)
  ends : rest = [] ∨ rest.head? = some '\n' ∨ rest.head? = some '\r'
  once : versions rest = []

namespace Versioned

variable {text before line rest : List Char}

/-- The line ends where the directive is read to its end. -/
theorem reading_ends (h : Versioned text before line rest) :
    reading rest = [] ∨ (reading rest).head? = some '\n' := by
  obtain rfl | hend := h.ends
  · exact .inl rfl
  · obtain ⟨more, hmore⟩ := exists_reading_of_lineEnd hend
    right
    rw [hmore]
    rfl

/-- The directive is the only one of the text. -/
theorem length_versions (h : Versioned text before line rest) : (versions text).length = 1 := by
  rw [versions, h.reading_eq, length_versionLines_append h.blank,
    versionLines_append h.one h.version h.reading_ends, ← versions, h.once]
  rfl

/-- The directive is the first line that is read. -/
theorem firstLine_eq (h : Versioned text before line rest) :
    firstLine (reading text) = reading line := by
  have hstart : (reading line).head? = some '#' := by
    obtain ⟨directive, rfl⟩ := List.head?_eq_some_iff.1 h.starts
    rw [reading_cons (by decide)]
    rfl
  rw [h.reading_eq, firstLine_append h.blank hstart h.one h.reading_ends]

/-- If the text begins with the directive behind blanks, nothing else stands before it. -/
theorem blank_of_starts (h : Versioned text before line rest) {more : List Char}
    (hstart : trimStart text = '#' :: more) : ∀ c ∈ before, isBlank c := by
  cases hbefore : trimStart before with
  | nil => exact List.dropWhile_eq_nil_iff.1 hbefore
  | cons c other =>
    have htext : trimStart text = c :: other ++ (line ++ rest) := by
      rw [h.text_eq, trimStart, List.dropWhile_append, ← trimStart, hbefore]
      rfl
    rw [htext, List.cons_append, List.cons.injEq] at hstart
    obtain ⟨rfl, -⟩ := hstart
    -- a number sign that is no comment would be read before the directive
    cases h.blank _ (mem_reading_of_trimStart (by decide) hbefore)

end Versioned

/-- A text that is read as blanks and then its one version directive can be cut there. -/
theorem exists_versioned {text blanks line rest : List Char}
    (h : reading text = blanks ++ (line ++ rest)) (hblank : ∀ c ∈ blanks, isBlank c)
    (hstart : line.head? = some '#') (hone : '\n' ∉ line) (hversion : isVersion line)
    (hends : rest = [] ∨ rest.head? = some '\n') (honce : versionLines rest = []) :
    ∃ before written behind, Versioned text before written behind := by
  obtain ⟨directive, rfl⟩ := List.head?_eq_some_iff.1 hstart
  obtain ⟨before, other, rfl, rfl, hother, hsign⟩ := reading_split (by decide) (by decide) h
  obtain hsign | ⟨hsign, -⟩ := hsign
  · obtain ⟨more, rfl⟩ := List.head?_eq_some_iff.1 hsign
    have hmore : reading more = directive ++ rest := by
      rw [reading_cons (by decide)] at hother
      exact (List.cons.inj hother).2
    have hcut : ∃ a behind, more = a ++ behind ∧ reading a = directive ∧ reading behind = rest ∧
        (behind = [] ∨ behind.head? = some '\n' ∨ behind.head? = some '\r') := by
      obtain rfl | hfeed := hends
      · exact ⟨more, [], (List.append_nil _).symm, by rw [hmore, List.append_nil], rfl, .inl rfl⟩
      · obtain ⟨others, rfl⟩ := List.head?_eq_some_iff.1 hfeed
        obtain ⟨a, behind, hcut, ha, hbehind, hhead⟩ :=
          reading_split (by decide) (by decide) hmore
        exact ⟨a, behind, hcut, ha, hbehind, .inr (hhead.imp_right And.right)⟩
    obtain ⟨a, behind, rfl, rfl, rfl, hbehind⟩ := hcut
    have hline : reading ('#' :: a) = '#' :: reading a := reading_cons (by decide) a
    exact ⟨before, '#' :: a, behind, rfl, by rw [h, hline], hblank, rfl, hline ▸ hone,
      hline ▸ hversion, hbehind, honce⟩
  · cases hsign

/-- The texts with one version directive, and no other line than blank ones before it, are those
that can be cut before and behind it. -/
theorem exists_versioned_iff {text : List Char} :
    (∃ before line rest, Versioned text before line rest) ↔
      (versions text).length = 1 ∧ isVersion (firstLine (reading text)) := by
  constructor
  · rintro ⟨before, line, rest, h⟩
    rw [h.firstLine_eq]
    exact ⟨h.length_versions, h.version⟩
  · rintro ⟨hone, hversion⟩
    obtain ⟨blanks, rest, hread, hblank, hline, hends⟩ := exists_eq_append_firstLine (reading text)
    have honce : versionLines rest = [] := by
      rw [versions, hread, length_versionLines_append hblank,
        versionLines_append hline hversion hends, List.length_cons] at hone
      exact List.length_eq_zero_iff.1 (Nat.succ.inj hone)
    exact exists_versioned hread hblank (head?_firstLine hversion) hline hversion hends honce

end PipelineArchive.Glsl
