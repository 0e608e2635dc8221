import Mathlib.Data.Option.Basic
import PipelineArchive.Patch.Metal
import PipelineArchive.Proofs.Text.Splitting

/-!
# Arguments of a Metal text

An argument is found exactly where its text stands (`argument?_eq_some_iff`). So a text is cut into
arguments and characters that are copied, and it is still cut in the same places when the indices
are replaced by others (`IsCut.withSlots`): no argument comes about and none is lost.
-/

set_option autoImplicit false

namespace PipelineArchive.Patch.Metal

open Text

/-! ## The text of an argument -/

/-- An argument of a table with an index as it is written. -/
def indexText (table : MetalArgument) (digits : List Char) : List Char :=
  "[[".toList ++ tableName table ++ ['('] ++ (digits ++ ")]]".toList)

/-- An index consists of digits. -/
def IsIndex (digits : List Char) : Prop := digits ≠ [] ∧ ∀ c ∈ digits, isDigit c

/-- The placeholder that an index stands for: its number, or the largest one if it is no 32-bit
number in ASCII digits. -/
def placeholder (digits : List Char) : UInt32 := (decimalU32? digits).getD 0xFFFFFFFF

theorem slotText_eq (table : MetalArgument) (slot : UInt32) :
    slotText table slot = indexText table (toString slot.toNat).toList := by
  simp [slotText, indexText]

theorem indexText_append (table : MetalArgument) (digits rest : List Char) :
    indexText table digits ++ rest =
      ("[[".toList ++ tableName table ++ ['(']) ++ (digits ++ (")]]".toList ++ rest)) := by
  simp [indexText]

theorem argumentOf?_eq_some_iff {table : MetalArgument} {text : List Char} {a : Argument} :
    argumentOf? table text = some a ↔
      ∃ digits rest, IsIndex digits ∧ text = indexText table digits ++ rest ∧
        a = ⟨table, placeholder digits, (indexText table digits).length⟩ := by
  have hlength (digits rest : List Char) :
      (indexText table digits ++ rest).length - rest.length = (indexText table digits).length := by
    rw [List.length_append, Nat.add_sub_cancel]
  constructor
  · intro h
    obtain ⟨behind, hbehind, h⟩ := Option.bind_eq_some_iff.1 h
    obtain ⟨⟨⟩, hdigits, h⟩ := Option.bind_eq_some_iff.1 h
    obtain ⟨after, hafter, h⟩ := Option.bind_eq_some_iff.1 h
    have hne : behind.takeWhile isDigit ≠ [] := by
      intro hnil
      rw [hnil] at hdigits
      cases hdigits
    have htext : text = indexText table (behind.takeWhile isDigit) ++ after := by
      rw [indexText_append, ← eq_append_of_after? hafter, List.takeWhile_append_dropWhile,
        eq_append_of_after? hbehind]
    refine ⟨_, after, ⟨hne, fun _ hc => List.mem_takeWhile_imp hc⟩, htext, ?_⟩
    rw [← Option.some.inj h, htext, hlength]
    rfl
  · rintro ⟨digits, rest, ⟨hne, hdigits⟩, rfl, rfl⟩
    have hbehind : after? ("[[".toList ++ tableName table ++ ['('])
        (indexText table digits ++ rest) = some (digits ++ ')' :: (']' :: ']' :: rest)) := by
      rw [indexText_append, after?_append]
      rfl
    obtain ⟨htake, hdrop⟩ :=
      takeWhile_append_cons hdigits (c := ')') (by decide) (']' :: ']' :: rest)
    have hafter : after? ")]]".toList (')' :: ']' :: ']' :: rest) = some rest :=
      after?_append ")]]".toList rest
    have hguard : (guard ((!digits.isEmpty) = true) : Option Unit) = some () := by
      rw [List.isEmpty_eq_false_iff.2 hne]
      rfl
    rw [argumentOf?, hbehind, Option.bind_eq_bind, Option.bind_some]
    simp only [htake, hdrop, hguard, hafter, Option.bind_eq_bind, Option.bind_some, hlength]
    rfl

/-- The argument of one table is none of another. -/
theorem argumentOf?_indexText {table other : MetalArgument} (h : other ≠ table)
    (digits rest : List Char) : argumentOf? other (indexText table digits ++ rest) = none := by
  have hafter : after? ("[[".toList ++ tableName other ++ ['(']) (indexText table digits ++ rest) =
      none := by
    rw [after?, indexText_append]
    refine if_neg fun hprefix => ?_
    -- the names of the two tables begin with different letters
    rw [List.append_assoc, List.append_assoc, List.append_assoc, List.isPrefixOf_iff_prefix,
      List.prefix_append_right_inj] at hprefix
    obtain ⟨front, hfront⟩ := hprefix
    have hhead := congrArg List.head? hfront
    cases table <;> cases other <;> first | exact h rfl | cases hhead
  rw [argumentOf?, hafter]
  rfl

/-- An argument starts exactly where its text stands. -/
theorem argument?_eq_some_iff {text : List Char} {a : Argument} :
    argument? text = some a ↔
      ∃ table digits rest, IsIndex digits ∧ text = indexText table digits ++ rest ∧
        a = ⟨table, placeholder digits, (indexText table digits).length⟩ := by
  constructor
  · intro h
    have hone : ∃ table, argumentOf? table text = some a := by
      rcases (Option.orElse_eq_some ..).1 h with h | ⟨-, h⟩
      · exact ⟨.buffer, h⟩
      · rcases (Option.orElse_eq_some ..).1 h with h | ⟨-, h⟩
        · exact ⟨.texture, h⟩
        · exact ⟨.sampler, h⟩
    obtain ⟨table, hone⟩ := hone
    exact ⟨table, argumentOf?_eq_some_iff.1 hone⟩
  · rintro ⟨table, digits, rest, hdigits, rfl, rfl⟩
    have hown : argumentOf? table (indexText table digits ++ rest) =
        some ⟨table, placeholder digits, (indexText table digits).length⟩ :=
      argumentOf?_eq_some_iff.2 ⟨digits, rest, hdigits, rfl, rfl⟩
    have hother {other : MetalArgument} (h : other ≠ table) :=
      argumentOf?_indexText h digits rest
    rw [argument?]
    cases table with
    | buffer => rw [hown]; rfl
    | texture => rw [hother (by decide), hown]; rfl
    | sampler => rw [hother (by decide), hother (by decide), hown]; rfl

/-! ## The pieces of a text -/

/-- A piece of a text: a character, or an argument with its index. -/
inductive Piece where
  | copied (c : Char)
  | argument (table : MetalArgument) (digits : List Char)

namespace Piece

/-- The characters of a piece. -/
def text : Piece → List Char
  | copied c => [c]
  | argument table digits => indexText table digits

/-- A piece with a slot in place of the index. -/
def withSlot (slot : MetalArgument → UInt32 → UInt32) : Piece → Piece
  | copied c => copied c
  | argument table digits =>
      argument table (toString (slot table (placeholder digits)).toNat).toList

end Piece

/-- A text is cut into pieces: a character is copied if no argument starts with it. -/
inductive IsCut : List Piece → Prop
  | nil : IsCut []
  | copied {c : Char} {pieces : List Piece}
      (hnone : ∀ table digits rest, IsIndex digits →
        c :: pieces.flatMap Piece.text ≠ indexText table digits ++ rest)
      (hpieces : IsCut pieces) : IsCut (.copied c :: pieces)
  | argument {table : MetalArgument} {digits : List Char} {pieces : List Piece}
      (hdigits : IsIndex digits) (hpieces : IsCut pieces) :
      IsCut (.argument table digits :: pieces)

theorem argument?_eq_none_iff {text : List Char} :
    argument? text = none ↔ ∀ table digits rest, IsIndex digits →
      text ≠ indexText table digits ++ rest := by
  rw [Option.eq_none_iff_forall_ne_some]
  constructor
  · intro h table digits rest hdigits htext
    exact h _ (argument?_eq_some_iff.2 ⟨table, digits, rest, hdigits, htext, rfl⟩)
  · intro h a ha
    obtain ⟨table, digits, rest, hdigits, htext, -⟩ := argument?_eq_some_iff.1 ha
    exact h table digits rest hdigits htext

theorem exists_isCut (text : List Char) :
    ∃ pieces, IsCut pieces ∧ pieces.flatMap Piece.text = text := by
  -- an argument takes several characters at once
  induction hlength : text.length using Nat.strongRecOn generalizing text with
  | _ length ih =>
    cases text with
    | nil => exact ⟨[], .nil, rfl⟩
    | cons c rest =>
      cases hread : argument? (c :: rest) with
      | some a =>
        obtain ⟨table, digits, behind, hdigits, htext, -⟩ := argument?_eq_some_iff.1 hread
        have hshorter : behind.length < length := by
          rw [← hlength, htext, List.length_append, indexText]
          simp
        obtain ⟨pieces, hpieces, hbehind⟩ := ih _ hshorter behind rfl
        refine ⟨.argument table digits :: pieces, .argument hdigits hpieces, ?_⟩
        rw [List.flatMap_cons, hbehind, htext, Piece.text]
      | none =>
        have hshorter : rest.length < length := by
          rw [← hlength, List.length_cons]
          exact Nat.lt_succ_self _
        obtain ⟨pieces, hpieces, hrest⟩ := ih _ hshorter rest rfl
        refine ⟨.copied c :: pieces, .copied ?_ hpieces, ?_⟩
        · rw [hrest]
          exact argument?_eq_none_iff.1 hread
        · rw [List.flatMap_cons, hrest, Piece.text, List.singleton_append]

/-! ## Places of arguments -/

/-- Where the texts of two arguments start, they are one argument. -/
theorem eq_of_indexText_append {table other : MetalArgument} {digits index rest behind : List Char}
    (hdigits : IsIndex digits) (hindex : IsIndex index)
    (h : indexText table digits ++ rest = indexText other index ++ behind) :
    table = other ∧ digits = index := by
  have htable : table = other := by
    by_contra hne
    have hnone := argumentOf?_indexText hne index behind
    rw [← h, argumentOf?_eq_some_iff.2 ⟨digits, rest, hdigits, rfl, rfl⟩] at hnone
    cases hnone
  subst htable
  rw [indexText_append, indexText_append] at h
  have htake := congrArg (List.takeWhile isDigit) (List.append_cancel_left h)
  have hends (digits : List Char) (hdigits : IsIndex digits) (rest : List Char) :
      (digits ++ (")]]".toList ++ rest)).takeWhile isDigit = digits :=
    (takeWhile_append_cons hdigits.2 (c := ')') (by decide) (']' :: ']' :: rest)).1
  rw [hends digits hdigits, hends index hindex] at htake
  exact ⟨rfl, htake⟩

/-- What follows the brackets of an argument has no bracket that opens another one. -/
theorem exists_indexText (table : MetalArgument) {digits : List Char} (hdigits : IsIndex digits) :
    ∃ c word, indexText table digits = '[' :: '[' :: c :: word ∧ '[' ∉ c :: word := by
  have hfree : '[' ∉ digits ++ ")]]".toList := by
    rw [List.mem_append, not_or]
    exact ⟨fun hmem => absurd (hdigits.2 _ hmem) (by decide), by decide⟩
  have hname : '[' ∉ tableName table ++ ['('] := by cases table <;> decide
  obtain ⟨c, name, hcons⟩ : ∃ c name, tableName table ++ ['('] = c :: name := by
    cases table <;> exact ⟨_, _, rfl⟩
  refine ⟨c, name ++ (digits ++ ")]]".toList), ?_, ?_⟩
  · rw [indexText, List.append_assoc "[[".toList, hcons]
    rfl
  · rw [← List.cons_append, ← hcons, List.mem_append, not_or]
    exact ⟨hname, hfree⟩

/-- Wherever the text of an argument stands, this argument is one of the pieces. -/
theorem IsCut.mem_of_text_eq {pieces : List Piece} (h : IsCut pieces) {table : MetalArgument}
    {digits : List Char} (hdigits : IsIndex digits) {front rest : List Char}
    (htext : pieces.flatMap Piece.text = front ++ (indexText table digits ++ rest)) :
    .argument table digits ∈ pieces := by
  obtain ⟨first, word, hindexText, -⟩ := exists_indexText table hdigits
  induction h generalizing front with
  | nil => simp [hindexText] at htext
  | @copied c pieces hnone hpieces ih =>
    cases front with
    | nil => exact (hnone table digits rest hdigits htext).elim
    | cons x front => exact List.mem_cons_of_mem _ (ih (List.cons.inj htext).2)
  | @argument other index pieces hindex hpieces ih =>
    rw [List.flatMap_cons, Piece.text] at htext
    obtain ⟨c, own, hown, hfree⟩ := exists_indexText other hindex
    cases front with
    | nil =>
      obtain ⟨rfl, rfl⟩ := eq_of_indexText_append hindex hdigits htext
      exact List.mem_cons_self
    | cons x front =>
      -- another argument starts neither with the second bracket nor behind it
      rw [hown] at htext
      obtain ⟨-, htext⟩ := List.cons.inj htext
      cases front with
      | nil =>
        rw [hindexText] at htext
        obtain ⟨-, htext⟩ := List.cons.inj htext
        rw [(List.cons.inj htext).1] at hfree
        exact (hfree List.mem_cons_self).elim
      | cons y front =>
        obtain ⟨-, htext⟩ := List.cons.inj htext
        rcases List.append_eq_append_iff.1 htext with ⟨more, rfl, hmore⟩ | ⟨more, hcons, hmore⟩
        · exact List.mem_cons_of_mem _ (ih hmore)
        · cases more with
          | nil => exact List.mem_cons_of_mem _ (@ih [] hmore.symm)
          | cons z more =>
            rw [hindexText] at hmore
            obtain ⟨rfl, -⟩ := List.cons.inj hmore
            rw [hcons] at hfree
            exact (hfree (List.mem_append_right front List.mem_cons_self)).elim

/-! ## Other indices -/

theorem isIndex_toString (n : Nat) : IsIndex (toString n).toList := by
  have htoString : (toString n).toList = Nat.toDigits 10 n := by simp
  rw [htoString]
  refine ⟨Nat.toDigits_ne_nil, fun c hc => ?_⟩
  have hdigit := Nat.isDigit_of_mem_toDigits (by decide) (by decide) hc
  have hcode : 48 ≤ c.toNat ∧ c.toNat ≤ 57 := by
    simpa [Char.isDigit, UInt32.le_iff_toNat_le] using hdigit
  rw [isDigit, if_pos (by omega)]
  exact hdigit

section Slots

variable {slot : MetalArgument → UInt32 → UInt32}

/-- What stands before the next bracket has been copied. -/
theorem exists_copied {pieces : List Piece} {word rest : List Char} (hword : '[' ∉ word)
    (h : (pieces.map (Piece.withSlot slot)).flatMap Piece.text = word ++ rest) :
    ∃ behind, pieces = word.map Piece.copied ++ behind := by
  induction word generalizing pieces with
  | nil => exact ⟨pieces, rfl⟩
  | cons c word ih =>
    rw [List.mem_cons, not_or] at hword
    cases pieces with
    | nil => cases h
    | cons piece pieces =>
      cases piece with
      | copied x =>
        obtain ⟨rfl, hrest⟩ := List.cons.inj h
        obtain ⟨behind, rfl⟩ := ih hword.2 hrest
        exact ⟨behind, rfl⟩
      | argument table digits =>
        obtain ⟨rfl, -⟩ := List.cons.inj h
        exact (hword.1 rfl).elim

theorem flatMap_text_copied (word : List Char) :
    (word.map Piece.copied).flatMap Piece.text = word := by
  induction word with
  | nil => rfl
  | cons c word ih => rw [List.map_cons, List.flatMap_cons, ih]; rfl

/-- With other indices a text is cut in the same places. -/
theorem IsCut.withSlots {pieces : List Piece} (h : IsCut pieces) :
    IsCut (pieces.map (Piece.withSlot slot)) := by
  induction h with
  | nil => exact .nil
  | argument _ _ ih => exact .argument (isIndex_toString _) ih
  | @copied c pieces hnone hpieces ih =>
    refine .copied (fun table digits rest hdigits htext => ?_) ih
    -- an argument that starts here would have been copied
    obtain ⟨first, word, hindex, hword⟩ := exists_indexText table hdigits
    rw [hindex] at htext
    obtain ⟨rfl, htail⟩ := List.cons.inj htext
    cases pieces with
    | nil => cases htail
    | cons piece pieces =>
      cases piece with
      | copied x =>
        obtain ⟨rfl, hrest⟩ := List.cons.inj htail
        obtain ⟨behind, rfl⟩ := exists_copied hword hrest
        refine hnone table digits (behind.flatMap Piece.text) hdigits ?_
        rw [hindex, List.flatMap_cons, List.flatMap_append, flatMap_text_copied]
        rfl
      | argument other index =>
        obtain ⟨-, hrest⟩ := List.cons.inj htail
        have hfirst : '[' = first := (List.cons.inj hrest).1
        rw [← hfirst] at hword
        exact hword List.mem_cons_self

end Slots

end PipelineArchive.Patch.Metal
