import PipelineArchive.Text.DigitTable
import PipelineArchive.Text.WordTable

/-!
# Character classes and trimming

Blanks are the white space characters of every script. Word characters and decimal digits
follow the tables of their properties. Trimming works on lists of characters, so that the
parts it removes can be spoken about: `trimEnd_append_trailingBlanks` says that nothing else
is lost.
-/

set_option autoImplicit false

namespace PipelineArchive.Text

/-- Whether a code point lies in one of the given ranges. -/
def inRanges (ranges : List (Nat × Nat)) (code : Nat) : Bool :=
  ranges.any fun (low, high) => low ≤ code && code ≤ high

/-- The white space characters. -/
def isBlank (c : Char) : Bool :=
  let code := c.toNat
  (0x09 ≤ code && code ≤ 0x0D) || code == 0x20 || code == 0x85 || code == 0xA0
    || code == 0x1680 || (0x2000 ≤ code && code ≤ 0x200A) || code == 0x2028 || code == 0x2029
    || code == 0x202F || code == 0x205F || code == 0x3000

/-- The characters that words are made of. -/
def isWord (c : Char) : Bool :=
  if c.toNat < 0x80 then c.isAlphanum || c == '_' else inRanges wordRanges c.toNat

/-- The decimal digits of every script. -/
def isDigit (c : Char) : Bool :=
  if c.toNat < 0x80 then c.isDigit else inRanges digitRanges c.toNat

/-- A list of characters without its leading blanks. -/
def trimStart (cs : List Char) : List Char := cs.dropWhile isBlank

/-- The part of a list of characters up to its last character that is not blank. -/
def trimEnd : List Char → List Char
  | [] => []
  | c :: rest =>
      match trimEnd rest with
      | [] => if isBlank c then [] else [c]
      | kept => c :: kept

/-- The blanks at the end of a list of characters. -/
def trailingBlanks (cs : List Char) : List Char := cs.drop (trimEnd cs).length

/-- A list of characters without blanks at its ends. -/
def trim (cs : List Char) : List Char := trimEnd (trimStart cs)

/-- The parts of a list of characters between the separators; there is always one part. -/
def splitOn (separator : Char) : List Char → List (List Char)
  | [] => [[]]
  | c :: rest =>
      if c = separator then [] :: splitOn separator rest
      else
        match splitOn separator rest with
        | [] => [[c]]
        | part :: parts => (c :: part) :: parts

/-- The last of the words that blanks separate, if there is one. -/
def lastWord? (cs : List Char) : Option (List Char) :=
  match ((trimEnd cs).reverse.takeWhile fun c => !isBlank c).reverse with
  | [] => none
  | word => some word

/-- The rest of a text after a word that it starts with. -/
def after? (word text : List Char) : Option (List Char) :=
  if word.isPrefixOf text then some (text.drop word.length) else none

/-- The parts of a list of characters joined by a separator. -/
def joinWith (separator : List Char) : List (List Char) → List Char
  | [] => []
  | [part] => part
  | part :: parts => part ++ separator ++ joinWith separator parts

/-! ## Trimming loses nothing else -/

/-- What trimming keeps, followed by the trailing blanks, is the whole text. -/
theorem trimEnd_append_trailingBlanks (cs : List Char) :
    trimEnd cs ++ trailingBlanks cs = cs := by
  suffices h : ∃ tail, trimEnd cs ++ tail = cs by
    obtain ⟨tail, h⟩ := h
    have hdrop := congrArg (List.drop (trimEnd cs).length) h
    rw [List.drop_left] at hdrop
    rw [trailingBlanks, ← hdrop, h]
  induction cs with
  | nil => exact ⟨[], rfl⟩
  | cons c rest ih =>
    obtain ⟨tail, ih⟩ := ih
    unfold trimEnd
    split
    · split
      · exact ⟨c :: rest, rfl⟩
      · exact ⟨rest, rfl⟩
    · exact ⟨tail, by simp [ih]⟩

theorem trimStart_subset (text : List Char) : trimStart text ⊆ text :=
  (List.dropWhile_suffix isBlank).subset

/-! ## Words at the end -/

/-- A text that ends with a word is not trimmed. -/
theorem trimEnd_append (text : List Char) {word : List Char}
    (hword : ∀ c ∈ word, isBlank c = false) (hne : word ≠ []) :
    trimEnd (text ++ word) = text ++ word := by
  have hcons (c : Char) {rest : List Char} (hrest : trimEnd rest = rest) (hne : rest ≠ []) :
      trimEnd (c :: rest) = c :: rest := by
    rw [trimEnd, hrest]
    cases rest with
    | nil => exact (hne rfl).elim
    | cons => rfl
  have hself : trimEnd word = word := by
    induction word with
    | nil => rfl
    | cons c word ih =>
      rw [List.forall_mem_cons] at hword
      by_cases hlast : word = []
      · subst hlast
        simp [trimEnd, hword.1]
      · exact hcons c (ih hword.2 hlast) hlast
  induction text with
  | nil => exact hself
  | cons c text ih => exact hcons c ih (List.append_ne_nil_of_right_ne_nil text hne)

/-- The word behind a blank is the last one. -/
theorem lastWord?_append {text : List Char} {c : Char} (hc : isBlank c) {word : List Char}
    (hword : ∀ c ∈ word, isBlank c = false) (hne : word ≠ []) :
    lastWord? (text ++ [c] ++ word) = some word := by
  have hall : ∀ x ∈ word.reverse, (!isBlank x) = true := by
    simpa using hword
  have hlast : ((trimEnd (text ++ [c] ++ word)).reverse.takeWhile fun x => !isBlank x).reverse =
      word := by
    rw [trimEnd_append _ hword hne, List.reverse_append, List.takeWhile_append_of_pos hall,
      List.reverse_concat, List.takeWhile_cons_of_neg (by simp [hc]), List.append_nil,
      List.reverse_reverse]
  rw [lastWord?, hlast]
  obtain ⟨x, word, rfl⟩ := List.exists_cons_of_ne_nil hne
  rfl

end PipelineArchive.Text
