import PipelineArchive.Text.Blank
import PipelineArchive.Text.PrintTable

/-!
# Quoted texts

A text between quotation marks. Quotation marks, backslashes and characters that cannot be
shown are escaped; so are characters that attach to the one before.
-/

set_option autoImplicit false

namespace PipelineArchive.Text

/-- A character as it stands between quotation marks. -/
def quotedChar (c : Char) : List Char :=
  if c = '"' then ['\\', '"']
  else if c = '\\' then ['\\', '\\']
  else if c = '\n' then ['\\', 'n']
  else if c = '\r' then ['\\', 'r']
  else if c = '\t' then ['\\', 't']
  else if c = '\x00' then ['\\', '0']
  else if inRanges extendRanges c.toNat || inRanges unprintableRanges c.toNat then
    "\\u\x7b".toList ++ Nat.toDigits 16 c.toNat ++ ['\x7d']
  else [c]

/-- A text between quotation marks. -/
def quoted (text : String) : String :=
  String.ofList ('"' :: text.toList.flatMap quotedChar ++ ['"'])

end PipelineArchive.Text
