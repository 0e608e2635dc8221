/-!
# Numbers in base sixteen

Hashes and words are shown as lower-case digits of a fixed count.
-/

set_option autoImplicit false

namespace PipelineArchive.Text

/-- The digits of a number in base sixteen, with zeros in front up to a least count. -/
def hex (width n : Nat) : String :=
  let digits := Nat.toDigits 16 n
  String.ofList (List.replicate (width - digits.length) '0' ++ digits)

end PipelineArchive.Text
