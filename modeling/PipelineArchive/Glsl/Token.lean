import PipelineArchive.Text.Blank

/-!
# Tokens of GLSL

A text without its comments and directives is cut into words, which include numbers, and
single symbols.
-/

set_option autoImplicit false

namespace PipelineArchive.Glsl

/-- A word or a symbol of a text. -/
inductive Token where
  | word (text : String)
  | symbol (c : Char)
  deriving DecidableEq, Repr

/-- Where a text stands with respect to comments. -/
inductive CommentPlace where
  | outside
  | slash
  | line
  | block
  | star
  deriving DecidableEq, Repr

/-- A text with every comment replaced by a space; the line feed after a comment stays. -/
def withoutComments : CommentPlace → List Char → List Char
  | .outside, [] | .line, [] | .block, [] | .star, [] => []
  | .slash, [] => ['/']
  | .outside, '/' :: rest => withoutComments .slash rest
  | .outside, c :: rest => c :: withoutComments .outside rest
  | .slash, '/' :: rest => withoutComments .line rest
  | .slash, '*' :: rest => withoutComments .block rest
  | .slash, c :: rest => '/' :: c :: withoutComments .outside rest
  | .line, '\n' :: rest => '\n' :: withoutComments .outside rest
  | .line, _ :: rest => withoutComments .line rest
  | .block, '*' :: rest => withoutComments .star rest
  | .block, _ :: rest => withoutComments .block rest
  | .star, '/' :: rest => ' ' :: withoutComments .outside rest
  | .star, '*' :: rest => withoutComments .star rest
  | .star, _ :: rest => withoutComments .block rest

/-- Whether a line is a directive. -/
def isDirective (line : List Char) : Bool := (Text.trimStart line).head? == some '#'

/-- A text without its directives. -/
def withoutDirectives (text : List Char) : List Char :=
  Text.joinWith ['\n'] ((Text.splitOn '\n' text).filter fun line => !isDirective line)

/-- The token that the characters of a word form, if there are any; the last one comes
first. -/
def pendingWord : List Char → List Token
  | [] => []
  | reversed => [.word (String.ofList reversed.reverse)]

/-- The tokens of a text after the characters of a word that has begun. -/
def tokensFrom : List Char → List Char → List Token
  | pending, [] => pendingWord pending
  | pending, c :: rest =>
      if Text.isWord c then tokensFrom (c :: pending) rest
      else if Text.isBlank c then pendingWord pending ++ tokensFrom [] rest
      else pendingWord pending ++ .symbol c :: tokensFrom [] rest

/-- The tokens of a text. -/
def tokens (text : String) : List Token :=
  tokensFrom [] (withoutDirectives (withoutComments .outside text.toList))

/-- Whether a word stands in a text or in a directive of it. -/
def mentions (text : String) (word : String) : Bool :=
  (tokensFrom [] (withoutComments .outside text.toList)).contains (.word word)

end PipelineArchive.Glsl
