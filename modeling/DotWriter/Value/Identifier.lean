import DotWriter.Fault
import DotWriter.Text.Printable

/-!
# Identifiers

An identifier is written without quotes: Latin letters, decimal digits and underscores, of which
the first is no digit.  `Id.of` checks a text and says which rule it breaks.
-/

namespace DotWriter

/-- The letters of the Latin alphabet up to `U+00FF`. -/
def isLatinLetter (c : Char) : Bool :=
  ('a' ≤ c && c ≤ 'z') || ('A' ≤ c && c ≤ 'Z') || ('\u00c0' ≤ c && c ≤ '\u00d6') ||
    ('\u00d8' ≤ c && c ≤ '\u00f6') || ('\u00f8' ≤ c && c ≤ '\u00ff')

/-- The characters that an identifier may begin with. -/
def isIdStart (c : Char) : Bool := isLatinLetter c || c == '_'

/-- The characters of an identifier after the first. -/
def isIdRest (c : Char) : Bool := isLatinLetter c || ('0' ≤ c && c ≤ '9') || c == '_'

/-- Whether a text is an identifier. -/
def isIdentifier : List Char → Bool
  | [] => false
  | c :: cs => isIdStart c && cs.all isIdRest

/-- An identifier. -/
structure Id where
  /-- The text of the identifier. -/
  name : String
  /-- Its characters are those of an identifier. -/
  valid : isIdentifier name.toList = true
deriving DecidableEq

namespace Id

/-- The rule that a text breaks if it is no identifier. -/
def faultOf (name : String) : Fault :=
  match name.toList with
  | [] => .emptyId
  | c :: _ => if isIdStart c then .idCharacter (textLiteral name) else .idStart (textLiteral name)

/-- Checks an identifier. -/
def of (name : String) : Except Fault Id :=
  if h : isIdentifier name.toList = true then .ok ⟨name, h⟩ else .error (faultOf name)

end Id

end DotWriter
