import DotWriter.Raw

/-!
# Writing JSON

`Json.render` writes raw data over several lines, each level indented by two blanks.  Everything
outside printable ASCII is escaped.
-/

namespace DotWriter

namespace Json

/-- One code unit as an escape. -/
def unitEscape (u : Nat) : List Char := '\\' :: 'u' :: hexPadded 4 u

/-- A character of a string. -/
def escapeChar (c : Char) : List Char :=
  if c = '"' then ['\\', '"']
  else if c = '\\' then ['\\', '\\']
  else if c = '\n' then ['\\', 'n']
  else if c = '\r' then ['\\', 'r']
  else if c = '\t' then ['\\', 't']
  else if c = '\x08' then ['\\', 'b']
  else if c = '\x0c' then ['\\', 'f']
  else if 0x20 ≤ c.toNat ∧ c.toNat < 0x7F then [c]
  else if c.toNat < 0x10000 then unitEscape c.toNat
  else
    let n := c.toNat - 0x10000
    unitEscape (0xD800 + n / 0x400) ++ unitEscape (0xDC00 + n % 0x400)

/-- A string with its quotes. -/
def renderString (s : String) : String :=
  String.ofList ('"' :: (s.toList.flatMap escapeChar ++ ['"']))

/-- A number of the 64-bit format. -/
def renderFloat : Binary64 → String
  | .finite x => x.text
  | .infinite false => "Infinity"
  | .infinite true => "-Infinity"
  | .nan => "NaN"

/-- A scalar that is no string. -/
def renderScalar : Raw → String
  | .null => "null"
  | .bool b => if b then "true" else "false"
  | .int n => toString n
  | .float x => renderFloat x
  | r => r.plain

/-- A key of a mapping, always as a string. -/
def renderKey : Raw → String
  | .text s => renderString s
  | r => renderString (renderScalar r)

/-- Items over several lines between the given brackets. -/
def block (level : Nat) (first last : String) (items : List String) : String :=
  let line (n : Nat) := "\n" ++ String.ofList (List.replicate (2 * n) ' ')
  if items.isEmpty then first ++ last
  else
    first ++ line (level + 1) ++ String.intercalate ("," ++ line (level + 1)) items ++ line level ++
      last

mutual

/-- A datum at the given level. -/
def render (level : Nat) : Raw → String
  | .text s => renderString s
  | .list items => block level "[" "]" (renderItems (level + 1) items)
  | .map entries => block level "\x7b" "\x7d" (renderEntries (level + 1) entries)
  | r => renderScalar r

/-- The items of a list. -/
def renderItems (level : Nat) : List Raw → List String
  | [] => []
  | x :: xs => render level x :: renderItems level xs

/-- The entries of a mapping. -/
def renderEntries (level : Nat) : List (Raw × Raw) → List String
  | [] => []
  | (k, v) :: rest => (renderKey k ++ ": " ++ render level v) :: renderEntries level rest

end

end Json

end DotWriter
