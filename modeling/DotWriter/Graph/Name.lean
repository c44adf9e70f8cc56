import DotWriter.Value

/-!
# Names

Graphs and nodes are named by identifiers, numbers or strings.  `Name.of` accepts a datum as a
name; a plain text must be an identifier.  Two names are the same if they are written alike.
-/

namespace DotWriter

/-- A name of a graph or a node. -/
inductive Name
  | id (x : Id)
  | int (n : Integer)
  | double (x : Double)
  | string (s : String)
deriving DecidableEq

namespace Name

/-- The name as it is written. -/
def render : Name → String
  | id x => x.name
  | int n => toString n.val
  | double x => x.fixed
  | string s => quoted s

/-- The text that the name stands for: that of a string without its quotes. -/
def raw : Name → String
  | string s => s
  | name => name.render

/-- Accepts a datum as a name. -/
def of : Datum → Except Fault Name
  | .raw (.text s) => id <$> Id.of s
  | .value (.id x) => .ok (id x)
  | .value (.int n) => .ok (int n)
  | .value (.double x) => .ok (double x)
  | .value (.string s) => .ok (string s)
  | .value (.escString s) => .ok (string s)
  | d => .error (.notName d.typeName)

end Name

end DotWriter
