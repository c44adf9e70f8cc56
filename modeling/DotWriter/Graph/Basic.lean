import DotWriter.Graph.Block

/-!
# Graphs

* A `RenderConfig` says how a document is laid out as text.  The number of blanks per level is
  checked; whether the text ends in a line end is decided by the truth of any datum.
* A `Graph` is a block with the graphs nested in it.  `Graph.render` writes the document of a graph:
  the outermost graph decides about the edge operator, and every level of nesting is indented.
-/

namespace DotWriter

/-! ### Layout -/

/-- How documents are laid out. -/
structure RenderConfig where
  /-- Blanks per level of nesting. -/
  indent : Nat
  /-- Ends the text with a line end, if it counts as true. -/
  trailingNewline : Raw

namespace RenderConfig

/-- Two blanks per level, and a line end at the end. -/
def standard : RenderConfig := ⟨2, .bool true⟩

/-- Checks the number of blanks per level. -/
def of (indent trailingNewline : Raw) : Except Fault RenderConfig :=
  match indent with
  | .int (.ofNat n) => .ok ⟨n, trailingNewline⟩
  | r => .error (.indent (some r.literal))

end RenderConfig

/-! ### Documents -/

/-- A graph with its subgraphs. -/
inductive Graph
  | mk (block : Block) (subgraphs : List Graph)

namespace Graph

/-- What the graph itself declares. -/
def block : Graph → Block
  | mk b _ => b

/-- The graphs nested in it. -/
def subgraphs : Graph → List Graph
  | mk _ gs => gs

/-- A graph that declares nothing. -/
def empty (name : Name) (kind : GraphKind) : Graph := mk (Block.empty name kind) []

/-- The blanks in front of a line. -/
def margin (indent level : Nat) : String := String.ofList (List.replicate (indent * level) ' ')

mutual

/-- The lines of a graph at the given level of nesting. -/
def lines (indent : Nat) (directed : Bool) (level : Nat) : Graph → List String
  | mk b gs =>
    let outer := margin indent level
    let inner := margin indent (level + 1)
    (outer ++ b.heading) :: (b.statements directed).map (inner ++ ·) ++
      linesAll indent directed (level + 1) gs ++ [outer ++ "\x7d"]

/-- The lines of graphs at the given level of nesting. -/
def linesAll (indent : Nat) (directed : Bool) (level : Nat) : List Graph → List String
  | [] => []
  | g :: gs => lines indent directed level g ++ linesAll indent directed level gs

end

/-- The document of a graph. -/
def render (g : Graph) (config : RenderConfig) : String :=
  String.intercalate "\n" (g.lines config.indent g.block.kind.isDirected 0) ++
    (if config.trailingNewline.isTruthy then "\n" else "")

end Graph

end DotWriter
