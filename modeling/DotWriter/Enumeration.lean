/-!
# Enumerations

An attribute of an enumerated kind takes one of a few literal texts.

* `Enumeration` lists the kinds and `Enumeration.members` the names and texts of their members;
* `Member e` is a member of the enumeration `e`, found by its text with `Member.find?`;
* `Sides` is a set of cell borders.
-/

namespace DotWriter

/-- The kinds of literal texts. -/
inductive Enumeration
  /-- Arrow heads and tails. -/
  | arrowType
  /-- How clusters are laid out. -/
  | clusterMode
  /-- Which ends of an edge carry arrows. -/
  | dirType
  /-- The order in which a drawing is written. -/
  | outputMode
  /-- How components are packed. -/
  | packMode
  /-- The order in which pages are written. -/
  | pageDir
  /-- Quadtree schemes. -/
  | quadType
  /-- Rank constraints of a subgraph. -/
  | rankType
  /-- Directions of a layout. -/
  | rankDir
  /-- Ways to smooth a layout. -/
  | smoothType
  /-- Initial placements. -/
  | startType
  /-- Where on a node an edge ends. -/
  | compassPoint
  /-- Drawing styles. -/
  | style
  /-- Node shapes. -/
  | shape
  /-- Alignments inside a label. -/
  | alignment
  /-- How an image fills its cell. -/
  | scale
  /-- Styles of tables and cells. -/
  | htmlStyle
deriving DecidableEq

namespace Enumeration

/-- All enumerations. -/
def all : List Enumeration := [
  .arrowType, .clusterMode, .dirType, .outputMode, .packMode, .pageDir, .quadType, .rankType,
  .rankDir, .smoothType, .startType, .compassPoint, .style, .shape, .alignment, .scale, .htmlStyle]

/-- The name of an enumeration. -/
def name : Enumeration → String
  | arrowType => "ArrowType"
  | clusterMode => "ClusterMode"
  | dirType => "DirType"
  | outputMode => "OutputMode"
  | packMode => "PackMode"
  | pageDir => "PageDir"
  | quadType => "QuadType"
  | rankType => "RankType"
  | rankDir => "RankDir"
  | smoothType => "SmoothType"
  | startType => "StartType"
  | compassPoint => "CompassPoint"
  | style => "Style"
  | shape => "Shape"
  | alignment => "Alignment"
  | scale => "Scale"
  | htmlStyle => "HtmlStyle"

/-- The names and texts of the members, in order. -/
def members : Enumeration → List (String × String)
  | arrowType => [
      ("NORMAL", "normal"), ("INV", "inv"), ("DOT", "dot"), ("INV_DOT", "invdot"), ("ODOT", "odot"),
      ("INV_ODOT", "invodot"), ("NONE", "none"), ("TEE", "tee"), ("EMPTY", "empty"),
      ("INV_EMPTY", "invempty"), ("DIAMOND", "diamond"), ("ODIAMOND", "odiamond"),
      ("EDIAMOND", "ediamond"), ("CROW", "crow"), ("BOX", "box"), ("OBOX", "obox"),
      ("OPEN", "open"), ("HALF_OPEN", "halfopen"), ("VEE", "vee")]
  | clusterMode => [
      ("LOCAL", "local"), ("GLOBAL", "global"), ("NONE", "none")]
  | dirType => [
      ("FORWARD", "forward"), ("BACK", "back"), ("BOTH", "both"), ("NONE", "none")]
  | outputMode => [
      ("BREADTH_FIRST", "breadthfirst"), ("NODES_FIRST", "nodesfirst"),
      ("EDGES_FIRST", "edgesfirst")]
  | packMode => [
      ("NODE", "node"), ("CLUST", "clust"), ("GRAPH", "graph"), ("ARRAY", "array")]
  | pageDir => [
      ("BL", "BL"), ("BR", "BR"), ("TL", "TL"), ("TR", "TR"), ("RB", "RB"), ("RT", "RT"),
      ("LB", "LB"), ("LT", "LT")]
  | quadType => [
      ("NORMAL", "normal"), ("FAST", "fast"), ("NONE", "none")]
  | rankType => [
      ("SAME", "same"), ("MIN", "min"), ("SOURCE", "source"), ("MAX", "max"), ("SINK", "sink")]
  | rankDir => [
      ("TB", "TB"), ("LR", "LR"), ("BT", "BT"), ("RL", "RL")]
  | smoothType => [
      ("NONE", "none"), ("AVG_DIST", "avg_dist"), ("GRAPH_DIST", "graph_dist"),
      ("POWER_DIST", "power_dist"), ("RNG", "rng"), ("SPRING", "spring"), ("TRIANGLE", "triangle")]
  | startType => [
      ("REGULAR", "regular"), ("SELF", "self"), ("RANDOM", "random")]
  | compassPoint => [
      ("N", "n"), ("NE", "ne"), ("E", "e"), ("SE", "se"), ("S", "s"), ("SW", "sw"), ("W", "w"),
      ("NW", "nw"), ("C", "c"), ("ANY", "_")]
  | style => [
      ("SOLID", "solid"), ("DASHED", "dashed"), ("DOTTED", "dotted"), ("BOLD", "bold"),
      ("INVIS", "invis"), ("FILLED", "filled"), ("STRIPED", "striped"), ("WEDGED", "wedged"),
      ("DIAGONALS", "diagonals"), ("ROUNDED", "rounded"), ("RADIAL", "radial"),
      ("TAPERED", "tapered")]
  | shape => [
      ("BOX", "box"), ("POLYGON", "polygon"), ("ELLIPSE", "ellipse"), ("OVAL", "oval"),
      ("CIRCLE", "circle"), ("POINT", "point"), ("EGG", "egg"), ("TRIANGLE", "triangle"),
      ("PLAINTEXT", "plaintext"), ("PLAIN", "plain"), ("DIAMOND", "diamond"),
      ("TRAPEZIUM", "trapezium"), ("PARALLELOGRAM", "parallelogram"), ("HOUSE", "house"),
      ("PENTAGON", "pentagon"), ("HEXAGON", "hexagon"), ("SEPTAGON", "septagon"),
      ("OCTAGON", "octagon"), ("DOUBLE_CIRCLE", "doublecircle"),
      ("DOUBLE_OCTAGON", "doubleoctagon"), ("TRIPLE_OCTAGON", "tripleoctagon"),
      ("INV_TRIANGLE", "invtriangle"), ("INV_TRAPEZIUM", "invtrapezium"), ("INV_HOUSE", "invhouse"),
      ("MDIAMOND", "Mdiamond"), ("MSQUARE", "Msquare"), ("MCIRCLE", "Mcircle"), ("RECT", "rect"),
      ("RECTANGLE", "rectangle"), ("SQUARE", "square"), ("STAR", "star"), ("NONE", "none"),
      ("UNDERLINE", "underline"), ("CYLINDER", "cylinder"), ("NOTE", "note"), ("TAB", "tab"),
      ("FOLDER", "folder"), ("BOX3D", "box3d"), ("COMPONENT", "component"), ("RECORD", "record"),
      ("MRECORD", "Mrecord")]
  | alignment => [
      ("CENTER", "CENTER"), ("LEFT", "LEFT"), ("RIGHT", "RIGHT"), ("TEXT", "TEXT"),
      ("MIDDLE", "MIDDLE"), ("BOTTOM", "BOTTOM"), ("TOP", "TOP")]
  | scale => [
      ("TRUE", "TRUE"), ("FALSE", "FALSE"), ("WIDTH", "WIDTH"), ("HEIGHT", "HEIGHT"),
      ("BOTH", "BOTH")]
  | htmlStyle => [
      ("ROUNDED", "ROUNDED"), ("RADIAL", "RADIAL")]

/-- The texts of the members. -/
def texts (e : Enumeration) : List String := e.members.map (·.2)

end Enumeration

/-- A member of an enumeration. -/
structure Member (e : Enumeration) where
  /-- The text that is written. -/
  text : String
  /-- It is one of the texts of the enumeration. -/
  mem_texts : text ∈ e.texts
deriving DecidableEq

namespace Member

variable {e : Enumeration}

/-- The member with the given text. -/
def find? (e : Enumeration) (text : String) : Option (Member e) :=
  if h : text ∈ e.texts then some ⟨text, h⟩ else none

/-- The name of a member. -/
def name (m : Member e) : String :=
  ((e.members.find? fun p => p.2 == m.text).map (·.1)).getD m.text

/-- A member as messages show it. -/
def literal (m : Member e) : String :=
  "<" ++ e.name ++ "." ++ m.name ++ ": '" ++ m.text ++ "'>"

@[simp] theorem find?_text (m : Member e) : find? e m.text = some m := by
  simp [find?, m.mem_texts]

end Member

/-- The borders of a cell that are drawn. -/
structure Sides where
  left : Bool
  right : Bool
  bottom : Bool
  top : Bool
deriving DecidableEq

namespace Sides

/-- No border. -/
def none : Sides := ⟨false, false, false, false⟩

/-- The borders of either set. -/
def union (a b : Sides) : Sides :=
  ⟨a.left || b.left, a.right || b.right, a.bottom || b.bottom, a.top || b.top⟩

/-- The single borders with their names and letters. -/
def single : List (String × Char × Sides) := [
  ("LEFT", 'L', { none with left := true }), ("RIGHT", 'R', { none with right := true }),
  ("BOTTOM", 'B', { none with bottom := true }), ("TOP", 'T', { none with top := true })]

/-- The flags in the order of `single`. -/
def flags (s : Sides) : List Bool := [s.left, s.right, s.bottom, s.top]

/-- The names and letters of the borders in the set. -/
def chosen (s : Sides) : List (String × Char × Sides) :=
  ((single.zip s.flags).filter (·.2)).map (·.1)

/-- The letters of the borders in the set. -/
def text (s : Sides) : String := String.ofList (s.chosen.map (·.2.1))

/-- The set as a number with a bit for each border. -/
def bits (s : Sides) : Nat :=
  (s.flags.zip [1, 2, 4, 8]).foldl (fun n p => if p.1 then n + p.2 else n) 0

/-- The set as messages show it. -/
def literal (s : Sides) : String :=
  let names := String.intercalate "|" (s.chosen.map (·.1))
  "<Sides" ++ (if s.chosen.isEmpty then "" else "." ++ names) ++ ": " ++ toString s.bits ++ ">"

/-- The border with the given name. -/
def ofName? (name : String) : Option Sides :=
  (single.find? fun p => p.1 == name).map (·.2.2)

/-- The border with the given letter, in either case. -/
def ofLetter? (letter : Char) : Option Sides :=
  (single.find? fun p => p.2.1 == letter.toUpper).map (·.2.2)

end Sides

end DotWriter
