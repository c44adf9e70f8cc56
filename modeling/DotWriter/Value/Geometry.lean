import DotWriter.Double.Text
import DotWriter.Enumeration
import DotWriter.Fault
import DotWriter.Raw

/-!
# Points and what is made of them

* `Point` is a position in two or three dimensions, which may be marked as fixed;
* `Rect` has two plain corners, `ViewPort` a size, a zoom and a centre;
* `PortPos` is a port of a node, a compass point, or both.
-/

namespace DotWriter

/-- A position.  A marked one ends in an exclamation mark. -/
structure Point where
  x : Double
  y : Double
  z : Option Double
  marked : Bool
deriving DecidableEq

namespace Point

/-- Whether the point has a third coordinate. -/
def is3d (p : Point) : Bool := p.z.isSome

/-- Whether the point has two coordinates and no mark. -/
def isPlain (p : Point) : Bool := !p.is3d && !p.marked

/-- The coordinates. -/
def coordinates (p : Point) : List Double := [p.x, p.y] ++ p.z.toList

/-- The coordinates with commas between them, and the mark. -/
def render (p : Point) : String :=
  String.intercalate "," (p.coordinates.map Double.fixed) ++ (if p.marked then "!" else "")

/-- A point as messages show it. -/
def literal (p : Point) : String :=
  "Point(x=" ++ p.x.text ++ ", y=" ++ p.y.text ++ ", z=" ++ (p.z.map Double.text).getD "None" ++
    ", marked=" ++ boolLiteral p.marked ++ ")"

end Point

/-- A rectangle. -/
structure Rect where
  lowerLeft : Point
  upperRight : Point
deriving DecidableEq

namespace Rect

/-- Checks the corners: two coordinates each, and no marks. -/
def of (lowerLeft upperRight : Point) : Except Fault Rect :=
  if lowerLeft.is3d || upperRight.is3d then .error .rectNotFlat
  else if lowerLeft.marked || upperRight.marked then .error .rectMarked
  else .ok ⟨lowerLeft, upperRight⟩

/-- Both corners. -/
def render (r : Rect) : String := r.lowerLeft.render ++ "," ++ r.upperRight.render

/-- A rectangle as messages show it. -/
def literal (r : Rect) : String :=
  "Rect(lower_left=" ++ r.lowerLeft.literal ++ ", upper_right=" ++ r.upperRight.literal ++ ")"

end Rect

/-- The centre of a view port. -/
inductive Center
  | none
  | point (p : Point)
  | node (name : String)
deriving DecidableEq

/-- The part of a drawing that is shown. -/
structure ViewPort where
  width : Double
  height : Double
  zoom : Double
  center : Center
deriving DecidableEq

namespace ViewPort

/-- Checks the centre: a point must have two coordinates and no mark. -/
def of (width height zoom : Double) (center : Center) : Except Fault ViewPort :=
  match center with
  | .point p =>
    if p.isPlain then .ok ⟨width, height, zoom, center⟩ else .error .centerNotPlain
  | _ => .ok ⟨width, height, zoom, center⟩

/-- Size and zoom, and the centre: a point as it is, a node between single quotes. -/
def render (v : ViewPort) : String :=
  let size := String.intercalate "," ([v.width, v.height, v.zoom].map Double.fixed)
  match v.center with
  | .none => size
  | .point p => size ++ "," ++ p.render
  | .node name => if name = "" then size else size ++ ",'" ++ name ++ "'"

/-- A view port as messages show it. -/
def literal (v : ViewPort) : String :=
  let center := match v.center with
    | .none => "None"
    | .point p => p.literal
    | .node name => textLiteral name
  "ViewPort(width=" ++ v.width.text ++ ", height=" ++ v.height.text ++ ", zoom=" ++ v.zoom.text ++
    ", center=" ++ center ++ ")"

end ViewPort

/-- Where on a node an edge ends. -/
structure PortPos where
  port : Option String
  compass : Option (Member .compassPoint)
deriving DecidableEq

namespace PortPos

/-- The name of the port, if there is one that is not empty. -/
def portName? (p : PortPos) : Option String := p.port.filter (· ≠ "")

/-- Checks that there is a port or a compass point. -/
def of (port : Option String) (compass : Option (Member .compassPoint)) : Except Fault PortPos :=
  let p : PortPos := ⟨port, compass⟩
  if p.portName?.isNone && compass.isNone then .error .emptyPort else .ok p

/-- The port and the compass point, with a colon between them if there are both. -/
def render (p : PortPos) : String :=
  String.intercalate ":" (p.portName?.toList ++ (p.compass.map Member.text).toList)

/-- A port position as messages show it. -/
def literal (p : PortPos) : String :=
  "PortPos(port=" ++ (p.port.map textLiteral).getD "None" ++ ", compass=" ++
    (p.compass.map Member.literal).getD "None" ++ ")"

end PortPos

/-- A number that may be added to a default. -/
structure AddDouble where
  value : Double
  additive : Bool
deriving DecidableEq

namespace AddDouble

/-- The number, with a plus sign if it is added. -/
def render (a : AddDouble) : String := (if a.additive then "+" else "") ++ a.value.fixed

/-- The number as messages show it. -/
def literal (a : AddDouble) : String :=
  "AddDouble(value=" ++ a.value.text ++ ", additive=" ++ boolLiteral a.additive ++ ")"

end AddDouble

/-- A pair of numbers that may be added to defaults. -/
structure AddPoint where
  x : Double
  y : Double
  additive : Bool
deriving DecidableEq

namespace AddPoint

/-- Both numbers, with a plus sign in front if they are added. -/
def render (a : AddPoint) : String :=
  (if a.additive then "+" else "") ++ a.x.fixed ++ "," ++ a.y.fixed

/-- The pair as messages show it. -/
def literal (a : AddPoint) : String :=
  "AddPoint(x=" ++ a.x.text ++ ", y=" ++ a.y.text ++ ", additive=" ++ boolLiteral a.additive ++ ")"

end AddPoint

end DotWriter
