import DotWriter.Attribute.Check
import DotWriter.Color.Reading
import DotWriter.Number

/-!
# Reading attribute values from raw data

A description gives attribute values as scalars and lists.  Each kind of value has a reader, and
`coerce` tries the kinds of an attribute in their order: the first reader that takes the datum
decides.
-/

namespace DotWriter

/-- The parts of a text between separators. -/
def splitText (sep : Char) (s : String) : List Raw :=
  (s.toList.splitOn sep).map fun part => .text (String.ofList part)

namespace Raw

/-- Reads a number, or a text with any blanks around one. -/
def readNumber : Raw → Except Fault Binary64
  | int n => .finite <$> Double.ofInt n
  | float x => .ok x
  | text s =>
    match readDouble? (strip s.toList) with
    | some x => .ok x
    | none => .error .unreadableText
  | _ => .error .unreadableText

/-- Reads the numbers of a list, or those of a text with commas between them. -/
def readNumbers : Raw → Except Fault (List Binary64)
  | list items => items.mapM readNumber
  | r => (splitText ',' r.plain).mapM readNumber

/-- Reads a truth value. -/
def readBool : Raw → Except Fault Bool
  | bool b => .ok b
  | text s =>
    if lower s = "true" then .ok true
    else if lower s = "false" then .ok false
    else .error .unreadableText
  | _ => .error .unreadableText

/-- Reads an integer. -/
def readInteger : Raw → Except Fault Integer
  | int n => Integer.of n
  | text s =>
    match readInteger? s.toList with
    | some n => Integer.of n
    | none => .error .unreadableText
  | _ => .error .unreadableText

/-- Reads a number of the 64-bit format. -/
def readDouble (r : Raw) : Except Fault Double := do Double.of "Double" (← r.readNumber)

/-- Reads a string; numbers are taken as they are written. -/
def readString : Raw → Except Fault String
  | text s => .ok s
  | int n => .ok (int n).plain
  | float x => .ok (float x).plain
  | _ => .error .unreadableText

/-- The point with the given two or three coordinates. -/
def pointOf (marked : Bool) : List Binary64 → Except Fault Point
  | [x, y] => do return ⟨← Double.of "Point x" x, ← Double.of "Point y" y, none, marked⟩
  | [x, y, z] => do
    return ⟨← Double.of "Point x" x, ← Double.of "Point y" y, some (← Double.of "Point z" z), marked⟩
  | _ => .error .unreadableText

/-- Splits a mark off the end of a text. -/
def cutMark : Raw → Raw × Bool
  | text s =>
    match s.toList.reverse with
    | '!' :: front => (text (String.ofList front.reverse), true)
    | _ => (text s, false)
  | r => (r, false)

/-- Reads a point, whose text may end in a mark. -/
def readPoint (r : Raw) : Except Fault Point := do
  let (r, marked) := r.cutMark
  pointOf marked (← r.readNumbers)

/-- Reads the points of a list, or those of a text with blanks between them. -/
def readPointList : Raw → Except Fault (List Point)
  | list items => items.mapM readPoint
  | r => (words r.plain.toList).mapM fun w => readPoint (text (String.ofList w))

/-- Reads a rectangle from its four coordinates. -/
def readRect (r : Raw) : Except Fault Rect := do
  match ← r.readNumbers with
  | [a, b, c, d] => Rect.of (← pointOf false [a, b]) (← pointOf false [c, d])
  | _ => .error .unreadableText

/-- Splits a plus sign off the front of a text. -/
def cutPlus : Raw → Raw × Bool
  | text s =>
    match s.toList with
    | '+' :: rest => (text (String.ofList rest), true)
    | _ => (text s, false)
  | r => (r, false)

/-- Reads a number that may be added to a default. -/
def readAddDouble (r : Raw) : Except Fault AddDouble := do
  let (r, additive) := r.cutPlus
  return ⟨← Double.of "AddDouble" (← r.readNumber), additive⟩

/-- Reads a pair of numbers that may be added to defaults. -/
def readAddPoint (r : Raw) : Except Fault AddPoint := do
  let (r, additive) := r.cutPlus
  match ← r.readNumbers with
  | [x, y] => return ⟨← Double.of "AddPoint x" x, ← Double.of "AddPoint y" y, additive⟩
  | _ => .error .unreadableText

/-- Finds a member of an enumeration by its text. -/
def memberOf (e : Enumeration) (s : String) : Except Fault (Member e) :=
  match Member.find? e s with
  | some m => .ok m
  | none => .error .unknownMember

/-- Reads a port with a compass point after its last colon.  A text without a port in front is a
compass point if it can be one, and a port otherwise. -/
def readPortPos : Raw → Except Fault PortPos
  | text s =>
    let (port, rest) := (cutLast ':' s.toList).getD ([], s.toList)
    let rest := String.ofList rest
    if port = [] then
      match Member.find? .compassPoint rest with
      | some m => PortPos.of none (some m)
      | none => PortPos.of (some rest) none
    else do PortPos.of (some (String.ofList port)) (some (← memberOf .compassPoint rest))
  | _ => .error .unreadableText

/-- Reads the names of a list, or those of a text with colons between them. -/
def readLayerList : Raw → Except Fault LayerList
  | list items => LayerList.of items
  | r => LayerList.of (splitText ':' r.plain)

/-- A single layer, or a range of layers with a colon between its ends. -/
def layerItem (s : String) : Raw :=
  match cutFirst ':' s.toList with
  | some (first, last) => list [text (String.ofList first), text (String.ofList last)]
  | none => text s

/-- Reads the layers and ranges of a list, or those of a text with commas between them. -/
def readLayerRange (r : Raw) : Except Fault LayerRange :=
  let items := match r with
    | list items => items
    | r => splitText ',' r.plain
  LayerRange.of (items.map fun item => layerItem item.plain)

/-- The text between single quotes, if the text is quoted. -/
def unquoted? (cs : List Char) : Option (List Char) :=
  if cs.head? = some '\'' ∧ cs.getLast? = some '\'' then some (cs.drop 1).dropLast else none

/-- The view port with the given size and zoom. -/
def viewPortOf (center : Center) : List Binary64 → Except Fault ViewPort
  | [w, h] => do
    ViewPort.of (← Double.of "ViewPort width" w) (← Double.of "ViewPort height" h)
      (← Double.of "ViewPort zoom" (Binary64.ofInt 1)) center
  | [w, h, z] => do
    ViewPort.of (← Double.of "ViewPort width" w) (← Double.of "ViewPort height" h)
      (← Double.of "ViewPort zoom" z) center
  | _ => .error .unreadableText

/-- Reads a view port from its parts: two or three numbers, three numbers and a node between
single quotes, or five numbers. -/
def readViewPortParts (parts : List (List Char)) : Except Fault ViewPort := do
  let number (cs : List Char) := readNumber (text (String.ofList cs))
  let node? : Option (List Char) := match parts with
    | [_, _, _, node] => unquoted? node
    | _ => none
  match node? with
  | some node => viewPortOf (.node (String.ofList node)) (← (parts.take 3).mapM number)
  | none =>
    match ← parts.mapM number with
    | [w, h, z, x, y] => viewPortOf (.point (← pointOf false [x, y])) [w, h, z]
    | numbers => viewPortOf .none numbers

/-- Reads a view port. -/
def readViewPort : Raw → Except Fault ViewPort
  | text s => readViewPortParts (s.toList.splitOn ',')
  | _ => .error .unreadableText

/-- Reads one style; blanks around it are dropped. -/
def readStyle (r : Raw) : Except Fault (Member .style) :=
  memberOf .style (String.ofList (strip r.plain.toList))

/-- A list of styles must not be empty. -/
def styleListOf (styles : List (Member .style)) : Except Fault (List (Member .style)) :=
  if styles.isEmpty then .error .noStyles else .ok styles

/-- Reads the styles of a list, or those of a text with commas between them. -/
def readStyleList : Raw → Except Fault (List (Member .style))
  | list items => do styleListOf (← items.mapM readStyle)
  | r => do styleListOf (← (splitText ',' r.plain).mapM readStyle)

/-- The border with the given letter. -/
def sideOf (c : Char) : Except Fault Sides :=
  match Sides.ofLetter? c with
  | some s => .ok s
  | none => .error .missingKey

/-- Reads the borders of a cell from their letters, of which there is at least one. -/
def readSides : Raw → Except Fault Sides
  | text s =>
    if s = "" then .error .unreadableText
    else do return (← s.toList.mapM sideOf).foldl Sides.union Sides.none
  | _ => .error .unreadableText

/-- Reads a member of an enumeration. -/
def readMember (e : Enumeration) : Raw → Except Fault (Member e)
  | text s => memberOf e s
  | _ => .error .unknownMember

end Raw

/-- Reads a value of the given kind.  Labels cannot be read. -/
def Kind.read? (k : Kind) (r : Raw) : Option (Except Fault Value) :=
  match k with
  | .bool => some ((fun b => .bool (.bool b)) <$> r.readBool)
  | .int => some (.int <$> r.readInteger)
  | .double => some (.double <$> r.readDouble)
  | .string => some (.string <$> r.readString)
  | .escString => some (.escString <$> r.readString)
  | .label => none
  | .point => some (.point <$> r.readPoint)
  | .pointList => some (.pointList <$> r.readPointList)
  | .rect => some (.rect <$> r.readRect)
  | .addDouble => some (.addDouble <$> r.readAddDouble)
  | .addPoint => some (.addPoint <$> r.readAddPoint)
  | .portPos => some (.portPos <$> r.readPortPos)
  | .layerList => some (.layerList <$> r.readLayerList)
  | .layerRange => some (.layerRange <$> r.readLayerRange)
  | .viewPort => some (.viewPort <$> r.readViewPort)
  | .styleList => some (.styleList <$> r.readStyleList)
  | .color => some (.color <$> readColor r)
  | .sides => some (.sides <$> r.readSides)
  | .member e => some (.member e <$> r.readMember e)

/-- The value of the first kind that takes the datum.  A fault other than a rejection ends the
search. -/
def readFirst (none : Fault) (r : Raw) : List Kind → Except Fault Value
  | [] => .error none
  | k :: ks =>
    match k.read? r with
    | some (.ok v) => .ok v
    | some (.error f) => if f.isRejection then readFirst none r ks else .error f
    | _ => readFirst none r ks

/-- Turns a raw datum into a value of the first kind that the attribute accepts. -/
def coerce (attr : AttributeId) (r : Raw) : Except Fault Value :=
  readFirst (.unreadable r.literal attr.spec.kindNames attr.name) r attr.spec.kinds

end DotWriter
