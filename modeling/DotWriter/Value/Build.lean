import DotWriter.Number
import DotWriter.Value

/-!
# Building values from arguments

`Value.of` makes a value of a given kind from its arguments, which may be of any type, and checks
each of them.  Trailing arguments may be missing where there is a default.
`Value.append` adds to a value that is a list.
-/

namespace DotWriter

namespace Datum

/-- Checks a number, which must be finite. -/
def finiteNumber (what : String) : Datum → Except Fault Double
  | raw (.int n) => Double.ofInt n
  | raw (.float x) => Double.of what x
  | d => d.refuse (.notNumber what)

/-- Checks an integer. -/
def integer : Datum → Except Fault Integer
  | raw (.int n) => Integer.of n
  | d => d.refuse .notInteger

/-- Checks a channel of a color. -/
def channel (name : String) : Datum → Except Fault UInt8
  | raw (.int n) => channelOfInt name n
  | d => d.refuse (.channel name)

/-- Checks a component of a color, which is compared before it is looked at more closely. -/
def component (name : String) (d : Datum) : Except Fault Number := do
  let x ← match d with
    | raw r => r.number
    | _ => .error .wrongOperand
  checkComponent name x
  return x

/-- A text; anything else lacks the operations of texts. -/
def text : Datum → Except Fault String
  | raw (.text s) => .ok s
  | _ => .error .noSuchPart

/-- A point; anything else lacks the parts of points. -/
def point : Datum → Except Fault Point
  | value (.point p) => .ok p
  | _ => .error .noSuchPart

/-- A number of the 64-bit format as a value. -/
def double : Datum → Except Fault Double
  | value (.double x) => .ok x
  | _ => .error .noSuchPart

/-- A drawing style. -/
def style : Datum → Except Fault (Member .style)
  | value (.member .style m) => .ok m
  | _ => .error .noSuchPart

/-- The items of a list. -/
def listItems (d : Datum) : Except Fault (List Datum) :=
  match d.items? with
  | some items => .ok items
  | none => .error .wrongOperand

/-- The parts of a raw sequence. -/
def rawParts : Datum → Except Fault (List Raw)
  | raw r =>
    match parts? r with
    | some parts => .ok parts
    | none => .error .wrongOperand
  | _ => .error .wrongOperand

/-- A color that may be an entry of a list of colors. -/
def entryColor : Datum → Except Fault PlainColor
  | value (.color (.plain c)) => .ok c
  | value (.color (.list _)) => .error .nestedColors
  | d => d.refuse .notColor

/-- The weight of an entry of a list of colors. -/
def weight? : Datum → Except Fault (Option Binary64)
  | raw .null => .ok none
  | raw (.int n) => do return some (.finite (← Double.ofInt n))
  | raw (.float x) => .ok (some x)
  | d => d.refuse .weightNotNumber

/-- The centre of a view port. -/
def center : Datum → Center
  | value (.point p) => .point p
  | raw r => if r.isTruthy then .node r.plain else .none
  | _ => .none

/-- An identifier. -/
def identifier : Datum → Except Fault Id
  | raw (.text s) => Id.of s
  | d => if d.isTruthy then .error .wrongOperand else .error .emptyId

end Datum

/-- A color with an optional weight, given as arguments. -/
def Datum.weightedColor : List Datum → Except Fault (PlainColor × Option Binary64)
  | [color] => do return (← color.entryColor, none)
  | [color, weight] => do return (← color.entryColor, ← weight.weight?)
  | _ => .error .wrongOperand

/-- Appends a color with an optional weight, given as arguments. -/
def ColorList.addArguments (l : ColorList) (args : List Datum) : Except Fault Unit × ColorList :=
  match Datum.weightedColor args with
  | .ok (color, weight) => l.add color weight
  | .error f => (.error f, l)

namespace Value

/-- An argument, or nothing at all if it is missing. -/
def argument (args : List Datum) (i : Nat) : Datum := args[i]?.getD (.raw .null)

/-- Checks that the number of arguments lies between two bounds. -/
def arity (low high : Nat) (args : List Datum) : Except Fault Unit :=
  if low ≤ args.length ∧ args.length ≤ high then .ok () else .error .wrongOperand

/-- A point from its arguments. -/
def pointOf (args : List Datum) : Except Fault Point := do
  arity 2 4 args
  let x ← (argument args 0).finiteNumber "Point x"
  let y ← (argument args 1).finiteNumber "Point y"
  let z ← match argument args 2 with
    | .raw .null => .ok none
    | d => some <$> d.finiteNumber "Point z"
  return ⟨x, y, z, (argument args 3).isTruthy⟩

/-- A port position from its arguments. -/
def portPosOf (args : List Datum) : Except Fault PortPos := do
  arity 0 2 args
  let port ← match argument args 0 with
    | .raw .null => .ok none
    | d => some <$> d.text
  let compass ← match argument args 1 with
    | .raw .null => .ok none
    | .value (.member .compassPoint m) => .ok (some m)
    | _ => .error .noSuchPart
  PortPos.of port compass

/-- A view port from its arguments. -/
def viewPortOf (args : List Datum) : Except Fault ViewPort := do
  arity 2 4 args
  let width ← (argument args 0).finiteNumber "ViewPort width"
  let height ← (argument args 1).finiteNumber "ViewPort height"
  let zoom ← (args[2]?.getD (Datum.raw (.int 1))).finiteNumber "ViewPort zoom"
  ViewPort.of width height zoom (argument args 3).center

/-- Channels from three arguments. -/
def rgbOf (args : List Datum) : Except Fault Rgb := do
  let red ← (argument args 0).channel "red"
  let green ← (argument args 1).channel "green"
  let blue ← (argument args 2).channel "blue"
  return ⟨red, green, blue⟩

/-- The channels of a color that has them. -/
def channelsOf : Datum → Except Fault Rgb
  | .value (.color (.plain (.rgb c))) => .ok c
  | .value (.color (.plain (.rgba c _))) => .ok c
  | _ => .error .noSuchPart

/-- A color by hue, saturation and value from its arguments. -/
def hsvOf (args : List Datum) : Except Fault Hsv := do
  let hue ← (argument args 0).component "Hue"
  let saturation ← (argument args 1).component "Saturation"
  let value ← (argument args 2).component "Value"
  Hsv.of hue saturation value

/-- The items of an argument that is a list, none if it is missing. -/
def optionalItems (args : List Datum) : Except Fault (List Datum) := do
  arity 0 1 args
  match args with
  | [d] => d.listItems
  | _ => return []

/-- A value of the given kind from its arguments. -/
def of (kind : String) (args : List Datum) : Except Fault Value := do
  let first := argument args 0
  match kind with
  | "Id" => do arity 1 1 args; return .id (← first.identifier)
  | "Bool" => do arity 1 1 args; return .bool first.rawOrTruth
  | "Int" => do arity 1 1 args; return .int (← first.integer)
  | "Double" => do arity 1 1 args; return .double (← first.finiteNumber "Double")
  | "String" => do arity 1 1 args; return .string (← first.text)
  | "EscString" => do arity 1 1 args; return .escString (← first.text)
  | "Point" => do return .point (← pointOf args)
  | "PointList" => do return .pointList (← (← optionalItems args).mapM Datum.point)
  | "Rect" => do
    arity 2 2 args
    return .rect (← Rect.of (← first.point) (← (argument args 1).point))
  | "DoubleList" => do return .doubleList (← (← optionalItems args).mapM Datum.double)
  | "AddDouble" => do
    arity 1 2 args
    return .addDouble ⟨← first.finiteNumber "AddDouble", (argument args 1).isTruthy⟩
  | "AddPoint" => do
    arity 2 3 args
    let x ← first.finiteNumber "AddPoint x"
    let y ← (argument args 1).finiteNumber "AddPoint y"
    return .addPoint ⟨x, y, (argument args 2).isTruthy⟩
  | "PortPos" => do return .portPos (← portPosOf args)
  | "LayerList" => do arity 1 1 args; return .layerList (← LayerList.of (← first.rawParts))
  | "LayerRange" => do arity 1 1 args; return .layerRange (← LayerRange.of (← first.rawParts))
  | "ViewPort" => do return .viewPort (← viewPortOf args)
  | "StyleList" => do
    arity 1 1 args
    let styles ← (← first.listItems).mapM Datum.style
    if styles.isEmpty then .error .noStyles
    return .styleList styles
  | "RGB" => do arity 3 3 args; return .color (.plain (.rgb (← rgbOf args)))
  | "RGBA" => do
    arity 4 4 args
    let color ← rgbOf args
    return .color (.plain (.rgba color (← (argument args 3).channel "alpha")))
  | "RGBA.from_rgb" => do
    arity 2 2 args
    let color ← channelsOf first
    return .color (.plain (.rgba color (← (argument args 1).channel "alpha")))
  | "HSV" => do arity 3 3 args; return .color (.plain (.hsv (← hsvOf args)))
  | "NamedColor" => do
    arity 1 1 args
    return .color (.plain (.named (← ColorName.of (← first.text))))
  | "ColorList" => do
    let entries ← args.mapM Datum.listItems
    let add (l : ColorList) (args : List Datum) := leaving (l.addArguments args)
    return .color (.list (← entries.foldlM add ColorList.empty))
  | _ => .error .noSuchPart

/-- The only argument, read in the given way. -/
def single {α : Type} (args : List Datum) (read : Datum → Except Fault α) : Except Fault α := do
  arity 1 1 args
  read (argument args 0)

/-- Appends arguments to a value that is a list. -/
def append (v : Value) (args : List Datum) : Except Fault Unit × Value :=
  match v with
  | pointList ps =>
    match single args Datum.point with
    | .ok p => (.ok (), pointList (ps ++ [p]))
    | .error f => (.error f, v)
  | doubleList xs =>
    match single args Datum.double with
    | .ok x => (.ok (), doubleList (xs ++ [x]))
    | .error f => (.error f, v)
  | color (.list l) =>
    let (result, l) := l.addArguments args
    (result, color (.list l))
  | _ => (.error .noSuchPart, v)

/-- Whether the value is a list that grows. -/
def isList : Value → Bool
  | pointList _ | doubleList _ | color (.list _) => true
  | _ => false

end Value

/-- The member of an enumeration with the given text. -/
def Value.memberOf (e : Enumeration) (d : Datum) : Except Fault Value :=
  match d with
  | .raw (.text s) =>
    match Member.find? e s with
    | some m => .ok (.member e m)
    | none => .error .unknownMember
  | _ => .error .unknownMember

/-- The enumeration of the given name. -/
def Enumeration.ofName? (name : String) : Option Enumeration := all.find? fun e => e.name == name

end DotWriter
