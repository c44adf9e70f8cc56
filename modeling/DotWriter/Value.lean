import DotWriter.Color
import DotWriter.Label.Node
import DotWriter.Value.Geometry
import DotWriter.Value.Identifier
import DotWriter.Value.Integer
import DotWriter.Value.Layers

/-!
# Values

`Value` gathers the kinds of values that attributes and names take.

* `Value.render` is the text of a value in a document;
* `Value.literal` shows it in messages, and `Value.className` names its kind;
* `quoted` puts a text between double quotes.
-/

namespace DotWriter

/-- A character between double quotes: a quote gets a backslash, and a line end becomes one. -/
def quoteChar (c : Char) : List Char :=
  if c = '"' then ['\\', '"'] else if c = '\n' then ['\\', 'n'] else [c]

/-- The characters of a text between double quotes, with the quotes. -/
def quotedChars (cs : List Char) : List Char := '"' :: (cs.flatMap quoteChar ++ ['"'])

/-- A text between double quotes. -/
def quoted (s : String) : String := String.ofList (quotedChars s.toList)

/-- The values. -/
inductive Value
  | id (x : Id)
  /-- A truth value, given by any datum. -/
  | bool (given : Raw)
  | int (n : Integer)
  | double (x : Double)
  | string (s : String)
  /-- A string that may hold escape sequences of the renderer. -/
  | escString (s : String)
  | point (p : Point)
  | pointList (ps : List Point)
  | rect (r : Rect)
  | doubleList (xs : List Double)
  | addDouble (a : AddDouble)
  | addPoint (a : AddPoint)
  | portPos (p : PortPos)
  | layerList (l : LayerList)
  | layerRange (l : LayerRange)
  | viewPort (v : ViewPort)
  | styleList (styles : List (Member .style))
  | color (c : Color)
  | member (e : Enumeration) (m : Member e)
  | sides (s : Sides)
  /-- A label with markup. -/
  | label (content : LabelNode)

namespace Value

/-- The text of a label, between angle brackets. -/
def renderLabel (content : LabelNode) : Except Fault String := do
  return "<" ++ (← content.render) ++ ">"

/-- The text of a truth value. -/
def renderBool (b : Bool) : String := if b then "true" else "false"

/-- The text of a value in a document. -/
def render : Value → Except Fault String
  | id x => .ok x.name
  | bool given => .ok (renderBool given.isTruthy)
  | int n => .ok (toString n.val)
  | double x => .ok x.fixed
  | string s => .ok (quoted s)
  | escString s => .ok (quoted s)
  | point p => .ok p.render
  | pointList ps => .ok (String.intercalate " " (ps.map Point.render))
  | rect r => .ok r.render
  | doubleList xs => .ok (String.intercalate ":" (xs.map Double.fixed))
  | addDouble a => .ok a.render
  | addPoint a => .ok a.render
  | portPos p => .ok p.render
  | layerList l => l.render
  | layerRange l => l.render
  | viewPort v => .ok v.render
  | styleList styles => .ok (String.intercalate "," (styles.map Member.text))
  | color c => c.render
  | member _ m => .ok m.text
  | sides s => .ok s.text
  | label content => renderLabel content

/-- The name of the kind of a value. -/
def className : Value → String
  | id _ => "Id"
  | bool _ => "Bool"
  | int _ => "Int"
  | double _ => "Double"
  | string _ => "String"
  | escString _ => "EscString"
  | point _ => "Point"
  | pointList _ => "PointList"
  | rect _ => "Rect"
  | doubleList _ => "DoubleList"
  | addDouble _ => "AddDouble"
  | addPoint _ => "AddPoint"
  | portPos _ => "PortPos"
  | layerList _ => "LayerList"
  | layerRange _ => "LayerRange"
  | viewPort _ => "ViewPort"
  | styleList _ => "StyleList"
  | color c => c.className
  | member e _ => e.name
  | sides _ => "Sides"
  | label _ => "HtmlLabel"

/-- A number of the 64-bit format as messages show it. -/
def doubleLiteral (x : Double) : String := "Double(value=" ++ x.text ++ ")"

/-- A value as messages show it.  A label is shown by its text. -/
def literal : Value → Except Fault String
  | id x => .ok ("Id(name=" ++ textLiteral x.name ++ ")")
  | bool given => .ok ("Bool(value=" ++ given.literal ++ ")")
  | int n => .ok ("Int(value=" ++ toString n.val ++ ")")
  | double x => .ok (doubleLiteral x)
  | string s => .ok ("String(text=" ++ textLiteral s ++ ")")
  | escString s => .ok ("EscString(text=" ++ textLiteral s ++ ")")
  | point p => .ok p.literal
  | pointList ps => .ok ("PointList(points=" ++ listLiteral (ps.map Point.literal) ++ ")")
  | rect r => .ok r.literal
  | doubleList xs => .ok ("DoubleList(values=" ++ listLiteral (xs.map doubleLiteral) ++ ")")
  | addDouble a => .ok a.literal
  | addPoint a => .ok a.literal
  | portPos p => .ok p.literal
  | layerList l => .ok l.literal
  | layerRange l => .ok l.literal
  | viewPort v => .ok v.literal
  | styleList styles => .ok ("StyleList(styles=" ++ tupleLiteral (styles.map Member.literal) ++ ")")
  | color c => .ok c.literal
  | member _ m => .ok m.literal
  | sides s => .ok s.literal
  | label content => do return "HtmlLabel(" ++ textLiteral (← renderLabel content) ++ ")"

end Value

/-- What an argument may be: raw data, a value, a part of a label, a collection of these, or
anything else, of which only the type, the text in messages, the truth and the text that it is
written as count. -/
inductive Datum
  | raw (r : Raw)
  | list (items : List Datum)
  | map (entries : List (Datum × Datum))
  | value (v : Value)
  | node (n : LabelNode)
  | other (typeName : String) (shown : Shown) (truth : Bool) (written : Except Fault String)

namespace Datum

mutual

/-- The datum as messages show it; parts of labels cannot be shown. -/
def literal? : Datum → Except Fault Shown
  | raw r => .ok (some r.literal)
  | list items => do return (← literals? items).map listLiteral
  | map entries => do return (← entryLiterals? entries).map mapLiteral
  | value v => some <$> v.literal
  | node _ => .ok none
  | other _ shown _ _ => .ok shown

/-- The items of a list as messages show them. -/
def literals? : List Datum → Except Fault (Option (List String))
  | [] => .ok (some [])
  | d :: ds => do
    let shown ← d.literal?
    let rest ← literals? ds
    return shown.bind fun s => rest.map (s :: ·)

/-- The entries of a mapping as messages show them. -/
def entryLiterals? : List (Datum × Datum) → Except Fault (Option (List (String × String)))
  | [] => .ok (some [])
  | (k, v) :: entries => do
    let key ← k.literal?
    let value ← v.literal?
    let rest ← entryLiterals? entries
    return key.bind fun k => value.bind fun v => rest.map ((k, v) :: ·)

end

/-- Refuses the datum with a message that shows it. -/
def refuse {α : Type} (d : Datum) (fault : Shown → Fault) : Except Fault α := do
  throw (fault (← d.literal?))

theorem refuse_ne_ok {α : Type} {d : Datum} {fault : Shown → Fault} (x : α) :
    d.refuse fault ≠ .ok x := by
  unfold refuse
  cases d.literal? <;> nofun

/-- The text that the datum is written as inside a label.  Data has none. -/
def render : Datum → Except Fault String
  | value v => v.render
  | node n => n.render
  | other _ _ _ written => written
  | _ => .error .noSuchPart

/-- The name of the type of the datum in messages. -/
def typeName : Datum → String
  | raw r => r.typeName
  | list _ => "list"
  | map _ => "dict"
  | value v => v.className
  | node n => n.className
  | other name _ _ _ => name

/-- Whether the datum counts as true. -/
def isTruthy : Datum → Bool
  | raw r => r.isTruthy
  | list items => !items.isEmpty
  | map entries => !entries.isEmpty
  | value (.sides s) => s != Sides.none
  | other _ _ truth _ => truth
  | _ => true

/-- A list of data, which is raw if all of them are. -/
def ofList (items : List Datum) : Datum :=
  match items.mapM fun
    | raw r => some r
    | _ => none with
  | some rs => raw (.list rs)
  | none => list items

/-- A mapping, which is raw if all of its keys and values are. -/
def ofEntries (entries : List (Datum × Datum)) : Datum :=
  match entries.mapM fun
    | (raw k, raw v) => some (k, v)
    | _ => none with
  | some rs => raw (.map rs)
  | none => map entries

/-- The datum if it is raw, and otherwise its truth. -/
def rawOrTruth : Datum → Raw
  | raw r => r
  | d => .bool d.isTruthy

/-- The items of a list. -/
def items? : Datum → Option (List Datum)
  | raw (.list rs) => some (rs.map raw)
  | list items => some items
  | _ => none

end Datum

end DotWriter
