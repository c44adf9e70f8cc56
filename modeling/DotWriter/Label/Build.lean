import DotWriter.Attribute.Check

/-!
# Building labels

* `LabelNode.of` makes a node of a given kind from its arguments, and `LabelNode.add` appends an
  argument to a text, a row or a table; both check what the node may hold;
* `LabelNode.setAttribute` writes an attribute of a tag;
* `Value.ofLabel` makes a value of a text or a table.
-/

namespace DotWriter

namespace LabelNode

/-- A text without items. -/
def noText : LabelNode := text []

/-- An item of a text: a string, or a node that may be one. -/
def itemOf (d : Datum) : Except Fault LabelNode :=
  match d with
  | .raw (.text s) => .ok (chars s)
  | .node n => if n.isTextItem then .ok n else .error (.notTextItem none)
  | d => d.refuse .notTextItem

/-- A node for which `allowed` holds. -/
def nodeOf (allowed : LabelNode → Bool) (fault : Shown → Fault) (d : Datum) :
    Except Fault LabelNode :=
  match d with
  | .node n => if allowed n then .ok n else .error (fault none)
  | d => d.refuse fault

/-- What may be appended to a text, a row or a table. -/
def checkedItem (parent : LabelNode) (d : Datum) : Except Fault LabelNode :=
  match parent with
  | text _ => itemOf d
  | tag .tableRow _ _ => nodeOf (isTag .tableCell) .notCell d
  | tag .table _ _ => nodeOf (isTag .tableRow) .notRow d
  | _ => .error .noSuchPart

/-- Appends an argument to a text, a row or a table. -/
def add (parent : LabelNode) (d : Datum) : Except Fault LabelNode := do
  return parent.append (← parent.checkedItem d)

/-- Appends several arguments in order. -/
def addAll (parent : LabelNode) (ds : List Datum) : Except Fault LabelNode := ds.foldlM add parent

/-- The content of a tag that wraps a text, which is not checked to be one. -/
def wrappedText : Datum → LabelNode
  | .raw .null => noText
  | .node n => n
  | d => foreign d.render

/-- The content of a cell. -/
def cellContent : Datum → Except Fault LabelNode
  | .raw .null => .ok noText
  | d => nodeOf isCellContent .notCellContent d

/-- A tag of the given kind with its arguments. -/
def ofTag (t : Tag) (args : List Datum) : Except Fault LabelNode :=
  if t = .tableRow ∨ t = .table then (bare t []).addAll args
  else if t.isVoid then
    match args with
    | [] => .ok (bare t [])
    | _ => .error .wrongOperand
  else match args with
    | [] =>
      if t.wrapsTable then .error .wrongOperand else .ok (bare t [noText])
    | [d] => do
      let content ←
        if t.wrapsTable then nodeOf isTable .notTable d
        else if t = .tableCell then cellContent d
        else .ok (wrappedText d)
      return bare t [content]
    | _ => .error .wrongOperand

/-- A node of the given kind with its arguments. -/
def of (className : String) (args : List Datum) : Except Fault LabelNode :=
  if className = "Text" then noText.addAll args
  else if className = "HtmlString" then
    match args with
    | [.raw (.text s)] => .ok (chars s)
    | _ => .error .wrongOperand
  else match Tag.ofClassName? className with
    | some t => ofTag t args
    | none => .error .noSuchPart

/-- Writes an attribute of a tag. -/
def setAttribute (n : LabelNode) (attr : AttributeId) (d : Datum) : Except Fault LabelNode :=
  match n with
  | tag t attributes content => do return tag t (← leaving (attributes.add attr d)) content
  | _ => .error .noSuchPart

end LabelNode

/-- The content of a label: a text or a table; a string is a text of one item. -/
def labelContent : Datum → Except Fault LabelNode
  | .raw (.text s) => .ok (.text [.chars s])
  | d => LabelNode.nodeOf LabelNode.isLabelContent .notLabelContent d

/-- A label as a value. -/
def Value.ofLabel (args : List Datum) : Except Fault Value :=
  match args with
  | [d] => .label <$> labelContent d
  | _ => .error .wrongOperand

end DotWriter
