import DotWriter.Attribute.Table
import DotWriter.Fault
import DotWriter.Label.Tag

/-!
# Label nodes

A label is made of `LabelNode`s: strings, texts, and tags with attributes and content.  What a tag
around a text is given is not checked, so such a tag may hold an object that is no part of a label.

* `escapeHtml` writes a text so that no character of it can be taken for markup: control characters
  are dropped, and the ampersand, the angle brackets, the double quote and everything above `U+009F`
  become hexadecimal character references of at least four digits;
* `LabelNode.render` writes a node;
* `LabelNode.append` puts a node at the end of another one, and `LabelNode.addRule` draws a line
  between rows or cells.
-/

namespace DotWriter

/-! ### Text -/

/-- Whether a character is dropped from labels. -/
def isControl (c : Char) : Bool := c.toNat ≤ 0x1F || (0x7F ≤ c.toNat && c.toNat ≤ 0x9F)

/-- Whether a character of a label stands for itself. -/
def isPlainHtml (c : Char) : Bool :=
  c ≠ '&' && c ≠ '<' && c ≠ '>' && c ≠ '"' && c.toNat ≤ 0x9F

/-- Upper-case hexadecimal digits of `n`, at least four of them. -/
def referenceDigits (n : Nat) : List Char :=
  let ds := (Nat.toDigits 16 n).map Char.toUpper
  List.replicate (4 - ds.length) '0' ++ ds

/-- A character in a label. -/
def escapeHtmlChar (c : Char) : List Char :=
  if isControl c then []
  else if isPlainHtml c then [c]
  else '&' :: '#' :: 'x' :: (referenceDigits c.toNat ++ [';'])

/-- A text in a label. -/
def escapeHtml (s : String) : String := String.ofList (s.toList.flatMap escapeHtmlChar)

/-! ### Nodes -/

/-- The parts of a label. -/
inductive LabelNode
  /-- A string. -/
  | chars (text : String)
  /-- Text items in order. -/
  | text (items : List LabelNode)
  /-- A tag with its attributes and the nodes that it holds. -/
  | tag (tag : Tag) (attributes : Table) (content : List LabelNode)
  /-- An object that is no part of a label: the text that it is written as, or why it is not. -/
  | foreign (written : Except Fault String)

namespace LabelNode

mutual

/-- The node as it is written in a label. -/
def render : LabelNode → Except Fault String
  | chars s => .ok (escapeHtml s)
  | text items => renderAll items
  | tag t attributes content =>
    let head := "<" ++ t.spelling ++ attributes.render
    if t.isVoid then .ok (head ++ "/>")
    else do return head ++ ">" ++ (← renderAll content) ++ "</" ++ t.spelling ++ ">"
  | foreign written => written

/-- Nodes one after the other. -/
def renderAll : List LabelNode → Except Fault String
  | [] => .ok ""
  | n :: ns => do
    let head ← n.render
    return head ++ (← renderAll ns)

end

/-- The name of the kind of a node. -/
def className : LabelNode → String
  | chars _ => "HtmlString"
  | text _ => "Text"
  | tag t _ _ => t.className
  | foreign _ => "object"

/-- Whether the node may be an item of a text. -/
def isTextItem : LabelNode → Bool
  | chars _ => true
  | tag t _ _ => t.isTextItem
  | _ => false

/-- Whether the node is a table, possibly inside tags that change its font. -/
def isTable : LabelNode → Bool
  | tag t _ _ => t.isTable
  | _ => false

/-- Whether the node is a text. -/
def isText : LabelNode → Bool
  | text _ => true
  | _ => false

/-- Whether the node is a tag of the given kind. -/
def isTag (t : Tag) : LabelNode → Bool
  | tag u _ _ => u = t
  | _ => false

/-- Whether a cell may hold the node. -/
def isCellContent (n : LabelNode) : Bool := n.isText || n.isTable || n.isTag .image

/-- Whether a label may hold the node. -/
def isLabelContent (n : LabelNode) : Bool := n.isText || n.isTable

/-- A tag without attributes. -/
def bare (t : Tag) (content : List LabelNode) : LabelNode :=
  tag t (Table.ofLegal (t.supported.map .html)) content

/-- The rule that a row or a table draws. -/
def ruleOf? : LabelNode → Option Tag
  | tag .table _ _ => some .horizontalRule
  | tag .tableRow _ _ => some .verticalRule
  | _ => none

/-- Appends a node that need not be checked. -/
def append : LabelNode → LabelNode → LabelNode
  | text items, n => text (items ++ [n])
  | tag t attributes content, n => tag t attributes (content ++ [n])
  | n, _ => n

/-- Draws a rule before the next row of a table or the next cell of a row. -/
def addRule (parent : LabelNode) : Except Fault LabelNode :=
  match parent.ruleOf? with
  | some rule => .ok (parent.append (bare rule []))
  | none => .error .noSuchPart

end LabelNode

end DotWriter
