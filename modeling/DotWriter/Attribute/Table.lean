import DotWriter.Attribute.Id
import DotWriter.Text.Blank

/-!
# Attribute tables

A `Table` holds the attributes of one entity, each with the text that stands for its value.  It is
bound to the attributes that the entity may carry, and keeps its entries in the order in which
they were last written.

* `union` merges lists of attributes and keeps the first position of each;
* `Table.put` writes an entry, and takes away the entries that it replaces: the one of the same
  attribute, and those of attributes that exclude it;
* `Table.render` and `statement` write a table.
-/

namespace DotWriter

/-- The slot of an attribute.  Attributes of one slot exclude each other in a table. -/
def AttributeId.slot? : AttributeId → Option String
  | .html .align | .html .balign | .html .valign => some "align"
  | _ => none

/-- Whether writing `new` takes away an entry of `old`. -/
def AttributeId.replaces (new old : AttributeId) : Bool :=
  old == new || (new.slot?.isSome && old.slot? == new.slot?)

/-- Merges lists of attributes, keeping the first position of each. -/
def union (lists : List (List AttributeId)) : List AttributeId := lists.flatten.eraseDups

/-- The attributes of one entity. -/
structure Table where
  /-- The attributes that the entity may carry. -/
  legal : List AttributeId
  /-- The attributes that it carries, with the texts of their values. -/
  entries : List (AttributeId × String)

namespace Table

/-- An empty table for the given attributes. -/
def ofLegal (legal : List AttributeId) : Table := ⟨union [legal], []⟩

/-- An empty table for the given attributes of graphs, nodes or edges. -/
def ofDot (legal : List DotAttribute) : Table := ofLegal (legal.map .dot)

/-- Whether the entity may carry the attribute. -/
def supports (t : Table) (attr : AttributeId) : Bool := t.legal.contains attr

/-- The text of an attribute. -/
def get? (t : Table) (attr : AttributeId) : Option String :=
  (t.entries.find? fun e => e.1 == attr).map (·.2)

/-- Whether the entity carries the attribute. -/
def contains (t : Table) (attr : AttributeId) : Bool := (t.get? attr).isSome

/-- Number of entries. -/
def size (t : Table) : Nat := t.entries.length

/-- Writes an entry at the end, in place of those that it replaces. -/
def put (t : Table) (attr : AttributeId) (text : String) : Table :=
  { t with entries := t.entries.filter (fun e => !attr.replaces e.1) ++ [(attr, text)] }

/-- An entry with a blank in front. -/
def renderEntry (e : AttributeId × String) : String := " " ++ e.1.name ++ "=" ++ e.2

/-- All entries, each with a blank in front. -/
def render (t : Table) : String :=
  if t.legal.isEmpty then "" else String.join (t.entries.map renderEntry)

end Table

/-- A statement with the given head and, unless the table is empty, its entries in brackets. -/
def statement (head : String) (t : Table) : String :=
  let entries := String.ofList (strip t.render.toList)
  if entries = "" then head ++ ";" else head ++ " [" ++ entries ++ "];"

end DotWriter
