import DotWriter.Workspace.Attributes

/-!
# Expressions

An `Expression` says how an object is made: from data, by the name of a kind of value or part and
arguments, or by a name of the workspace.

* `Expression.eval` makes the object; arguments are made from left to right, and each before what
  takes it;
* an argument that is a part of a label is shared with the object that takes it, not copied.
-/

namespace DotWriter

/-- Expressions for objects. -/
inductive Expression
  | scalar (r : Raw)
  | list (items : List Expression)
  | map (entries : List (Expression × Expression))
  /-- A value of the named kind. -/
  | value (kind : String) (args : List Expression)
  /-- The member of an enumeration with the given text. -/
  | member (e : Option Enumeration) (text : Expression)
  /-- The borders of the given names. -/
  | sides (names : List String)
  /-- A part of a label, with attributes that are written in order. -/
  | part (className : String) (args : List Expression)
    (attributes : List (Option AttributeId × Expression))
  /-- What the name stands for. -/
  | named (name : String)

namespace Action

/-- Takes over the parts of a new part.  What was given as an argument is shared. -/
def shareAll : List LabelNode → List Item → Action (List PartId)
  | [], _ => return []
  | _ :: ns, .part p :: items => return p :: (← shareAll ns items)
  | .foreign _ :: ns, item :: items => do
    let p ← addPart (.foreign item)
    return p :: (← shareAll ns items)
  | n :: ns, items => return (← adopt n) :: (← shareAll ns items.tail)

/-- Puts a part that was made of arguments into the workspace. -/
def share (n : LabelNode) (args : List Item) : Action PartId := do
  match n with
  | .text items => addPart (.text (← shareAll items args))
  | .tag t attributes content => addPart (.tag t attributes (← shareAll content args))
  | n => adopt n

/-- Makes a label of its content, which is shared if it is a part. -/
def makeLabel (args : List Item) (data : List Datum) : Action Item := do
  match ← liftExcept (Value.ofLabel data), args with
  | .label _, [.part p] => addLabel p
  | .label content, _ => addLabel (← adopt content)
  | _, _ => throw .noSuchPart

/-- Makes a part of a label, or a label, of its arguments. -/
def makePart (className : String) (args : List Item) : Action Item := do
  let data ← args.mapM datum
  if className = "HtmlLabel" then makeLabel args data
  else return .part (← share (← liftExcept (LabelNode.of className data)) args)

/-- The attribute, if there is one of the name that was looked up. -/
def knownAttribute : Option AttributeId → Action AttributeId
  | some attr => return attr
  | none => throw .unknownMember

/-- The border of the given name. -/
def sideOf (name : String) : Action Sides :=
  match Sides.ofName? name with
  | some s => return s
  | none => throw .missingKey

end Action

namespace Expression

open DotWriter.Action

mutual

/-- Makes the object of an expression. -/
def eval : Expression → Action Item
  | scalar r => return .datum (.raw r)
  | list items => do return .datum (Datum.ofList (← (← evalAll items).mapM datum))
  | map entries => do return .datum (Datum.ofEntries (← evalEntries entries))
  | value kind args => do
    let data ← (← evalAll args).mapM datum
    addValue (← liftExcept (Value.of kind data))
  | member e text => do
    let d ← datum (← eval text)
    match e with
    | some e => return .datum (.value (← liftExcept (Value.memberOf e d)))
    | none => throw .unknownMember
  | sides names => do
    let all ← names.mapM sideOf
    return .datum (.value (.sides (all.foldl Sides.union Sides.none)))
  | part className args attributes => do
    let item ← makePart className (← evalAll args)
    evalAttributes item attributes
    return item
  | named name => Action.named name

/-- Makes several objects from left to right. -/
def evalAll : List Expression → Action (List Item)
  | [] => return []
  | e :: es => do
    let item ← eval e
    return item :: (← evalAll es)

/-- Makes the keys and values of a mapping. -/
def evalEntries : List (Expression × Expression) → Action (List (Datum × Datum))
  | [] => return []
  | (k, v) :: rest => do
    let key ← datum (← eval k)
    let value ← datum (← eval v)
    return (key, value) :: (← evalEntries rest)

/-- Writes the attributes of a tag in order. -/
def evalAttributes (item : Item) : List (Option AttributeId × Expression) → Action Unit
  | [] => return ()
  | (attr, e) :: rest => do
    let place ← placeOf item (some .attributes)
    let _ ← table place
    let attr ← knownAttribute attr
    let _ ← addAttribute place attr (← datum (← eval e))
    evalAttributes item rest

end

/-- Makes the object of an expression as an argument. -/
def evalDatum (e : Expression) : Action Datum := do datum (← eval e)

end Expression

end DotWriter
