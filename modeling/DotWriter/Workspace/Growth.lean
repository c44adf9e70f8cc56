import DotWriter.Workspace.Expression

/-!
# Growing labels and lists, and calculating

* `Action.append` appends to a text, a row, a table or a list that a name stands for, and
  `Action.addRule` draws a line in a row or a table;
* `Action.calculate`, `Action.negate` and `Action.same` are arithmetic on items, and
  `Action.compare` their order.
-/

namespace DotWriter

namespace Action

/-- Whether an item is one that can grow. -/
def grows (item : Item) : Action Bool := do
  match item with
  | .list _ => return true
  | .part p =>
    match ← node p with
    | .text _ => return true
    | n => return n.ruleOf?.isSome
  | _ => return false

/-- Replaces a part of a label. -/
def setPart (p : PartId) (part : Part) : Action Unit :=
  modify fun w => { w with parts := w.parts.set p part }

/-- Appends a part to a text, a row or a table. -/
def pushPart (p child : PartId) : Action Unit := do
  match (← get).parts[p]? with
  | some (.text items) => setPart p (.text (items ++ [child]))
  | some (.tag t attributes content) => setPart p (.tag t attributes (content ++ [child]))
  | _ => throw .noSuchPart

/-- Appends arguments to a list, or one argument to a text, a row or a table. -/
def append (item : Item) (args : List Item) : Action Unit := do
  match item, args with
  | .list n, _ => do
    let v ← liftExcept (Workspace.required (← get).lists[n]?)
    let (result, v) := v.append (← args.mapM datum)
    modify fun w => { w with lists := w.lists.set n v }
    liftExcept result
  | .part p, [arg] => do
    let parent ← node p
    match ← liftExcept (parent.checkedItem (← datum arg)), arg with
    | _, .part child => pushPart p child
    | child, _ => pushPart p (← adopt child)
  | _, _ => throw .wrongOperand

/-- Makes arguments and appends them to an item that grows. -/
def appendAll (item : Item) (args : List Expression) : Action Unit := do
  if ← grows item then append item (← Expression.evalAll args) else throw .noSuchPart

/-- Draws a rule before the next row of a table or the next cell of a row. -/
def addRule (item : Item) : Action Unit := do
  match item with
  | .part p =>
    match (← node p).ruleOf? with
    | some rule => pushPart p (← adopt (LabelNode.bare rule []))
    | none => throw .noSuchPart
  | _ => throw .noSuchPart

/-- The value that an item is. -/
def valueOf (item : Item) : Action Value := do
  match ← datum item with
  | .value v => return v
  | _ => throw .wrongOperand

/-- The result of an operation on two items.  Only values bring a second operand. -/
def calculate (op : Operation) (item operand : Item) : Action Item := do
  let v ← valueOf item
  match v.isNumber, ← datum operand with
  | false, _ => throw .wrongOperand
  | true, .value w => addValue (← liftExcept (v.calculate op w))
  | true, _ => throw .noSuchPart

/-- The opposite number. -/
def negate (item : Item) : Action Item := do addValue (← liftExcept (← valueOf item).negate)

/-- A number itself. -/
def same (item : Item) : Action Item := do addValue (← liftExcept (← valueOf item).same)

/-- Compares two numbers of one kind. -/
def compare (c : Comparison) (item other : Item) : Action Bool := do
  let v ← valueOf item
  liftExcept (Value.compare c v (← valueOf other))

/-- Whether two items are equal. -/
def equal (item other : Item) : Action Bool := return (← get).equals item other

end Action

end DotWriter
