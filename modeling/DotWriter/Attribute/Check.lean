import DotWriter.Attribute.Spec

/-!
# Checking attribute values

* `checkValue` checks a value against the specification of an attribute: its kind, then the bounds
  for numbers, then the texts that are allowed; the result is the text that a table keeps;
* `Table.add` writes an attribute that its table supports.
-/

namespace DotWriter

/-- The text that a table keeps for a value.  Strings and labels bring their own delimiters, and
everything else is put between double quotes.  Inside labels, strings are escaped as text of a
label is. -/
def storedText (attr : AttributeId) (v : Value) : Except Fault String :=
  match v with
  | .string s | .escString s =>
    .ok (if attr.isHtml then "\"" ++ escapeHtml s ++ "\"" else quoted s)
  | .label content => Value.renderLabel content
  | v => do return "\"" ++ (← v.render) ++ "\""

/-- The number that is held against bounds. -/
def Value.number? : Value → Option Number
  | .int n => some (.int n.val)
  | .double x => some (.float (.finite x))
  | _ => none

/-- Checks the bounds of a number. -/
def Spec.checkBounds (s : Spec) (name : String) (x : Number) : Except Fault Unit :=
  match s.low.filter x.less, s.high.filter fun b => b.less x with
  | some low, _ => .error (.belowLow name low.text x.text)
  | none, some high => .error (.aboveHigh name high.text x.text)
  | none, none => .ok ()

/-- Checks that the text of a value is allowed. -/
def Spec.checkChoices (s : Spec) (name : String) (v : Value) : Except Fault Unit :=
  match s.choices with
  | none => .ok ()
  | some texts => do
    let text ← v.render
    if texts.contains text then .ok () else .error (.notAllowed text name)

/-- Checks a value of an attribute. -/
def checkValue (attr : AttributeId) (v : Value) : Except Fault String := do
  let spec := attr.spec
  if !spec.accepts v then .error (.wrongKind attr.name spec.kindNames v.className)
  match v.number? with
  | some x => spec.checkBounds attr.name x
  | none => .ok ()
  spec.checkChoices attr.name v
  storedText attr v

/-- Checks any datum as the value of an attribute. -/
def check (attr : AttributeId) : Datum → Except Fault String
  | .value v => checkValue attr v
  | d => .error (.wrongKind attr.name attr.spec.kindNames d.typeName)

/-- Writes an attribute, if the entity may carry it and the value is right.  All checks are made
before the table changes. -/
def Table.add (t : Table) (attr : AttributeId) (d : Datum) : Except Fault Unit × Table :=
  if t.supports attr then
    match check attr d with
    | .ok text => (.ok (), t.put attr text)
    | .error f => (.error f, t)
  else (.error (.unsupported attr.name), t)

end DotWriter
