import DotWriter.Graph.Basic
import DotWriter.Json.Reader
import DotWriter.Json.Writer

/-!
# Saved configurations

A `RenderConfig` is saved as a JSON text with its two fields.  When one is read, a missing field
takes its default and other fields are ignored.
-/

namespace DotWriter

namespace RenderConfig

/-- The text of a saved configuration. -/
def save (c : RenderConfig) : String :=
  Json.render 0 (.map [(.text "indent", .int c.indent),
    (.text "trailing_newline", c.trailingNewline)]) ++ "\n"

/-- Reads a saved configuration. -/
def load (text : String) : Except Fault RenderConfig :=
  match readJson? text with
  | none => .error .invalidJson
  | some (.map entries) =>
    of ((Raw.get? entries "indent").getD (.int 2))
      ((Raw.get? entries "trailing_newline").getD (.bool true))
  | some _ => .error .noSuchPart

/-- A configuration from arguments: the indentation and the end of the text, both with defaults. -/
def ofArguments (args : List Datum) : Except Fault RenderConfig :=
  let trailing : Raw := match (args[1]? : Option Datum) with
    | none => .bool true
    | some d => d.rawOrTruth
  if 2 < args.length then .error .wrongOperand
  else match (args[0]? : Option Datum) with
    | none => of (.int 2) trailing
    | some (.raw r) => of r trailing
    | some d => d.refuse .indent

/-- Whether two configurations are equal. -/
def equals (c d : RenderConfig) : Bool :=
  c.indent == d.indent && c.trailingNewline.equals d.trailingNewline

end RenderConfig

end DotWriter
