/-!
# Faults

`Fault` lists everything that can be wrong with a value, an attribute, a graph or a description.

* `Fault.family` groups the causes by who has to deal with them;
* `Fault.isRejection` and `Fault.isReported` say which families end one attempt to read a value, and
  which the command line reports;
* `Fault.message?` is the wording.  A cause keeps the texts that its message shows; a text that
  cannot be shown leaves the fault without a message, and so do numerals that cannot be read and
  operations that make no sense for their operands;
* `Changing` is a computation that changes a state until it ends well or with a fault.
-/

namespace DotWriter

/-- A text in a message, if it can be shown. -/
abbrev Shown := Option String

/-- Who has to deal with a fault. -/
inductive Fault.Family
  | value
  | typeMismatch
  | range
  | unsupported
  | duplicate
  | load
  | divisionByZero
  | overflow
  | operand
  | noSuchPart
  | missingKey
  | missingIndex
  | missingFile
  | json
  | directory
  | existingFile
  | noDirectory
deriving DecidableEq

/-- What is wrong. -/
inductive Fault
  -- Values
  | emptyId
  | idStart (shown : String)
  | idCharacter (shown : String)
  | notInteger (got : Shown)
  | intRange (n : Int)
  | notNumber (what : String) (got : Shown)
  | notFinite (what : String) (got : String)
  | rectNotFlat
  | rectMarked
  | emptyPort
  | noLayers (what : String)
  | layerName (shown : String)
  | centerNotPlain
  | noStyles
  | channel (name : String) (got : Shown)
  | component (name : String) (got : String)
  | unknownColor (shown : String)
  | nestedColors
  | notColor (got : Shown)
  | weightNotNumber (got : Shown)
  | weightRange (got : String)
  | weightSum
  | divisionByZero (kind : String)
  | unknownMember
  -- Labels
  | notTextItem (got : Shown)
  | notCellContent (got : Shown)
  | notCell (got : Shown)
  | notRow (got : Shown)
  | notTable (got : Shown)
  | notLabelContent (got : Shown)
  -- Attributes
  | unsupported (name : String)
  | wrongKind (name kinds got : String)
  | belowLow (name bound got : String)
  | aboveHigh (name bound got : String)
  | notAllowed (value name : String)
  | unreadable (shown kinds name : String)
  -- Graphs
  | notName (typeName : String)
  | duplicateNode (key graph : String)
  | duplicateGraph (key : String)
  | notNestable (kind : String)
  | selfNesting
  -- Descriptions
  | unknownAttribute (shown : String)
  | notMapping (what : String)
  | invalidName (shown : String)
  | edgesNotList
  | edgeWithoutEnds (shown : String)
  | subgraphsNotList
  | subgraphWithoutName
  | descriptionNotMapping
  | descriptionWithoutName
  | unknownGraphKind (shown : String)
  | invalidYaml
  -- Configurations
  | indent (got : Shown)
  | noConfig (path : String)
  | invalidJson
  -- Files
  | pathIsDirectory
  | pathIsFile
  | pathBelowFile
  -- Data of the wrong shape
  | notColorText (shown : String)
  | unreadableText
  | tooLarge
  | wrongOperand
  | noSuchPart
  | missingKey
  | missingIndex
deriving DecidableEq

namespace Fault

/-- The family of a fault. -/
def family : Fault → Family
  | divisionByZero _ => .divisionByZero
  | wrongKind .. | unreadable .. | notName _ => .typeMismatch
  | belowLow .. | aboveHigh .. | notAllowed .. => .range
  | unsupported _ => .unsupported
  | duplicateNode .. | duplicateGraph _ => .duplicate
  | unknownAttribute _ | notMapping _ | invalidName _ | edgesNotList | edgeWithoutEnds _
  | subgraphsNotList | subgraphWithoutName | descriptionNotMapping | descriptionWithoutName
  | unknownGraphKind _ | invalidYaml => .load
  | noConfig _ => .missingFile
  | invalidJson => .json
  | pathIsDirectory => .directory
  | pathIsFile => .existingFile
  | pathBelowFile => .noDirectory
  | tooLarge => .overflow
  | wrongOperand => .operand
  | noSuchPart => .noSuchPart
  | missingKey => .missingKey
  | missingIndex => .missingIndex
  | _ => .value

/-- Whether the fault only says that a raw datum is no value of one kind, so that the next kind
is tried. -/
def isRejection (f : Fault) : Bool :=
  match f.family with
  | .value | .range | .typeMismatch | .operand | .missingKey | .json => true
  | _ => false

/-- Whether the command line reports the fault as an error of its input. -/
def isReported (f : Fault) : Bool :=
  match f.family with
  | .value | .range | .typeMismatch | .unsupported | .duplicate | .load | .missingFile | .json =>
    true
  | _ => false

/-- The wording of a fault. -/
def message? : Fault → Option String
  | emptyId => some "IDs must not be empty"
  | idStart s => some ("IDs must start with a latin letter or underscore: " ++ s)
  | idCharacter s =>
    some ("IDs must only contain latin letters, decimal digits or underscore: " ++ s)
  | notInteger got => got.map ("Int expects an integer, got " ++ ·)
  | intRange n => some ("Int out of 64-bit range: " ++ toString n)
  | notNumber what got => got.map (what ++ " must be a number, got " ++ ·)
  | notFinite what got => some (what ++ " must be finite, got " ++ got)
  | rectNotFlat => some "Rect expects 2D points"
  | rectMarked => some "Rect expects unmarked points"
  | emptyPort => some "PortPos needs a port name or a compass point"
  | noLayers what => some (what ++ " needs at least one layer")
  | layerName s => some ("Invalid layer name: " ++ s)
  | centerNotPlain => some "ViewPort center must be a plain 2D point"
  | noStyles => some "StyleList needs at least one style"
  | channel name got =>
    got.map (name ++ " channel must be an integer between 0 and 255, got " ++ ·)
  | component name got => some ("HSV color: " ++ name ++ " out of range (0.0 - 1.0): " ++ got)
  | unknownColor s => some ("Unknown X11 color: " ++ s)
  | nestedColors => some "Color lists cannot be nested"
  | notColor got => got.map ("ColorList expects a color, got " ++ ·)
  | weightNotNumber got => got.map ("Color weight must be a number, got " ++ ·)
  | weightRange got => some ("Color weight must be between 0.0 and 1.0, got " ++ got)
  | weightSum => some "Summed color weights exceed 1.0"
  | divisionByZero kind => some (kind ++ " division by zero")
  | notTextItem got => got.map ("Not a text item: " ++ ·)
  | notCellContent got => got.map ("Table cells hold text, a table or an image, got " ++ ·)
  | notCell got => got.map ("Table rows hold cells, got " ++ ·)
  | notRow got => got.map ("Tables hold rows, got " ++ ·)
  | notTable got => got.map ("Expected a table, got " ++ ·)
  | notLabelContent got => got.map ("HTML labels hold text or a table, got " ++ ·)
  | unsupported name =>
    some ("Attribute '" ++ name ++ "' is not supported in this context")
  | wrongKind name kinds got =>
    some ("Attribute " ++ name ++ " expects a value of type " ++ kinds ++ ", got " ++ got)
  | belowLow name bound got =>
    some ("Attribute " ++ name ++ " must be at least " ++ bound ++ ", got " ++ got)
  | aboveHigh name bound got =>
    some ("Attribute " ++ name ++ " must be at most " ++ bound ++ ", got " ++ got)
  | notAllowed value name => some (value ++ " not allowed as " ++ name)
  | unreadable s kinds name =>
    some ("Cannot read " ++ s ++ " as " ++ kinds ++ " for attribute " ++ name)
  | notName typeName => some ("Names must be an Id, Int, Double or String, got " ++ typeName)
  | duplicateNode key graph => some ("Node " ++ key ++ " already exists in graph " ++ graph)
  | duplicateGraph key => some ("Graph " ++ key ++ " already exists")
  | notNestable kind => some (kind ++ " cannot be nested in a graph")
  | selfNesting => some "A graph cannot contain itself"
  | unknownAttribute s => some ("Unknown attribute: " ++ s)
  | notMapping what => some (what ++ " must be a mapping")
  | invalidName s => some ("Invalid name: " ++ s)
  | edgesNotList => some "edges must be a list"
  | edgeWithoutEnds s => some ("Edges need a tail and a head: " ++ s)
  | subgraphsNotList => some "subgraphs must be a list"
  | subgraphWithoutName => some "Subgraphs need a name"
  | descriptionNotMapping => some "Graph description must be a mapping"
  | descriptionWithoutName => some "Graph description needs a name"
  | unknownGraphKind s => some ("Unknown graph kind: " ++ s)
  | invalidYaml => some "Invalid YAML"
  | indent got => got.map ("indent must be a non-negative integer, got " ++ ·)
  | noConfig path => some ("No config found at " ++ path)
  | notColorText s => some ("Not a color: " ++ s)
  | unknownMember | invalidJson | pathIsDirectory | pathIsFile | pathBelowFile | unreadableText
  | tooLarge | wrongOperand | noSuchPart | missingKey | missingIndex => none

end Fault

/-! ### Changes of a state -/

/-- A computation that changes a state.  It keeps its changes also when it fails. -/
abbrev Changing (σ : Type) := ExceptT Fault (StateM σ)

namespace Changing

variable {σ τ α : Type}

/-- The result of a computation, and the state that it leaves. -/
def runOn (x : Changing σ α) (s : σ) : Except Fault α × σ := x.run.run s

/-- An operation that answers with its result and with the state that it leaves. -/
def of (f : σ → Except Fault α × σ) : Changing σ α := ExceptT.mk f

/-- Runs a computation on a part of the state. -/
def within (view : σ → τ) (put : σ → τ → σ) (x : Changing τ α) : Changing σ α :=
  of fun s =>
    let (result, t) := x.runOn (view s)
    (result, put s t)

end Changing

/-- The state that an operation leaves, if it succeeds. -/
def leaving {σ : Type} : Except Fault Unit × σ → Except Fault σ
  | (.ok _, s) => .ok s
  | (.error f, _) => .error f

end DotWriter
