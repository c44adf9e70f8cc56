import DotWriter.Attribute.Legal
import DotWriter.Text.Numeral

/-!
# Arguments of the command line

`Invocation.of?` reads the arguments: options of the program, the name of a command, and the
arguments and options of the command.  Arguments that cannot be read are a usage error.
-/

namespace DotWriter

/-- The commands. -/
inductive Command
  /-- Shows the version. -/
  | version
  /-- Shows how the program is used. -/
  | help
  /-- Lists the attributes that a kind of entity may carry. -/
  | attributes (legal : List DotAttribute)
  /-- Shows a color by its channels. -/
  | color (name : String)
  /-- Shows a color given by hue, saturation and value. -/
  | hsv (hue saturation value : Binary64)
  /-- Builds a document from the description in a file. -/
  | build (file : String) (out config : Option String)

/-- A command, and whether to report on its progress. -/
structure Invocation where
  verbose : Bool
  command : Command

namespace Command

/-- Whether an argument is an option. -/
def isOption (arg : String) : Bool := arg.startsWith "-" && arg != "-"

/-- The arguments of a command. -/
structure Given where
  positional : List String
  options : List (String × String)
  help : Bool

/-- Reads the arguments of a command with the given options, each of which takes a value.  Two
hyphens end the options. -/
def given? (known : List String) : List String → Option Given
  | [] => some ⟨[], [], false⟩
  | "--" :: rest => some ⟨rest, [], false⟩
  | "--help" :: rest => do
    let g ← given? known rest
    return { g with help := true }
  | arg :: rest =>
    if !isOption arg then do
      let g ← given? known rest
      return { g with positional := arg :: g.positional }
    else match cutFirst '=' arg.toList, rest with
      | some (name, value), rest => do
        if !known.contains (String.ofList name) then none
        let g ← given? known rest
        return { g with options := (String.ofList name, String.ofList value) :: g.options }
      | none, value :: rest => do
        if !known.contains arg then none
        let g ← given? known rest
        return { g with options := (arg, value) :: g.options }
      | none, [] => none

/-- The value that an option is given last. -/
def Given.option? (g : Given) (name : String) : Option String := g.options.reverse.lookup name

/-- The entities whose attributes are listed. -/
def entities : List (String × List DotAttribute) := [
  ("cluster", clusterAttributes), ("edge", edgeAttributes), ("graph", graphAttributes),
  ("node", nodeAttributes), ("subgraph", subgraphAttributes)]

/-- The command with the given name and arguments. -/
def of? (name : String) (args : List String) : Option Command := do
  match name with
  | "attributes" =>
    let g ← given? [] args
    if g.help then return .help
    match g.positional with
    | [entity] => return .attributes (← entities.lookup entity)
    | _ => none
  | "color" =>
    let g ← given? [] args
    if g.help then return .help
    match g.positional with
    | [name] => return .color name
    | _ => none
  | "hsv" =>
    let g ← given? [] args
    if g.help then return .help
    match g.positional with
    | [hue, saturation, value] =>
      return .hsv (← readDouble? hue.toList) (← readDouble? saturation.toList)
        (← readDouble? value.toList)
    | _ => none
  | "build" =>
    let g ← given? ["--out", "--config"] args
    if g.help then return .help
    match g.positional with
    | [file] => return .build file (g.option? "--out") (g.option? "--config")
    | _ => none
  | _ => none

end Command

namespace Invocation

/-- Reads the options of the program up to the name of a command; the first one that shows
something is the command. -/
def options? (verbose : Bool) (shown : Option Command) :
    List String → Option (Bool × Option Command × List String)
  | [] => some (verbose, shown, [])
  | "--" :: rest => some (verbose, shown, rest)
  | "--verbose" :: rest => options? true shown rest
  | "--version" :: rest => options? verbose (shown.or (some .version)) rest
  | "--help" :: rest => options? verbose (shown.or (some .help)) rest
  | arg :: rest => if Command.isOption arg then none else some (verbose, shown, arg :: rest)

/-- Reads the arguments of the program. -/
def of? (args : List String) : Option Invocation := do
  match ← options? false none args with
  | (verbose, some shown, _) => return ⟨verbose, shown⟩
  | (verbose, none, name :: rest) => return ⟨verbose, ← Command.of? name rest⟩
  | (_, none, []) => none

end Invocation

end DotWriter
