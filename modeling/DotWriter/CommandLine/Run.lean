import DotWriter.CommandLine.Arguments
import DotWriter.CommandLine.Path
import DotWriter.Config
import DotWriter.Description

/-!
# Running a command

`run` is what the program does for its arguments: what it writes, and its exit code.  What it finds
at a path is given by a function, and a file to be written is part of the answer.

* exit code 0 is success, 1 a fault, and 2 a usage error;
* faults of the input are reported, and all others break the program off.
-/

namespace DotWriter

/-- What a run of the program leaves behind. -/
structure Outcome where
  exit : Nat
  /-- Standard output. -/
  output : String
  /-- Standard error. -/
  log : String
  /-- The fault that broke the program off. -/
  broken : Option Fault
  /-- A file to be written, with the directories that it needs. -/
  written : Option (Path × String)

namespace Outcome

/-- Success. -/
def done (output : String) : Outcome := ⟨0, output, "", none, none⟩

/-- How the program is used. -/
def usage : String := String.intercalate "\n" [
  "Usage: dotgen [--verbose] [--version] COMMAND",
  "",
  "Commands:",
  "  attributes KIND",
  "  build FILE [--out FILE] [--config FILE]",
  "  color NAME",
  "  hsv HUE SATURATION VALUE",
  ""]

/-- The arguments cannot be read. -/
def usageError : Outcome := ⟨2, "", usage, none, none⟩

/-- A fault: it is reported, or it breaks the program off. -/
def failed (log : String) (f : Fault) : Outcome :=
  if f.isReported then ⟨1, "", log ++ "Error: " ++ f.message?.getD "" ++ "\n", none, none⟩
  else ⟨1, "", log, some f, none⟩

/-- A text on a line, or a fault. -/
def ofResult (r : Except Fault String) : Outcome :=
  match r with
  | .ok s => done (s ++ "\n")
  | .error f => failed "" f

end Outcome

/-- A bound in a listing. -/
def Number.listed : Number → String
  | .int n => toString n
  | .float (.finite x) => Layout.general.double x
  | .float x => x.text

/-- The bounds of a specification in a listing. -/
def Spec.listedBounds (s : Spec) : String :=
  if s.low.isSome || s.high.isSome then
    let shown (bound : Option Number) := (bound.map Number.listed).getD ""
    " [" ++ shown s.low ++ ".." ++ shown s.high ++ "]"
  else ""

/-- An attribute in a listing. -/
def DotAttribute.listed (a : DotAttribute) : String :=
  a.name ++ ": " ++ a.spec.kindNames ++ a.spec.listedBounds ++ "\n"

namespace Build

/-- Reads the configuration at a path. -/
def config (look : String → Entry) (path : Path) : Except Fault RenderConfig :=
  match look path.text with
  | .missing => .error (.noConfig path.text)
  | .directory => .error .pathIsDirectory
  | .file text => RenderConfig.load text

/-- A line of the report on a description that is about to be read. -/
def loading (path : Path) : String :=
  "INFO dotgen.loader: Loading graph description from " ++ path.text ++ "\n"

/-- A line of the report on a graph that has been built. -/
def loaded (g : Graph) : String :=
  let b := g.block
  "DEBUG dotgen.loader: Loaded " ++ b.kind.name ++ " " ++ b.displayName ++ ": " ++
    toString b.nodes.length ++ " nodes, " ++ toString b.edges.length ++ " edges, " ++
    toString g.subgraphs.length ++ " subgraphs\n"

/-- A line of the report on a document that has been written. -/
def wrote (path : Path) : String := "INFO dotgen.cli: Wrote " ++ path.text ++ "\n"

/-- Writes a document to a file. -/
def save (look : String → Entry) (path : Path) (document log report : String) : Outcome :=
  match path.requireParent look, look path.text with
  | .error f, _ => .failed log f
  | .ok _, .directory => .failed log .pathIsDirectory
  | .ok _, _ => ⟨0, "Wrote " ++ path.text ++ "\n", log ++ report, none, some (path, document)⟩

/-- Builds the document of a description. -/
def document (look : String → Entry) (verbose : Bool) (description : String) (file : Path)
    (out configPath : Option Path) : Outcome :=
  let report (line : String) := if verbose then line else ""
  match configPath.elim (.ok RenderConfig.standard) (config look) with
  | .error f => .failed "" f
  | .ok config =>
    match Graph.ofText description with
    | .error f => .failed (report (loading file)) f
    | .ok g =>
      let log := report (loading file) ++ report (loaded g)
      match out with
      | none => { Outcome.done (g.render config) with log := log }
      | some path => save look path (g.render config) log (report (wrote path))

/-- Runs the command: the file must be there, and the output must not be a directory. -/
def run (look : String → Entry) (verbose : Bool) (file : String) (out configPath : Option String) :
    Outcome :=
  match look file, out.map look with
  | .file _, some .directory => .usageError
  | .file text, _ =>
    document look verbose text (Path.of file) (out.map Path.of) (configPath.map Path.of)
  | _, _ => .usageError

end Build

namespace Command

/-- The version of the program. -/
def versionText : String := "dotgen, version 0.1.0\n"

/-- Runs a command. -/
def run (look : String → Entry) (verbose : Bool) : Command → Outcome
  | version => .done versionText
  | help => .done Outcome.usage
  | attributes legal => .done (String.join (legal.map DotAttribute.listed))
  | color name => .ofResult do return (← ColorName.of name).rgb.render
  | hsv hue saturation value => .ofResult do
      return (← (← Hsv.of (.float hue) (.float saturation) (.float value)).rgb).render
  | build file out config => Build.run look verbose file out config

/-- The paths at which a command looks. -/
def paths : Command → List String
  | build file out config =>
    let shown (s : String) : List String := [s, (Path.of s).text]
    shown file ++ (config.map shown).getD [] ++
      (out.map fun s => shown s ++ (Path.of s).ancestors.map Path.text).getD []
  | _ => []

end Command

/-- Runs the program. -/
def run (look : String → Entry) (args : List String) : Outcome :=
  match Invocation.of? args with
  | some i => i.command.run look i.verbose
  | none => .usageError

end DotWriter
