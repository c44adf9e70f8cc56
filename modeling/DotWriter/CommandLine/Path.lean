import DotWriter.Fault

/-!
# Paths

A `Path` is a path as it is shown: without repeated slashes, without parts that mean the directory
itself, and without a slash at the end.

* `Path.of` takes a path from an argument, and `Path.text` shows it;
* `Path.requireParent` checks that a file can be written at a path once the directories that are
  missing above it are made.
-/

namespace DotWriter

/-- What is found at a path. -/
inductive Entry
  | missing
  | directory
  | file (text : String)

/-- A path. -/
structure Path where
  /-- The slashes in front of an absolute path. -/
  root : String
  parts : List String

namespace Path

/-- The slashes that a path begins with; more than two are one. -/
def rootOf (cs : List Char) : String :=
  match (cs.takeWhile (· == '/')).length with
  | 0 => ""
  | 2 => "//"
  | _ => "/"

/-- The path that an argument gives. -/
def of (s : String) : Path :=
  ⟨rootOf s.toList,
    ((s.toList.splitOn '/').filter fun p => p != [] && p != ['.']).map String.ofList⟩

/-- A path as it is shown. -/
def text (p : Path) : String :=
  let shown := p.root ++ String.intercalate "/" p.parts
  if shown = "" then "." else shown

/-- The path of the directory that holds it. -/
def parent (p : Path) : Path := { p with parts := p.parts.dropLast }

/-- The paths of all directories above it, the nearest first. -/
def ancestors (p : Path) : List Path :=
  (List.range p.parts.length).map fun n => { p with parts := p.parts.take (p.parts.length - 1 - n) }

/-- Checks that missing directories can be made in the nearest one that is there. -/
def requireRoom (look : String → Entry) : List Path → Except Fault Unit
  | [] => .ok ()
  | p :: above =>
    match look p.text with
    | .directory => .ok ()
    | .file _ => .error .pathBelowFile
    | .missing => requireRoom look above

/-- Checks that the directory of a file is there or can be made. -/
def requireParent (look : String → Entry) (p : Path) : Except Fault Unit :=
  match look p.parent.text with
  | .file _ => .error .pathIsFile
  | _ => requireRoom look p.ancestors

end Path

end DotWriter
