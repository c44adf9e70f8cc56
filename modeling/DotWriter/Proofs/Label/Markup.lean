import DotWriter.Proofs.Label.Reference
import DotWriter.Proofs.Machine

/-!
# Reading labels

`Markup` is the content of a label as a reader of tags sees it, and `readMarkup` is such a reader:
it knows tags that stand alone, tags with content, attributes between double quotes, and text with
character references.

* `Markup.join` : strings that stand next to each other are one string, and empty ones are not seen;
* `MarkupReader.step` : the reader takes one character at a time and keeps the tags that are open.
-/

namespace DotWriter

/-- What a reader of tags sees. -/
inductive Markup
  | chars (text : String)
  /-- A tag that stands alone. -/
  | void (name : String) (attributes : List (String × String))
  | element (name : String) (attributes : List (String × String)) (content : List Markup)

namespace Markup

/-- A string, unless it is empty. -/
def ofRun (run : String) : List Markup := if run = "" then [] else [chars run]

/-- Puts the strings that stand next to each other together, the first ones with what has been seen
of them. -/
def joinFrom (run : String) : List Markup → List Markup
  | [] => ofRun run
  | chars s :: rest => joinFrom (run ++ s) rest
  | m :: rest => ofRun run ++ m :: joinFrom "" rest

/-- Puts the strings that stand next to each other together. -/
def join (parts : List Markup) : List Markup := joinFrom "" parts

end Markup

/-- The beginning of a tag: its name and the attributes that have been read. -/
structure TagHead where
  name : List Char
  attributes : List (String × String)

/-- A tag that is open, with what stands before it. -/
structure OpenTag where
  head : TagHead
  before : List Markup

/-- What a reader of tags expects. -/
inductive MarkupMode
  /-- Text; the characters of it that have been read. -/
  | text (run : List Char)
  /-- The name of a tag, or the slash of a closing one. -/
  | opened
  /-- More of the name of a tag, as far as `naming` says so, an attribute, or the end of the tag. -/
  | head (naming : Bool) (h : TagHead)
  /-- More of the name of an attribute. -/
  | attribute (h : TagHead) (name : List Char)
  /-- The quote before the value of an attribute. -/
  | quote (h : TagHead) (name : List Char)
  /-- More of the value of an attribute. -/
  | value (h : TagHead) (name run : List Char)
  /-- The end of a tag that stands alone. -/
  | slash (h : TagHead)
  /-- More of the name of a closing tag. -/
  | closing (name : List Char)

/-- A reader of tags: the tags that are open, innermost first, what has been read inside the first
of them, and what is expected. -/
structure MarkupReader where
  tags : List OpenTag
  seen : List Markup
  mode : MarkupMode

/-- Whether names of tags and attributes are written with the character. -/
def isTagNameChar (c : Char) : Bool := c.isAlphanum || c == '-'

namespace MarkupReader

/-- The reader before the first character. -/
def start : MarkupReader := ⟨[], [], .text []⟩

/-- Opens the tag with the given head. -/
def openTag (r : MarkupReader) (h : TagHead) : MarkupReader :=
  ⟨⟨h, r.seen⟩ :: r.tags, [], .text []⟩

/-- Closes the innermost open tag, which must have the given name. -/
def closeTag? (r : MarkupReader) (name : List Char) : Option MarkupReader :=
  match r.tags with
  | [] => none
  | t :: tags =>
    if t.head.name = name then
      some ⟨tags, t.before ++ [.element (String.ofList name) t.head.attributes r.seen], .text []⟩
    else none

/-- Takes the strings that have been read to what has been seen. -/
def endText? (r : MarkupReader) (run : List Char) : Option (List Markup) := do
  return r.seen ++ Markup.ofRun (String.ofList (← decodeReferences run))

/-- Reads one character. -/
def step (r : MarkupReader) (c : Char) : Option MarkupReader :=
  match r.mode with
  | .text run =>
    if c = '<' then do return { r with seen := ← r.endText? run, mode := .opened }
    else if c = '>' then none
    else some { r with mode := .text (run ++ [c]) }
  | .opened =>
    if c = '/' then some { r with mode := .closing [] }
    else if isTagNameChar c then some { r with mode := .head true ⟨[c], []⟩ }
    else none
  | .head naming h =>
    if c = ' ' then some { r with mode := .attribute h [] }
    else if c = '/' then some { r with mode := .slash h }
    else if c = '>' then some (r.openTag h)
    else if naming && isTagNameChar c then
      some { r with mode := .head true { h with name := h.name ++ [c] } }
    else none
  | .attribute h name =>
    if c = '=' then some { r with mode := .quote h name }
    else if isTagNameChar c then some { r with mode := .attribute h (name ++ [c]) }
    else none
  | .quote h name => if c = '"' then some { r with mode := .value h name [] } else none
  | .value h name run =>
    if c = '"' then do
      let value := (String.ofList name, String.ofList (← decodeReferences run))
      return { r with mode := .head false { h with attributes := h.attributes ++ [value] } }
    else some { r with mode := .value h name (run ++ [c]) }
  | .slash h =>
    if c = '>' then
      some { r with
        seen := r.seen ++ [.void (String.ofList h.name) h.attributes], mode := .text [] }
    else none
  | .closing name =>
    if c = '>' then r.closeTag? name
    else if isTagNameChar c then some { r with mode := .closing (name ++ [c]) }
    else none

/-- What has been read, if no tag is open. -/
def finish? (r : MarkupReader) : Option (List Markup) :=
  match r.tags, r.mode with
  | [], .text run => r.endText? run
  | _, _ => none

end MarkupReader

/-- Reads the content of a label. -/
def readMarkup (content : String) : Option (List Markup) := do
  (← content.toList.foldlM MarkupReader.step MarkupReader.start).finish?

end DotWriter
