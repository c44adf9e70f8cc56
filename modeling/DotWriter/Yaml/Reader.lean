import DotWriter.Yaml.Scalar
import DotWriter.Yaml.Token

/-!
# Reading YAML

`readYaml` reads a text that holds one document as raw data.

* `Tree` is a document before its scalars have a meaning; an alias is the tree of its anchor;
* `document?` reads a tree from tokens, and `Tree.raw` turns it into data.  Only scalars are keys of
  mappings, and the last value of a repeated key counts.
-/

namespace DotWriter

namespace Yaml

/-- A document whose scalars have no meaning yet. -/
inductive Tree
  | scalar (plain : Bool) (text : List Char)
  | list (items : List Tree)
  | map (entries : List (Tree × Tree))

/-- A scalar that is not written. -/
def Tree.nothing : Tree := .scalar true []

/-- What is left of the tokens, and the trees of the anchors; that of one which is still being read
is missing. -/
structure Unread where
  tokens : List Token
  anchors : List (List Char × Option Tree)

/-- A computation that takes tokens. -/
abbrev Reading := StateT Unread Option

namespace Reading

/-- The next token. -/
def peek : Reading (Option Token) := do return (← get).tokens.head?

/-- Takes one token. -/
def skip : Reading Unit := modify fun s => { s with tokens := s.tokens.tail }

/-- Takes the given token. -/
def expect (t : Token) : Reading Unit := do
  if (← peek) = some t then skip else failure

/-- Takes the given token if it is the next one. -/
def take (t : Token) : Reading Bool := do
  if (← peek) = some t then
    skip
    return true
  else return false

/-- Whether the next token is one of those given. -/
def isNext (ts : List Token) : Reading Bool := do return (← peek).any ts.contains

/-- The tree of an anchor. -/
def anchored (name : List Char) : Reading Tree := do
  match (← get).anchors.lookup name with
  | some (some tree) => return tree
  | _ => failure

/-- Opens an anchor, which must be a new one. -/
def openAnchor (name : List Char) : Reading Unit := do
  let s ← get
  if (s.anchors.lookup name).isSome then failure
  set { s with anchors := (name, none) :: s.anchors }

/-- Gives an anchor its tree. -/
def setAnchor (name : List Char) (tree : Tree) : Reading Unit :=
  modify fun s => { s with anchors := (name, some tree) :: s.anchors }

end Reading

open Reading

mutual

/-- Reads an alias, or content that may carry an anchor.  The number bounds the depth of
recursion, also below. -/
def tree (block bare : Bool) : Nat → Reading Tree
  | 0 => failure
  | fuel + 1 => do
    match ← peek with
    | some (.alias name) => do
      skip
      anchored name
    | some (.anchor name) => do
      skip
      openAnchor name
      let content ← content block bare true fuel
      setAnchor name content
      return content
    | _ => content block bare false fuel

/-- Reads a scalar or a collection.  After an anchor there may be nothing. -/
def content (block bare optional : Bool) : Nat → Reading Tree
  | 0 => failure
  | fuel + 1 => do
    match ← peek with
    | some (.scalar plain text) => do
      skip
      return .scalar plain text
    | some .flowListStart => do
      skip
      return .list (← flowItems true fuel)
    | some .flowMapStart => do
      skip
      return .map (← flowEntries true fuel)
    | some .item => do
      if bare then return .list (← bareItems fuel)
      else if optional then return .nothing
      else failure
    | some .listStart => do
      if block then do
        skip
        return .list (← blockItems fuel)
      else failure
    | some .mapStart => do
      if block then do
        skip
        return .map (← blockEntries fuel)
      else failure
    | _ => if optional then return .nothing else failure

/-- Reads a tree unless one of the given tokens comes first. -/
def treeUnless (ends : List Token) (block bare : Bool) : Nat → Reading Tree
  | 0 => failure
  | fuel + 1 => do
    if ← isNext ends then return .nothing else tree block bare fuel

/-- Reads the items of a list in block style up to its end. -/
def blockItems : Nat → Reading (List Tree)
  | 0 => failure
  | fuel + 1 => do
    if ← take .item then do
      let item ← treeUnless [.item, .blockEnd] true false fuel
      return item :: (← blockItems fuel)
    else do
      expect .blockEnd
      return []

/-- Reads the items of a list in block style that is not indented. -/
def bareItems : Nat → Reading (List Tree)
  | 0 => failure
  | fuel + 1 => do
    if ← take .item then do
      let item ← treeUnless [.item, .key, .value, .blockEnd] true false fuel
      return item :: (← bareItems fuel)
    else return []

/-- Reads the value of an entry, which may be missing. -/
def entryValue (ends : List Token) (block : Bool) : Nat → Reading Tree
  | 0 => failure
  | fuel + 1 => do
    if ← take .value then treeUnless ends block block fuel else return .nothing

/-- Reads the entries of a mapping in block style up to its end. -/
def blockEntries : Nat → Reading (List (Tree × Tree))
  | 0 => failure
  | fuel + 1 => do
    if ← take .key then do
      let ends := [.key, .value, .blockEnd]
      let key ← treeUnless ends true true fuel
      let value ← entryValue ends true fuel
      return (key, value) :: (← blockEntries fuel)
    else do
      expect .blockEnd
      return []

/-- Reads the items of a list in flow style up to its end.  A key and a value are a mapping with one
entry. -/
def flowItems (first : Bool) : Nat → Reading (List Tree)
  | 0 => failure
  | fuel + 1 => do
    if ← take .flowListEnd then return []
    else do
      if !first then expect .comma
      if ← take .flowListEnd then return []
      else if ← take .key then do
        let ends := [.comma, .flowListEnd]
        let key ← treeUnless (.value :: ends) false false fuel
        let value ← entryValue ends false fuel
        return .map [(key, value)] :: (← flowItems false fuel)
      else do
        let item ← tree false false fuel
        return item :: (← flowItems false fuel)

/-- Reads the entries of a mapping in flow style up to its end.  Keys without values stand for
themselves. -/
def flowEntries (first : Bool) : Nat → Reading (List (Tree × Tree))
  | 0 => failure
  | fuel + 1 => do
    if ← take .flowMapEnd then return []
    else do
      if !first then expect .comma
      if ← take .flowMapEnd then return []
      else if ← take .key then do
        let ends := [.comma, .flowMapEnd]
        let key ← treeUnless (.value :: ends) false false fuel
        let value ← entryValue ends false fuel
        return (key, value) :: (← flowEntries false fuel)
      else do
        let key ← tree false false fuel
        return (key, .nothing) :: (← flowEntries false fuel)

end

/-- Reads a document, after its mark if it has one. -/
def document (fuel : Nat) : Reading Tree := do
  if ← take .documentStart then
    match ← peek with
    | none | some .documentStart | some .documentEnd => return .nothing
    | _ => tree true false fuel
  else tree true false fuel

/-- The tree of the one document that tokens hold; without tokens it is nothing at all. -/
def document? (tokens : List Token) : Option Tree :=
  if tokens.isEmpty then some .nothing
  else do
    let (t, rest) ← (document (4 * tokens.length + 4)).run ⟨tokens, []⟩
    if rest.tokens.all (· = .documentEnd) then some t else none

/-- Whether a datum can be a key of a mapping. -/
def isKey : Raw → Bool
  | .list _ | .map _ => false
  | _ => true

mutual

/-- The data of a tree. -/
def Tree.raw : Tree → Except Fault Raw
  | .scalar plain text => if plain then plainRaw text else .ok (.text (String.ofList text))
  | .list items => .list <$> rawItems items
  | .map entries => .map <$> rawEntries [] entries

/-- The data of trees in order. -/
def rawItems : List Tree → Except Fault (List Raw)
  | [] => .ok []
  | t :: ts => do
    let r ← t.raw
    return r :: (← rawItems ts)

/-- The entries of a mapping, after those before. -/
def rawEntries (before : List (Raw × Raw)) : List (Tree × Tree) → Except Fault (List (Raw × Raw))
  | [] => .ok before
  | (k, v) :: rest => do
    let key ← k.raw
    if !isKey key then .error .invalidYaml
    let value ← v.raw
    rawEntries (Raw.setEntry before key value) rest

end

end Yaml

/-- Reads a text with one document. -/
def readYaml (s : String) : Except Fault Raw :=
  match (Yaml.tokens? s.toList).bind Yaml.document? with
  | some t => t.raw
  | none => .error .invalidYaml

end DotWriter
