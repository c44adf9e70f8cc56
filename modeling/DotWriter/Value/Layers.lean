import DotWriter.Fault
import DotWriter.Raw

/-!
# Layers

`LayerList` names the layers of a drawing, `LayerRange` selects some of them.  The names come from
raw data: a name must not be empty or hold a separator, but it may be a list or a mapping, and
then it is only refused when it is written.
-/

namespace DotWriter

/-- The characters that separate layer names. -/
def isLayerSeparator (c : Char) : Bool := c = ' ' || c = ':' || c = '\t' || c = ','

/-- Whether a part of a layer name is a separator. -/
def checkLayerParts (name : Raw) : List Raw → Except Fault Unit
  | [] => .ok ()
  | .list _ :: _ | .map _ :: _ => .error .wrongOperand
  | .text s :: rest =>
    if s.toList.length = 1 ∧ s.toList.all isLayerSeparator then
      .error (.layerName name.literal)
    else checkLayerParts name rest
  | _ :: rest => checkLayerParts name rest

/-- Checks a layer name: it is not empty and no part of it is a separator. -/
def checkLayerName (name : Raw) : Except Fault Unit :=
  if !name.isTruthy then .error (.layerName name.literal)
  else match name with
    | .text s => if s.toList.any isLayerSeparator then .error (.layerName name.literal) else .ok ()
    | .list parts => checkLayerParts name parts
    | .map entries => checkLayerParts name (entries.map (·.1))
    | _ => .error .wrongOperand

/-- The parts of a sequence: the items of a list, the characters of a text, the keys of a
mapping. -/
def parts? : Raw → Option (List Raw)
  | .list items => some items
  | .text s => some (s.toList.map fun c => .text (String.singleton c))
  | .map entries => some (entries.map (·.1))
  | _ => none

/-- Names of layers. -/
structure LayerList where
  names : List Raw

namespace LayerList

/-- Checks the names. -/
def of (names : List Raw) : Except Fault LayerList := do
  if names.isEmpty then .error (.noLayers "LayerList")
  names.forM checkLayerName
  return ⟨names⟩

/-- The text of a name, if it is one. -/
def nameText : Raw → Except Fault String
  | .text s => .ok s
  | _ => .error .wrongOperand

/-- The names with colons between them. -/
def render (l : LayerList) : Except Fault String := do
  return String.intercalate ":" (← l.names.mapM nameText)

end LayerList

/-- Single layers and ranges of layers. -/
structure LayerRange where
  items : List Raw

namespace LayerRange

/-- Checks one item: a name or the names of a range. -/
def checkItem (item : Raw) : Except Fault Unit :=
  match item with
  | .text _ => checkLayerName item
  | _ =>
    match parts? item with
    | some names => names.forM checkLayerName
    | none => .error .wrongOperand

/-- Checks the items. -/
def of (items : List Raw) : Except Fault LayerRange := do
  if items.isEmpty then .error (.noLayers "LayerRange")
  items.forM checkItem
  return ⟨items⟩

/-- A name as it is; a range by its first two names with a colon between them. -/
def renderItem : Raw → Except Fault String
  | .text s => .ok s
  | .list (first :: last :: _) => .ok (first.plain ++ ":" ++ last.plain)
  | .list _ => .error .missingIndex
  | _ => .error .missingKey

/-- The items with commas between them. -/
def render (l : LayerRange) : Except Fault String := do
  return String.intercalate "," (← l.items.mapM renderItem)

end LayerRange

/-- A sequence that cannot be changed, as messages show it. -/
def tupleLiteral : List String → String
  | [item] => "(" ++ item ++ ",)"
  | items => "(" ++ String.intercalate ", " items ++ ")"

/-- A list of layers as messages show it. -/
def LayerList.literal (l : LayerList) : String :=
  "LayerList(names=" ++ tupleLiteral (l.names.map Raw.literal) ++ ")"

/-- A selection of layers as messages show it. -/
def LayerRange.literal (l : LayerRange) : String :=
  "LayerRange(items=" ++ tupleLiteral (l.items.map Raw.literal) ++ ")"

end DotWriter
