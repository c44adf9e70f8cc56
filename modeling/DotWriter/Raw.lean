import DotWriter.Double.Text
import DotWriter.Text.Printable

/-!
# Raw data

`Raw` is what a description or configuration holds before any of it has a meaning: scalars, lists
and mappings with their entries in order.

* `Raw.literal` shows a datum in messages, `Raw.plain` is its text where a text is wanted;
* `Raw.isTruthy` decides flags;
* `Raw.sameKey` and `Raw.equals` compare data;
* `Raw.get?` looks up an entry, and `Raw.setEntry` adds one or replaces its value.
-/

namespace DotWriter

/-- Untyped data. -/
inductive Raw
  | null
  | bool (b : Bool)
  | int (n : Int)
  | float (x : Binary64)
  | text (s : String)
  | list (items : List Raw)
  | map (entries : List (Raw × Raw))

/-- The name of a truth value in messages. -/
def boolLiteral (b : Bool) : String := if b then "True" else "False"

/-- Shows a sequence of items. -/
def listLiteral (items : List String) : String := "[" ++ String.intercalate ", " items ++ "]"

/-- Shows a mapping. -/
def mapLiteral (entries : List (String × String)) : String :=
  "\x7b" ++ String.intercalate ", " (entries.map fun (k, v) => k ++ ": " ++ v) ++ "\x7d"

namespace Raw

mutual

/-- The datum as messages show it. -/
def literal : Raw → String
  | null => "None"
  | bool b => boolLiteral b
  | int n => toString n
  | float x => x.text
  | text s => textLiteral s
  | list items => listLiteral (literals items)
  | map entries => mapLiteral (entryLiterals entries)

/-- The items of a list as messages show them. -/
def literals : List Raw → List String
  | [] => []
  | x :: xs => x.literal :: literals xs

/-- The entries of a mapping as messages show them. -/
def entryLiterals : List (Raw × Raw) → List (String × String)
  | [] => []
  | (k, v) :: rest => (k.literal, v.literal) :: entryLiterals rest

end

/-- The datum as a text: a text is itself, everything else as messages show it. -/
def plain : Raw → String
  | text s => s
  | r => r.literal

/-- The name of the type of the datum in messages. -/
def typeName : Raw → String
  | null => "NoneType"
  | bool _ => "bool"
  | int _ => "int"
  | float _ => "float"
  | text _ => "str"
  | list _ => "list"
  | map _ => "dict"

/-- Everything counts as true but nothing at all, zero and what is empty. -/
def isTruthy : Raw → Bool
  | null => false
  | bool b => b
  | int n => n ≠ 0
  | float (.finite x) => x.index.val ≠ 0
  | float _ => true
  | text s => s ≠ ""
  | list items => !items.isEmpty
  | map entries => !entries.isEmpty

/-- The exact value of a truth value or a finite number. -/
def numeric? : Raw → Option Rat
  | bool b => some (if b then 1 else 0)
  | int n => some n
  | float (.finite x) => some x.toRat
  | _ => none

/-- Whether two scalars are one key of a mapping.  Numbers and truth values are compared by value;
a number that is none is never found again. -/
def sameKey : Raw → Raw → Bool
  | null, null => true
  | text s, text t => s == t
  | float (.infinite s), float (.infinite t) => s == t
  | a, b =>
    match a.numeric?, b.numeric? with
    | some x, some y => x == y
    | _, _ => false

mutual

/-- Whether two data are equal: numbers by value, lists item by item, mappings key by key in any
order. -/
def equals : Raw → Raw → Bool
  | .list xs, .list ys => listEquals xs ys
  | .map xs, .map ys => xs.length == ys.length && entriesIn xs ys
  | x, y => x.sameKey y

/-- Whether two lists are equal item by item. -/
def listEquals : List Raw → List Raw → Bool
  | [], [] => true
  | x :: xs, y :: ys => x.equals y && listEquals xs ys
  | _, _ => false

/-- Whether all entries have equals in another mapping. -/
def entriesIn : List (Raw × Raw) → List (Raw × Raw) → Bool
  | [], _ => true
  | (k, v) :: rest, ys =>
    (match ys.find? fun e => e.1.sameKey k with
      | some e => v.equals e.2
      | none => false) && entriesIn rest ys

end

/-- The value of the entry with the given text as its key. -/
def get? (entries : List (Raw × Raw)) (key : String) : Option Raw :=
  (entries.find? fun e => match e.1 with
    | text s => s == key
    | _ => false).map (·.2)

/-- Adds an entry at the end.  If the key is there already, its value is replaced in place. -/
def setEntry (entries : List (Raw × Raw)) (key value : Raw) : List (Raw × Raw) :=
  if entries.any fun e => e.1.sameKey key then
    entries.map fun e => if e.1.sameKey key then (e.1, value) else e
  else entries ++ [(key, value)]

end Raw

end DotWriter
