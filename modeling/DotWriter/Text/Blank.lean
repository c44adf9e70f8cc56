/-!
# White space

* `isBlank` is the Unicode property White_Space together with the four information separators;
* `strip` takes blanks off both ends, `words` splits at runs of blanks, and `isNumeralBlank` are
  the blanks that may stand around a numeral;
* `cutFirst` and `cutLast` split once at a separator, `lower` folds letters for look-up by name.
-/

namespace DotWriter

/-- The blank characters: Unicode white space and the information separators `U+001C` to
`U+001F`. -/
def isBlank (c : Char) : Bool :=
  let n := c.toNat
  (9 ≤ n && n ≤ 13) || (28 ≤ n && n ≤ 32) || n == 0x85 || n == 0xA0 || n == 0x1680 ||
    (0x2000 ≤ n && n ≤ 0x200A) || n == 0x2028 || n == 0x2029 || n == 0x202F || n == 0x205F ||
    n == 0x3000

/-- The blanks that may stand around a numeral: all but the information separators. -/
def isNumeralBlank (c : Char) : Bool := isBlank c && !(28 ≤ c.toNat && c.toNat ≤ 31)

/-- Takes the characters for which `drop` holds off both ends. -/
def trim (drop : Char → Bool) (cs : List Char) : List Char :=
  ((cs.dropWhile drop).reverse.dropWhile drop).reverse

/-- Takes the blanks off both ends. -/
def strip (cs : List Char) : List Char := trim isBlank cs

/-- The maximal runs of characters that are not blank. -/
def words (cs : List Char) : List (List Char) :=
  (cs.splitOnP isBlank).filter (· ≠ [])

/-- What stands before and after the first `sep`, if there is one. -/
def cutFirst (sep : Char) (cs : List Char) : Option (List Char × List Char) :=
  match cs.dropWhile (· ≠ sep) with
  | [] => none
  | _ :: after => some (cs.takeWhile (· ≠ sep), after)

/-- What stands before and after the last `sep`, if there is one. -/
def cutLast (sep : Char) (cs : List Char) : Option (List Char × List Char) :=
  (cutFirst sep cs.reverse).map fun (after, before) => (before.reverse, after.reverse)

/-- The lower-case form, as far as it is an ASCII letter.  Among the others only the Kelvin sign
has such a form. -/
def lowerChar (c : Char) : Char := if c = '\u212A' then 'k' else c.toLower

/-- Folds a name for look-up. -/
def lower (s : String) : String := String.ofList (s.toList.map lowerChar)

end DotWriter
