import DotWriter.Color
import DotWriter.Raw
import DotWriter.Text.Numeral

/-!
# Reading colors

A text stands for a color in one of four ways: a number sign with two hexadecimal digits for each
of three or four channels; hue, saturation and value with commas or blanks between them; a color
name; or several colors with colons between them, each with an optional weight after a semicolon.
-/

namespace DotWriter

/-- The pairs of a text of even length, as hexadecimal numbers. -/
def hexPairs? : List Char → Option (List Int)
  | high :: low :: rest => do return (← readHexPair? high low) :: (← hexPairs? rest)
  | [] => some []
  | [_] => none

/-- The color with the given three or four channels. -/
def PlainColor.ofChannels : List Int → Except Fault PlainColor
  | [r, g, b] => .rgb <$> Rgb.ofInts r g b
  | [r, g, b, a] => do
    let color ← Rgb.ofInts r g b
    return .rgba color (← channelOfInt "alpha" a)
  | _ => .error .unreadableText

/-- Reads the channels after a number sign.  The text `shown` appears in the message. -/
def readHexColor (shown : List Char) (digits : List Char) : Except Fault PlainColor :=
  if digits.length = 6 ∨ digits.length = 8 then
    match hexPairs? digits with
    | some channels => PlainColor.ofChannels channels
    | none => .error .unreadableText
  else .error (.notColorText (textLiteral (String.ofList shown)))

/-- Reads hue, saturation and value. -/
def readHsv (text : List Char) : Except Fault PlainColor :=
  match (words (text.map fun c => if c = ',' then ' ' else c)).mapM readDouble? with
  | some [h, s, v] => .hsv <$> Hsv.of (.float h) (.float s) (.float v)
  | _ => .error .unreadableText

/-- Reads a single color. -/
def readPlainColor (cs : List Char) : Except Fault PlainColor :=
  match strip cs with
  | '#' :: digits => readHexColor cs digits
  | text =>
    if ',' ∈ text ∨ ' ' ∈ text then readHsv text
    else .named <$> ColorName.of (String.ofList text)

/-- Reads one entry of a list of colors and adds it. -/
def ColorList.addText (l : ColorList) (part : List Char) : Except Fault ColorList :=
  match cutFirst ';' part with
  | none => do leaving (l.add (← readPlainColor part) none)
  | some (color, weight) => do
    let color ← readPlainColor color
    match readDouble? weight with
    | some w => leaving (l.add color (some w))
    | none => .error .unreadableText

/-- Reads a color or a list of colors. -/
def readColorText (cs : List Char) : Except Fault Color :=
  if ':' ∈ cs ∨ ';' ∈ cs then
    .list <$> (cs.splitOn ':').foldlM ColorList.addText ColorList.empty
  else .plain <$> readPlainColor cs

/-- Reads a color from a raw datum, which must be a text. -/
def readColor : Raw → Except Fault Color
  | .text s => readColorText s.toList
  | r => .error (.notColorText r.literal)

end DotWriter
