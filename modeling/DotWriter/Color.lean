import DotWriter.Color.Hsv
import DotWriter.Color.X11
import DotWriter.Double.Text
import DotWriter.Fault
import DotWriter.Text.Printable

/-!
# Colors

* `PlainColor` is a color given by its channels, by hue, saturation and value, or by name;
* `ColorList` is a list of plain colors, some of which carry weights.  `ColorList.add` refuses a
  weight outside the unit interval, and one that lifts the sum of the weights above one;
* `Color.render` writes either, and `Color.literal` shows it in messages.
-/

namespace DotWriter

/-- Red, green and blue channels. -/
structure Rgb where
  red : UInt8
  green : UInt8
  blue : UInt8
deriving DecidableEq

/-- Two upper-case hexadecimal digits. -/
def hexByte (b : UInt8) : List Char := (hexPadded 2 b.toNat).map Char.toUpper

namespace Rgb

/-- The channels of a number `0xRRGGBB`. -/
def ofCode (n : Nat) : Rgb :=
  ⟨UInt8.ofNat (n / 65536), UInt8.ofNat (n / 256), UInt8.ofNat n⟩

/-- A number sign and two hexadecimal digits for each channel. -/
def chars (c : Rgb) : List Char := '#' :: (hexByte c.red ++ hexByte c.green ++ hexByte c.blue)

/-- Two hexadecimal digits for each channel. -/
def render (c : Rgb) : String := String.ofList c.chars

end Rgb

/-- A channel from a number, which must fit into a byte. -/
def channelOfInt (name : String) (n : Int) : Except Fault UInt8 :=
  if 0 ≤ n ∧ n ≤ 255 then .ok (UInt8.ofNat n.toNat)
  else .error (.channel name (some (toString n)))

/-- Channels from three numbers, checked in order. -/
def Rgb.ofInts (red green blue : Int) : Except Fault Rgb := do
  let r ← channelOfInt "red" red
  let g ← channelOfInt "green" green
  let b ← channelOfInt "blue" blue
  return ⟨r, g, b⟩

/-- Checks that a component of a color lies between zero and one. -/
def checkComponent (name : String) (x : Number) : Except Fault Unit :=
  if x.inUnit then .ok () else .error (.component name x.text)

/-- The channels of a color given by hue, saturation and value. -/
def hsvChannels (hue saturation value : Number) : Except Fault (Int × Int × Int) := do
  checkComponent "Hue" hue
  checkComponent "Saturation" saturation
  checkComponent "Value" value
  return sectorChannels hue.toBinary64 saturation.toBinary64 value.toBinary64

/-- A color given by hue, saturation and value. -/
structure Hsv where
  hue : Number
  saturation : Number
  value : Number
deriving DecidableEq

namespace Hsv

/-- Checks the components.  A hue of one is kept as zero. -/
def of (hue saturation value : Number) : Except Fault Hsv := do
  let _ ← hsvChannels hue saturation value
  return ⟨if hue.toRat? = some 1 then .float (.finite Double.zero) else hue, saturation, value⟩

/-- The color by its channels. -/
def rgb (c : Hsv) : Except Fault Rgb := do
  let (r, g, b) ← hsvChannels c.hue c.saturation c.value
  Rgb.ofInts r g b

end Hsv

/-- A color name in lower case. -/
structure ColorName where
  name : String
  known : (x11Code? name).isSome = true
deriving DecidableEq

namespace ColorName

/-- Looks up a color name without regard to case. -/
def of (name : String) : Except Fault ColorName :=
  if h : (x11Code? (lower name)).isSome = true then .ok ⟨lower name, h⟩
  else .error (.unknownColor (textLiteral name))

/-- The color by its channels. -/
def rgb (c : ColorName) : Rgb := Rgb.ofCode ((x11Code? c.name).get c.known)

end ColorName

/-- A single color. -/
inductive PlainColor
  | rgb (color : Rgb)
  | rgba (color : Rgb) (alpha : UInt8)
  | hsv (color : Hsv)
  | named (color : ColorName)
deriving DecidableEq

namespace PlainColor

/-- The text of a color in a document. -/
def render : PlainColor → Except Fault String
  | rgb c => .ok c.render
  | rgba c a => .ok (String.ofList (c.chars ++ hexByte a))
  | hsv c => Rgb.render <$> c.rgb
  | named c => .ok c.name

/-- The name of the kind of a color. -/
def className : PlainColor → String
  | rgb _ => "RGB"
  | rgba _ _ => "RGBA"
  | hsv _ => "HSV"
  | named _ => "NamedColor"

/-- The channels of a color as messages show them. -/
def channelsLiteral (c : Rgb) : String :=
  "red=" ++ toString c.red ++ ", green=" ++ toString c.green ++ ", blue=" ++ toString c.blue

/-- A color as messages show it. -/
def literal : PlainColor → String
  | rgb c => "RGB(" ++ channelsLiteral c ++ ")"
  | rgba c a => "RGBA(" ++ channelsLiteral c ++ ", alpha=" ++ toString a ++ ")"
  | hsv c =>
    "HSV(hue=" ++ c.hue.text ++ ", saturation=" ++ c.saturation.text ++ ", value=" ++
      c.value.text ++ ")"
  | named c => "NamedColor(name=" ++ textLiteral c.name ++ ")"

end PlainColor

/-- Colors with optional weights. -/
structure ColorList where
  /-- The colors in order; one without a weight differs from one with weight zero. -/
  entries : List (PlainColor × Option Double)
  /-- The sum of the weights, from left to right. -/
  weightSum : Double
deriving DecidableEq

namespace ColorList

/-- The list without colors. -/
def empty : ColorList := ⟨[], Double.zero⟩

/-- The weight, if it lies between zero and one. -/
def unitWeight? : Binary64 → Option Double
  | .finite w => if 0 ≤ w.toRat ∧ w.toRat ≤ 1 then some w else none
  | _ => none

/-- The sum of two weights, if it does not exceed one. -/
def sum? (total weight : Double) : Option Double :=
  match (total : Binary64) + (weight : Binary64) with
  | .finite s => if 1 < s.toRat then none else some s
  | _ => none

/-- Appends a color.  The weight is checked before the list changes. -/
def add (l : ColorList) (color : PlainColor) (weight : Option Binary64) :
    Except Fault Unit × ColorList :=
  match weight with
  | none => (.ok (), { l with entries := l.entries ++ [(color, none)] })
  | some w =>
    match unitWeight? w with
    | none => (.error (.weightRange w.text), l)
    | some w =>
      match sum? l.weightSum w with
      | none => (.error .weightSum, l)
      | some s => (.ok (), ⟨l.entries ++ [(color, some w)], s⟩)

/-- The text of an entry: the color, and its weight after a semicolon. -/
def renderEntry (entry : PlainColor × Option Double) : Except Fault String := do
  let color ← entry.1.render
  return match entry.2 with
    | none => color
    | some w => color ++ ";" ++ w.fixed

/-- The entries with colons between them. -/
def render (l : ColorList) : Except Fault String := do
  return String.intercalate ":" (← l.entries.mapM renderEntry)

/-- A list of colors as messages show it. -/
def literal (l : ColorList) : String :=
  let entry (e : PlainColor × Option Double) : String :=
    "(" ++ e.1.literal ++ ", " ++ (e.2.map Double.text).getD "None" ++ ")"
  "ColorList(entries=[" ++ String.intercalate ", " (l.entries.map entry) ++ "], weight_sum=" ++
    l.weightSum.text ++ ")"

end ColorList

/-- What may stand where a document expects a color. -/
inductive Color
  | plain (color : PlainColor)
  | list (colors : ColorList)
deriving DecidableEq

namespace Color

/-- The text of a color in a document. -/
def render : Color → Except Fault String
  | plain c => c.render
  | list l => l.render

/-- The name of the kind of a color. -/
def className : Color → String
  | plain c => c.className
  | list _ => "ColorList"

/-- A color as messages show it. -/
def literal : Color → String
  | plain c => c.literal
  | list l => l.literal

end Color

end DotWriter
