import DotWriter.Attribute.Id

/-!
# Tags

`Tag` lists the tags of HTML-like labels.  Several kinds of tag share one spelling: the tags that
change the font of a text, and the same tags around a table.
-/

namespace DotWriter

/-- The tags of labels. -/
inductive Tag
  | lineBreak
  | font | italic | bold | underline | overline | subscript | superscript | strikeThrough
  | horizontalRule | verticalRule | image
  | tableCell | tableRow | table
  | tableFont | tableItalic | tableBold | tableUnderline | tableOverline
deriving DecidableEq

namespace Tag

/-- All tags. -/
def all : List Tag := [
  .lineBreak, .font, .italic, .bold, .underline, .overline, .subscript, .superscript,
  .strikeThrough, .horizontalRule, .verticalRule, .image, .tableCell, .tableRow, .table,
  .tableFont, .tableItalic, .tableBold, .tableUnderline, .tableOverline]

/-- The spelling of a tag. -/
def spelling : Tag → String
  | lineBreak => "BR"
  | font | tableFont => "FONT"
  | italic | tableItalic => "I"
  | bold | tableBold => "B"
  | underline | tableUnderline => "U"
  | overline | tableOverline => "O"
  | subscript => "SUB"
  | superscript => "SUP"
  | strikeThrough => "S"
  | horizontalRule => "HR"
  | verticalRule => "VR"
  | image => "IMG"
  | tableCell => "TD"
  | tableRow => "TR"
  | table => "TABLE"

/-- The name of the kind of a tag. -/
def className : Tag → String
  | lineBreak => "LineBreak"
  | font => "Font"
  | italic => "Italic"
  | bold => "Bold"
  | underline => "Underline"
  | overline => "Overline"
  | subscript => "Subscript"
  | superscript => "Superscript"
  | strikeThrough => "StrikeThrough"
  | horizontalRule => "HorizontalRule"
  | verticalRule => "VerticalRule"
  | image => "Image"
  | tableCell => "TableCell"
  | tableRow => "TableRow"
  | table => "Table"
  | tableFont => "TableFont"
  | tableItalic => "TableItalic"
  | tableBold => "TableBold"
  | tableUnderline => "TableUnderline"
  | tableOverline => "TableOverline"

/-- The kind of tag with the given name. -/
def ofClassName? (name : String) : Option Tag := all.find? fun t => t.className == name

/-- Whether the tag stands alone, without content. -/
def isVoid : Tag → Bool
  | lineBreak | horizontalRule | verticalRule | image => true
  | _ => false

/-- Whether the tag holds a text and is itself an item of texts. -/
def wrapsText : Tag → Bool
  | font | italic | bold | underline | overline | subscript | superscript | strikeThrough => true
  | _ => false

/-- Whether the tag changes the font of a table. -/
def wrapsTable : Tag → Bool
  | tableFont | tableItalic | tableBold | tableUnderline | tableOverline => true
  | _ => false

/-- Whether the tag is a table, possibly inside tags that change its font. -/
def isTable (t : Tag) : Bool := t = table || t.wrapsTable

/-- Whether the tag may be an item of a text. -/
def isTextItem (t : Tag) : Bool := t = lineBreak || t.wrapsText

/-- The attributes that a tag may carry. -/
def supported : Tag → List HtmlAttribute
  | lineBreak => [.align]
  | font | tableFont => [.color, .face, .pointSize]
  | image => [.scale, .src]
  | table => [
    .align, .bgcolor, .border, .cellpadding, .cellspacing, .color, .columns, .fixedsize,
    .gradientangle, .height, .href, .id, .port, .rows, .sides, .style, .target, .title, .tooltip,
    .valign, .width]
  | tableCell => [
    .align, .balign, .bgcolor, .border, .cellpadding, .cellspacing, .color, .colspan, .fixedsize,
    .gradientangle, .height, .href, .id, .port, .rowspan, .sides, .style, .target, .title,
    .tooltip, .valign, .width]
  | _ => []

end Tag

end DotWriter
