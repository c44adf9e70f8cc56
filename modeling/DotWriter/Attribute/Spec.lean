import DotWriter.Attribute.Table
import DotWriter.Number
import DotWriter.Value

/-!
# What attributes expect

* `Kind` is a kind of value an attribute may take, and `Kind.accepts` decides whether a value is of
  that kind;
* `Spec` lists the kinds of an attribute, bounds for its numbers and, for some attributes, the only
  texts that are allowed;
* `AttributeId.spec` is the specification of an attribute.
-/

namespace DotWriter

/-- The kinds of values that attributes take. -/
inductive Kind
  | bool | int | double | string | escString | label | point | pointList | rect | addDouble
  | addPoint | portPos | layerList | layerRange | viewPort | styleList | color | sides
  | member (e : Enumeration)
deriving DecidableEq

namespace Kind

/-- The name of a kind in messages. -/
def name : Kind → String
  | bool => "Bool"
  | int => "Int"
  | double => "Double"
  | string => "String"
  | escString => "EscString"
  | label => "HtmlValue"
  | point => "Point"
  | pointList => "PointList"
  | rect => "Rect"
  | addDouble => "AddDouble"
  | addPoint => "AddPoint"
  | portPos => "PortPos"
  | layerList => "LayerList"
  | layerRange => "LayerRange"
  | viewPort => "ViewPort"
  | styleList => "StyleList"
  | color => "Color"
  | sides => "Sides"
  | member e => e.name

/-- The kind of a value, if attributes take values of that kind. -/
def of? : Value → Option Kind
  | .bool _ => some bool
  | .int _ => some int
  | .double _ => some double
  | .string _ => some string
  | .escString _ => some escString
  | .label _ => some label
  | .point _ => some point
  | .pointList _ => some pointList
  | .rect _ => some rect
  | .addDouble _ => some addDouble
  | .addPoint _ => some addPoint
  | .portPos _ => some portPos
  | .layerList _ => some layerList
  | .layerRange _ => some layerRange
  | .viewPort _ => some viewPort
  | .styleList _ => some styleList
  | .color _ => some color
  | .sides _ => some sides
  | .member e _ => some (member e)
  | .id _ | .doubleList _ => none

/-- Whether a value is of the kind. -/
def accepts (k : Kind) (v : Value) : Bool := of? v == some k

end Kind

/-- What an attribute expects. -/
structure Spec where
  /-- The kinds of values, in the order in which raw data is tried. -/
  kinds : List Kind
  /-- The smallest number. -/
  low : Option Number := none
  /-- The largest number. -/
  high : Option Number := none
  /-- The only texts, if not all are allowed. -/
  choices : Option (List String) := none

namespace Spec

/-- A bound that is a whole number. -/
def whole (n : Int) : Option Number := some (.int n)

/-- A bound that is a number of the 64-bit format, given in hundredths. -/
def decimal (hundredths : Int) : Option Number :=
  some (.float (Binary64.round (hundredths / 100 : Rat) false))

/-- Whether a value is of one of the kinds. -/
def accepts (s : Spec) (v : Value) : Bool := s.kinds.any fun k => k.accepts v

/-- The names of the kinds in messages. -/
def kindNames (s : Spec) : String := String.intercalate " or " (s.kinds.map Kind.name)

end Spec

open Spec in
/-- What an attribute of graphs, nodes or edges expects. -/
def DotAttribute.spec : DotAttribute → Spec
  | .damping | .k | .area | .arrowsize | .dpi | .labeldistance | .mindist | .penwidth | .quantum
  | .repulsiveforce | .voroMargin => { kinds := [.double], low := decimal 0 }
  | .url | .edgeUrl | .edgehref | .edgetarget | .edgetooltip | .headUrl | .headhref | .headtarget
  | .headtooltip | .href | .id | .labelUrl | .labelhref | .labeltarget | .labeltooltip | .tailUrl
  | .tailhref | .tailtarget | .tailtooltip | .target | .tooltip => { kinds := [.escString] }
  | .background | .charset | .classes | .colorscheme | .comment | .fontname | .fontnames | .fontpath
  | .group | .image | .imagepath | .imagepos | .labelfontname | .labeljust | .labelloc
  | .layerlistsep | .layersep | .layout | .lhead | .ltail | .mode | .model | .ordering | .samehead
  | .sametail | .shapefile | .stylesheet | .xdotversion => { kinds := [.string] }
  | .arrowhead | .arrowtail => { kinds := [.member .arrowType] }
  | .bb | .rects => { kinds := [.rect] }
  | .bgcolor | .color | .fillcolor | .fontcolor | .labelfontcolor | .pencolor =>
    { kinds := [.color] }
  | .center | .compound | .concentrate | .constraint | .decorate | .forcelabels | .headclip
  | .labelfloat | .landscape | .mosek | .newrank | .nojustify | .notranslate | .overlapShrink | .pin
  | .regular | .remincross | .tailclip | .truecolor => { kinds := [.bool] }
  | .clusterrank => { kinds := [.member .clusterMode] }
  | .defaultdist | .epsilon | .inputscale | .len | .levelsgap | .lheight | .lwidth | .mclimit
  | .nslimit | .nslimit1 | .overlapScaling | .resolution | .rotation | .z => { kinds := [.double] }
  | .dim | .dimen => { kinds := [.int], low := whole 2, high := whole 10 }
  | .dir => { kinds := [.member .dirType] }
  | .diredgeconstraints | .overlap | .root => { kinds := [.string, .bool] }
  | .distortion | .skew => { kinds := [.double], low := decimal (-10000) }
  | .esep | .sep => { kinds := [.addDouble, .addPoint] }
  | .fixedsize | .imagescale | .splines => { kinds := [.bool, .string] }
  | .fontsize | .labelfontsize => { kinds := [.double], low := decimal 100 }
  | .gradientangle | .maxiter | .rotate | .samplepoints | .searchsize => { kinds := [.int] }
  | .headLp | .lp | .tailLp | .xlp => { kinds := [.point] }
  | .headlabel | .label | .taillabel | .xlabel => { kinds := [.escString, .label] }
  | .headport | .tailport => { kinds := [.portPos] }
  | .height | .nodesep | .ranksep => { kinds := [.double], low := decimal 2 }
  | .labelScheme => { kinds := [.int], low := whole 0, high := whole 3 }
  | .labelangle => { kinds := [.double], low := decimal (-18000) }
  | .layer | .layerselect => { kinds := [.layerRange] }
  | .layers => { kinds := [.layerList] }
  | .levels | .minlen | .peripheries | .showboxes | .sortv | .weight =>
    { kinds := [.int], low := whole 0 }
  | .margin | .pad | .page | .scale | .size => { kinds := [.double, .point] }
  | .normalize => { kinds := [.double, .bool] }
  | .orientation | .ratio => { kinds := [.double, .string] }
  | .outputorder => { kinds := [.member .outputMode] }
  | .pack => { kinds := [.bool, .int] }
  | .packmode => { kinds := [.member .packMode] }
  | .pagedir => { kinds := [.member .pageDir] }
  | .pos => { kinds := [.point, .pointList] }
  | .quadtree => { kinds := [.member .quadType] }
  | .rank => { kinds := [.member .rankType] }
  | .rankdir => { kinds := [.member .rankDir] }
  | .shape => { kinds := [.member .shape] }
  | .sides => { kinds := [.int], low := whole 3 }
  | .smoothing => { kinds := [.member .smoothType] }
  | .start => { kinds := [.member .startType, .string] }
  | .style => { kinds := [.member .style, .styleList] }
  | .vertices => { kinds := [.pointList] }
  | .viewport => { kinds := [.viewPort] }
  | .width => { kinds := [.double], low := decimal 1 }

open Spec in
/-- What an attribute of a tag expects. -/
def HtmlAttribute.spec : HtmlAttribute → Spec
  | .align => { kinds := [.member .alignment], choices := some ["CENTER", "LEFT", "RIGHT", "TEXT"] }
  | .balign => { kinds := [.member .alignment], choices := some ["CENTER", "LEFT", "RIGHT"] }
  | .valign => { kinds := [.member .alignment], choices := some ["MIDDLE", "BOTTOM", "TOP"] }
  | .bgcolor | .color => { kinds := [.color] }
  | .border | .cellpadding => { kinds := [.int], low := whole 0, high := whole 255 }
  | .cellspacing => { kinds := [.int], low := whole 0, high := whole 127 }
  | .colspan | .height | .rowspan | .width =>
    { kinds := [.int], low := whole 0, high := whole 65535 }
  | .columns | .rows => { kinds := [.string], choices := some [quoted "*"] }
  | .face | .port | .src => { kinds := [.string] }
  | .fixedsize => { kinds := [.bool] }
  | .gradientangle => { kinds := [.int], low := whole 0, high := whole 360 }
  | .href | .id | .target | .title | .tooltip => { kinds := [.escString] }
  | .pointSize => { kinds := [.int, .double], low := whole 0 }
  | .scale => { kinds := [.member .scale] }
  | .sides => { kinds := [.sides] }
  | .style => { kinds := [.member .htmlStyle] }

/-- What an attribute expects. -/
def AttributeId.spec : AttributeId → Spec
  | .dot a => a.spec
  | .html a => a.spec

end DotWriter
