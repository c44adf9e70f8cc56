/-!
# Attribute identifiers

`DotAttribute` lists the attributes of graphs, nodes and edges, `HtmlAttribute` those of the tags
inside labels.  An `AttributeId` is one of either; two attributes of the same spelling in the two
lists are different attributes.
-/

namespace DotWriter

/-- Attributes of graphs, nodes and edges. -/
inductive DotAttribute
  | damping | k | url | background | area | arrowhead | arrowsize | arrowtail | bb | bgcolor
  | center | charset | classes | clusterrank | color | colorscheme | comment | compound
  | concentrate | constraint | decorate | defaultdist | dim | dimen | dir | diredgeconstraints
  | distortion | dpi | edgeUrl | edgehref | edgetarget | edgetooltip | epsilon | esep | fillcolor
  | fixedsize | fontcolor | fontname | fontnames | fontpath | fontsize | forcelabels | gradientangle
  | group | headUrl | headLp | headclip | headhref | headlabel | headport | headtarget | headtooltip
  | height | href | id | image | imagepath | imagepos | imagescale | inputscale | label | labelUrl
  | labelScheme | labelangle | labeldistance | labelfloat | labelfontcolor | labelfontname
  | labelfontsize | labelhref | labeljust | labelloc | labeltarget | labeltooltip | landscape
  | layer | layerlistsep | layers | layerselect | layersep | layout | len | levels | levelsgap
  | lhead | lheight | lp | ltail | lwidth | margin | maxiter | mclimit | mindist | minlen | mode
  | model | mosek | newrank | nodesep | nojustify | normalize | notranslate | nslimit | nslimit1
  | ordering | orientation | outputorder | overlap | overlapScaling | overlapShrink | pack
  | packmode | pad | page | pagedir | pencolor | penwidth | peripheries | pin | pos | quadtree
  | quantum | rank | rankdir | ranksep | ratio | rects | regular | remincross | repulsiveforce
  | resolution | root | rotate | rotation | samehead | sametail | samplepoints | scale | searchsize
  | sep | shape | shapefile | showboxes | sides | size | skew | smoothing | sortv | splines | start
  | style | stylesheet | tailUrl | tailLp | tailclip | tailhref | taillabel | tailport | tailtarget
  | tailtooltip | target | tooltip | truecolor | vertices | viewport | voroMargin | weight | width
  | xdotversion | xlabel | xlp | z
deriving DecidableEq

namespace DotAttribute

/-- All attributes. -/
def all : List DotAttribute := [
  .damping, .k, .url, .background, .area, .arrowhead, .arrowsize, .arrowtail, .bb, .bgcolor,
  .center, .charset, .classes, .clusterrank, .color, .colorscheme, .comment, .compound,
  .concentrate, .constraint, .decorate, .defaultdist, .dim, .dimen, .dir, .diredgeconstraints,
  .distortion, .dpi, .edgeUrl, .edgehref, .edgetarget, .edgetooltip, .epsilon, .esep, .fillcolor,
  .fixedsize, .fontcolor, .fontname, .fontnames, .fontpath, .fontsize, .forcelabels, .gradientangle,
  .group, .headUrl, .headLp, .headclip, .headhref, .headlabel, .headport, .headtarget, .headtooltip,
  .height, .href, .id, .image, .imagepath, .imagepos, .imagescale, .inputscale, .label, .labelUrl,
  .labelScheme, .labelangle, .labeldistance, .labelfloat, .labelfontcolor, .labelfontname,
  .labelfontsize, .labelhref, .labeljust, .labelloc, .labeltarget, .labeltooltip, .landscape,
  .layer, .layerlistsep, .layers, .layerselect, .layersep, .layout, .len, .levels, .levelsgap,
  .lhead, .lheight, .lp, .ltail, .lwidth, .margin, .maxiter, .mclimit, .mindist, .minlen, .mode,
  .model, .mosek, .newrank, .nodesep, .nojustify, .normalize, .notranslate, .nslimit, .nslimit1,
  .ordering, .orientation, .outputorder, .overlap, .overlapScaling, .overlapShrink, .pack,
  .packmode, .pad, .page, .pagedir, .pencolor, .penwidth, .peripheries, .pin, .pos, .quadtree,
  .quantum, .rank, .rankdir, .ranksep, .ratio, .rects, .regular, .remincross, .repulsiveforce,
  .resolution, .root, .rotate, .rotation, .samehead, .sametail, .samplepoints, .scale, .searchsize,
  .sep, .shape, .shapefile, .showboxes, .sides, .size, .skew, .smoothing, .sortv, .splines, .start,
  .style, .stylesheet, .tailUrl, .tailLp, .tailclip, .tailhref, .taillabel, .tailport, .tailtarget,
  .tailtooltip, .target, .tooltip, .truecolor, .vertices, .viewport, .voroMargin, .weight, .width,
  .xdotversion, .xlabel, .xlp, .z]

/-- The name of an attribute in a document. -/
def name : DotAttribute → String
  | damping => "Damping"
  | k => "K"
  | url => "URL"
  | background => "_background"
  | area => "area"
  | arrowhead => "arrowhead"
  | arrowsize => "arrowsize"
  | arrowtail => "arrowtail"
  | bb => "bb"
  | bgcolor => "bgcolor"
  | center => "center"
  | charset => "charset"
  | classes => "class"
  | clusterrank => "clusterrank"
  | color => "color"
  | colorscheme => "colorscheme"
  | comment => "comment"
  | compound => "compound"
  | concentrate => "concentrate"
  | constraint => "constraint"
  | decorate => "decorate"
  | defaultdist => "defaultdist"
  | dim => "dim"
  | dimen => "dimen"
  | dir => "dir"
  | diredgeconstraints => "diredgeconstraints"
  | distortion => "distortion"
  | dpi => "dpi"
  | edgeUrl => "edgeURL"
  | edgehref => "edgehref"
  | edgetarget => "edgetarget"
  | edgetooltip => "edgetooltip"
  | epsilon => "epsilon"
  | esep => "esep"
  | fillcolor => "fillcolor"
  | fixedsize => "fixedsize"
  | fontcolor => "fontcolor"
  | fontname => "fontname"
  | fontnames => "fontnames"
  | fontpath => "fontpath"
  | fontsize => "fontsize"
  | forcelabels => "forcelabels"
  | gradientangle => "gradientangle"
  | group => "group"
  | headUrl => "headURL"
  | headLp => "head_lp"
  | headclip => "headclip"
  | headhref => "headhref"
  | headlabel => "headlabel"
  | headport => "headport"
  | headtarget => "headtarget"
  | headtooltip => "headtooltip"
  | height => "height"
  | href => "href"
  | id => "id"
  | image => "image"
  | imagepath => "imagepath"
  | imagepos => "imagepos"
  | imagescale => "imagescale"
  | inputscale => "inputscale"
  | label => "label"
  | labelUrl => "labelURL"
  | labelScheme => "label_scheme"
  | labelangle => "labelangle"
  | labeldistance => "labeldistance"
  | labelfloat => "labelfloat"
  | labelfontcolor => "labelfontcolor"
  | labelfontname => "labelfontname"
  | labelfontsize => "labelfontsize"
  | labelhref => "labelhref"
  | labeljust => "labeljust"
  | labelloc => "labelloc"
  | labeltarget => "labeltarget"
  | labeltooltip => "labeltooltip"
  | landscape => "landscape"
  | layer => "layer"
  | layerlistsep => "layerlistsep"
  | layers => "layers"
  | layerselect => "layerselect"
  | layersep => "layersep"
  | layout => "layout"
  | len => "len"
  | levels => "levels"
  | levelsgap => "levelsgap"
  | lhead => "lhead"
  | lheight => "lheight"
  | lp => "lp"
  | ltail => "ltail"
  | lwidth => "lwidth"
  | margin => "margin"
  | maxiter => "maxiter"
  | mclimit => "mclimit"
  | mindist => "mindist"
  | minlen => "minlen"
  | mode => "mode"
  | model => "model"
  | mosek => "mosek"
  | newrank => "newrank"
  | nodesep => "nodesep"
  | nojustify => "nojustify"
  | normalize => "normalize"
  | notranslate => "notranslate"
  | nslimit => "nslimit"
  | nslimit1 => "nslimit1"
  | ordering => "ordering"
  | orientation => "orientation"
  | outputorder => "outputorder"
  | overlap => "overlap"
  | overlapScaling => "overlap_scaling"
  | overlapShrink => "overlap_shrink"
  | pack => "pack"
  | packmode => "packmode"
  | pad => "pad"
  | page => "page"
  | pagedir => "pagedir"
  | pencolor => "pencolor"
  | penwidth => "penwidth"
  | peripheries => "peripheries"
  | pin => "pin"
  | pos => "pos"
  | quadtree => "quadtree"
  | quantum => "quantum"
  | rank => "rank"
  | rankdir => "rankdir"
  | ranksep => "ranksep"
  | ratio => "ratio"
  | rects => "rects"
  | regular => "regular"
  | remincross => "remincross"
  | repulsiveforce => "repulsiveforce"
  | resolution => "resolution"
  | root => "root"
  | rotate => "rotate"
  | rotation => "rotation"
  | samehead => "samehead"
  | sametail => "sametail"
  | samplepoints => "samplepoints"
  | scale => "scale"
  | searchsize => "searchsize"
  | sep => "sep"
  | shape => "shape"
  | shapefile => "shapefile"
  | showboxes => "showboxes"
  | sides => "sides"
  | size => "size"
  | skew => "skew"
  | smoothing => "smoothing"
  | sortv => "sortv"
  | splines => "splines"
  | start => "start"
  | style => "style"
  | stylesheet => "stylesheet"
  | tailUrl => "tailURL"
  | tailLp => "tail_lp"
  | tailclip => "tailclip"
  | tailhref => "tailhref"
  | taillabel => "taillabel"
  | tailport => "tailport"
  | tailtarget => "tailtarget"
  | tailtooltip => "tailtooltip"
  | target => "target"
  | tooltip => "tooltip"
  | truecolor => "truecolor"
  | vertices => "vertices"
  | viewport => "viewport"
  | voroMargin => "voro_margin"
  | weight => "weight"
  | width => "width"
  | xdotversion => "xdotversion"
  | xlabel => "xlabel"
  | xlp => "xlp"
  | z => "z"

/-- The attribute of the given name. -/
def ofName? (name : String) : Option DotAttribute := all.find? fun a => a.name == name

end DotAttribute

/-- Attributes of the tags inside labels. -/
inductive HtmlAttribute
  | align | balign | bgcolor | border | cellpadding | cellspacing | color | colspan | columns | face
  | fixedsize | gradientangle | height | href | id | pointSize | port | rows | rowspan | scale
  | sides | src | style | target | title | tooltip | valign | width
deriving DecidableEq

namespace HtmlAttribute

/-- All attributes. -/
def all : List HtmlAttribute := [
  .align, .balign, .bgcolor, .border, .cellpadding, .cellspacing, .color, .colspan, .columns, .face,
  .fixedsize, .gradientangle, .height, .href, .id, .pointSize, .port, .rows, .rowspan, .scale,
  .sides, .src, .style, .target, .title, .tooltip, .valign, .width]

/-- The name of an attribute in a label. -/
def name : HtmlAttribute → String
  | align => "ALIGN"
  | balign => "BALIGN"
  | bgcolor => "BGCOLOR"
  | border => "BORDER"
  | cellpadding => "CELLPADDING"
  | cellspacing => "CELLSPACING"
  | color => "COLOR"
  | colspan => "COLSPAN"
  | columns => "COLUMNS"
  | face => "FACE"
  | fixedsize => "FIXEDSIZE"
  | gradientangle => "GRADIENTANGLE"
  | height => "HEIGHT"
  | href => "HREF"
  | id => "ID"
  | pointSize => "POINT-SIZE"
  | port => "PORT"
  | rows => "ROWS"
  | rowspan => "ROWSPAN"
  | scale => "SCALE"
  | sides => "SIDES"
  | src => "SRC"
  | style => "STYLE"
  | target => "TARGET"
  | title => "TITLE"
  | tooltip => "TOOLTIP"
  | valign => "VALIGN"
  | width => "WIDTH"

/-- The attribute of the given name. -/
def ofName? (name : String) : Option HtmlAttribute := all.find? fun a => a.name == name

end HtmlAttribute

/-- Any attribute. -/
inductive AttributeId
  | dot (attr : DotAttribute)
  | html (attr : HtmlAttribute)
deriving DecidableEq

namespace AttributeId

/-- The name of an attribute where it is written. -/
def name : AttributeId → String
  | dot a => a.name
  | html a => a.name

/-- Whether the attribute belongs to the tags inside labels. -/
def isHtml : AttributeId → Bool
  | dot _ => false
  | html _ => true

end AttributeId

end DotWriter
