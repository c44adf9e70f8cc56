import DotWriter.Attribute.Id

/-!
# Which entity carries which attribute

The attributes that graphs, clusters, subgraphs, nodes and edges may carry.
-/

namespace DotWriter

/-- Attributes of graphs. -/
def graphAttributes : List DotAttribute := [
  .damping, .k, .url, .background, .bb, .bgcolor, .center, .charset, .classes, .clusterrank,
  .colorscheme, .comment, .compound, .concentrate, .defaultdist, .dim, .dimen, .diredgeconstraints,
  .dpi, .epsilon, .esep, .fontcolor, .fontname, .fontnames, .fontpath, .fontsize, .forcelabels,
  .gradientangle, .href, .id, .imagepath, .inputscale, .label, .labelScheme, .labeljust, .labelloc,
  .landscape, .layerlistsep, .layers, .layerselect, .layersep, .layout, .levels, .levelsgap,
  .lheight, .lp, .lwidth, .margin, .maxiter, .mclimit, .mindist, .mode, .model, .mosek, .newrank,
  .nodesep, .nojustify, .normalize, .notranslate, .nslimit, .nslimit1, .ordering, .orientation,
  .outputorder, .overlap, .overlapScaling, .overlapShrink, .pack, .packmode, .pad, .page, .pagedir,
  .quadtree, .quantum, .rankdir, .ranksep, .ratio, .remincross, .repulsiveforce, .resolution, .root,
  .rotate, .rotation, .scale, .searchsize, .sep, .showboxes, .size, .smoothing, .sortv, .splines,
  .start, .style, .stylesheet, .target, .truecolor, .viewport, .voroMargin, .xdotversion]

/-- Attributes of clusters. -/
def clusterAttributes : List DotAttribute := [
  .k, .url, .area, .bgcolor, .classes, .color, .colorscheme, .fillcolor, .fontcolor, .fontname,
  .fontsize, .gradientangle, .href, .id, .label, .labeljust, .labelloc, .layer, .lheight, .lp,
  .lwidth, .margin, .nojustify, .pencolor, .penwidth, .peripheries, .sortv, .style, .target,
  .tooltip]

/-- Attributes of subgraphs. -/
def subgraphAttributes : List DotAttribute := [
  .rank]

/-- Attributes of nodes. -/
def nodeAttributes : List DotAttribute := [
  .url, .area, .classes, .color, .colorscheme, .comment, .distortion, .fillcolor, .fixedsize,
  .fontcolor, .fontname, .fontsize, .gradientangle, .group, .height, .href, .id, .image, .imagepos,
  .imagescale, .label, .labelloc, .layer, .margin, .nojustify, .ordering, .orientation, .penwidth,
  .peripheries, .pin, .pos, .rects, .regular, .root, .samplepoints, .shape, .shapefile, .showboxes,
  .sides, .skew, .sortv, .style, .target, .tooltip, .vertices, .width, .xlabel, .xlp, .z]

/-- Attributes of edges. -/
def edgeAttributes : List DotAttribute := [
  .url, .arrowhead, .arrowsize, .arrowtail, .classes, .color, .colorscheme, .comment, .constraint,
  .decorate, .dir, .edgeUrl, .edgehref, .edgetarget, .edgetooltip, .fillcolor, .fontcolor,
  .fontname, .fontsize, .headUrl, .headLp, .headclip, .headhref, .headlabel, .headport, .headtarget,
  .headtooltip, .href, .id, .label, .labelUrl, .labelangle, .labeldistance, .labelfloat,
  .labelfontcolor, .labelfontname, .labelfontsize, .labelhref, .labeltarget, .labeltooltip, .layer,
  .len, .lhead, .lp, .ltail, .minlen, .nojustify, .penwidth, .pos, .samehead, .sametail, .showboxes,
  .style, .tailUrl, .tailLp, .tailclip, .tailhref, .taillabel, .tailport, .tailtarget, .tailtooltip,
  .target, .tooltip, .weight, .xlabel, .xlp]

end DotWriter
