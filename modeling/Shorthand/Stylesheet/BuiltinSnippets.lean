import Shorthand.Table

/-!
# Built-in stylesheet snippets

A stylesheet snippet is a property with alternative values, or raw text. Several keys may
stand for the same one.
-/

namespace Shorthand.Stylesheet.BuiltinSnippets

/-- The snippets of all stylesheet dialects. -/
def common : List (List String × String) := [
   (["@f"], "@font-face \x7b\n\tfont-family: $\x7b1\x7d;\n\tsrc: url($\x7b2\x7d);\n\x7d"),
   (["@i", "@import"], "@import url($\x7b0\x7d);"),
   (["@kf"], "@keyframes $\x7b1:identifier\x7d \x7b\n\t$\x7b0\x7d\n\x7d"),
   (["@m", "@media"], "@media $\x7b1:screen\x7d \x7b\n\t$\x7b0\x7d\n\x7d"),
   (["ac"],
      "align-content:start|end|flex-start|flex-end|center|space-between|space-around|stretch|sp" ++
      "ace-evenly"),
   (["ai"], "align-items:start|end|flex-start|flex-end|center|baseline|stretch"),
   (["anim"],
      "animation:$\x7b1:name\x7d $\x7b2:duration\x7d $\x7b3:timing-function\x7d $\x7b4:delay" ++
      "\x7d $\x7b5:iteration-count\x7d $\x7b6:direction\x7d $\x7b7:fill-mode\x7d"),
   (["animdel"], "animation-delay:time"),
   (["animdir"], "animation-direction:normal|reverse|alternate|alternate-reverse"),
   (["animdur"], "animation-duration:$\x7b1:0\x7ds"),
   (["animfm"], "animation-fill-mode:both|forwards|backwards"),
   (["animic"], "animation-iteration-count:1|infinite"),
   (["animn"], "animation-name"),
   (["animps"], "animation-play-state:running|paused"),
   (["animtf"],
      "animation-timing-function:linear|ease|ease-in|ease-out|ease-in-out|cubic-bezier($\x7b1:0" ++
      ".1\x7d, $\x7b2:0.7\x7d, $\x7b3:1.0\x7d, $\x7b3:0.1\x7d)"),
   (["ap"], "appearance:none"),
   (["as"], "align-self:start|end|auto|flex-start|flex-end|center|baseline|stretch"),
   (["b"], "bottom"),
   (["bd"], "border:$\x7b1:1px\x7d $\x7b2:solid\x7d $\x7b3:#000\x7d"),
   (["bdb"], "border-bottom:$\x7b1:1px\x7d $\x7b2:solid\x7d $\x7b3:#000\x7d"),
   (["bdbc"], "border-bottom-color:$\x7b1:#000\x7d"),
   (["bdbi"], "border-bottom-image:url($\x7b0\x7d)"),
   (["bdblrs"], "border-bottom-left-radius"),
   (["bdbrrs"], "border-bottom-right-radius"),
   (["bdbs"], "border-bottom-style"),
   (["bdbw"], "border-bottom-width"),
   (["bdc"], "border-color:$\x7b1:#000\x7d"),
   (["bdcl"], "border-collapse:collapse|separate"),
   (["bdi"], "border-image:url($\x7b0\x7d)"),
   (["bdl"], "border-left:$\x7b1:1px\x7d $\x7b2:solid\x7d $\x7b3:#000\x7d"),
   (["bdlc"], "border-left-color:$\x7b1:#000\x7d"),
   (["bdls"], "border-left-style"),
   (["bdlw"], "border-left-width"),
   (["bdr"], "border-right:$\x7b1:1px\x7d $\x7b2:solid\x7d $\x7b3:#000\x7d"),
   (["bdrc"], "border-right-color:$\x7b1:#000\x7d"),
   (["bdrs"], "border-radius"),
   (["bdrst"], "border-right-style"),
   (["bdrw"], "border-right-width"),
   (["bds"], "border-style:none|hidden|dotted|dashed|solid|double|groove|ridge|inset|outset"),
   (["bdsp"], "border-spacing"),
   (["bdt"], "border-top:$\x7b1:1px\x7d $\x7b2:solid\x7d $\x7b3:#000\x7d"),
   (["bdtc"], "border-top-color:$\x7b1:#000\x7d"),
   (["bdtlrs"], "border-top-left-radius"),
   (["bdtrrs"], "border-top-right-radius"),
   (["bdts"], "border-top-style"),
   (["bdtw"], "border-top-width"),
   (["bdw"], "border-width"),
   (["bfv"], "backface-visibility:hidden|visible"),
   (["bg"], "background:$\x7b1:#000\x7d"),
   (["bg:n"], "background: none"),
   (["bga"], "background-attachment:fixed|scroll"),
   (["bgc"], "background-color:$\x7b1:#fff\x7d"),
   (["bgcp"], "background-clip:padding-box|border-box|content-box|no-clip"),
   (["bgi"], "background-image:url($\x7b0\x7d)"),
   (["bgo"], "background-origin:padding-box|border-box|content-box"),
   (["bgp"], "background-position:$\x7b1:0\x7d $\x7b2:0\x7d"),
   (["bgpx"], "background-position-x"),
   (["bgpy"], "background-position-y"),
   (["bgr"], "background-repeat:no-repeat|repeat-x|repeat-y|space|round"),
   (["bgsz"], "background-size:contain|cover"),
   (["bxsh"],
      "box-shadow:$\x7b1:inset \x7d$\x7b2:hoff\x7d $\x7b3:voff\x7d $\x7b4:blur\x7d $\x7b5:#000" ++
      "\x7d|none"),
   (["bxsz"], "box-sizing:border-box|content-box"),
   (["c"], "color:$\x7b1:#000\x7d"),
   (["cr"], "color:rgb($\x7b1:0\x7d, $\x7b2:0\x7d, $\x7b3:0\x7d)"),
   (["cra"], "color:rgba($\x7b1:0\x7d, $\x7b2:0\x7d, $\x7b3:0\x7d, $\x7b4:.5\x7d)"),
   (["cl"], "clear:both|left|right|none"),
   (["cm"], "/* $\x7b0\x7d */"),
   (["cnt"],
      "content:'$\x7b0\x7d'|normal|open-quote|no-open-quote|close-quote|no-close-quote|attr($" ++
      "\x7b0\x7d)|counter($\x7b0\x7d)|counters($\x7b0\x7d)"),
   (["coi"], "counter-increment"),
   (["colm"], "columns"),
   (["colmc"], "column-count"),
   (["colmf"], "column-fill"),
   (["colmg"], "column-gap"),
   (["colmr"], "column-rule"),
   (["colmrc"], "column-rule-color"),
   (["colmrs"], "column-rule-style"),
   (["colmrw"], "column-rule-width"),
   (["colms"], "column-span"),
   (["colmw"], "column-width"),
   (["cor"], "counter-reset"),
   (["cp"], "clip:auto|rect($\x7b1:top\x7d $\x7b2:right\x7d $\x7b3:bottom\x7d $\x7b4:left\x7d)"),
   (["cps"], "caption-side:top|bottom"),
   (["cur"], "cursor:pointer|auto|default|crosshair|hand|help|move|text"),
   (["d"],
      "display:block|none|flex|inline-flex|inline|inline-block|grid|inline-grid|subgrid|list-it" ++
      "em|run-in|contents|table|inline-table|table-caption|table-column|table-column-group|tabl" ++
      "e-header-group|table-footer-group|table-row|table-row-group|table-cell|ruby|ruby-base|ru" ++
      "by-base-group|ruby-text|ruby-text-group"),
   (["ec"], "empty-cells:show|hide"),
   (["f"], "font:$\x7b1:1em\x7d $\x7b2:sans-serif\x7d"),
   (["fd"], "font-display:auto|block|swap|fallback|optional"),
   (["ff"], "font-family:serif|sans-serif|cursive|fantasy|monospace"),
   (["fl"], "float:left|right|none"),
   (["fs"], "font-style:italic|normal|oblique"),
   (["fsm"], "font-smoothing:antialiased|subpixel-antialiased|none"),
   (["fst"],
      "font-stretch:normal|ultra-condensed|extra-condensed|condensed|semi-condensed|semi-expand" ++
      "ed|expanded|extra-expanded|ultra-expanded"),
   (["fv"], "font-variant:normal|small-caps"),
   (["fw"], "font-weight:normal|bold|bolder|lighter"),
   (["fx"], "flex"),
   (["fxb"], "flex-basis:fill|max-content|min-content|fit-content|content"),
   (["fxd"], "flex-direction:row|row-reverse|column|column-reverse"),
   (["fxf"], "flex-flow"),
   (["fxg"], "flex-grow"),
   (["fxsh"], "flex-shrink"),
   (["fxw"], "flex-wrap:nowrap|wrap|wrap-reverse"),
   (["fsz"], "font-size"),
   (["fsza"], "font-size-adjust"),
   (["gtc"], "grid-template-columns:repeat($\x7b0\x7d)|minmax()"),
   (["gtr"], "grid-template-rows:repeat($\x7b0\x7d)|minmax()"),
   (["gta"], "grid-template-areas"),
   (["gt"], "grid-template"),
   (["gg"], "grid-gap"),
   (["gcg"], "grid-column-gap"),
   (["grg"], "grid-row-gap"),
   (["gac"], "grid-auto-columns:auto|minmax()"),
   (["gar"], "grid-auto-rows:auto|minmax()"),
   (["gaf"], "grid-auto-flow:row|column|dense"),
   (["gd"], "grid"),
   (["gc"], "grid-column"),
   (["gcs"], "grid-column-start"),
   (["gce"], "grid-column-end"),
   (["gr"], "grid-row"),
   (["grs"], "grid-row-start"),
   (["gre"], "grid-row-end"),
   (["ga"], "grid-area"),
   (["h"], "height"),
   (["jc"],
      "justify-content:start|end|stretch|flex-start|flex-end|center|space-between|space-around|" ++
      "space-evenly"),
   (["ji"], "justify-items:start|end|center|stretch"),
   (["js"], "justify-self:start|end|center|stretch"),
   (["l"], "left"),
   (["lg"], "background-image:linear-gradient($\x7b1\x7d)"),
   (["lh"], "line-height"),
   (["lis"], "list-style"),
   (["lisi"], "list-style-image"),
   (["lisp"], "list-style-position:inside|outside"),
   (["list"],
      "list-style-type:disc|circle|square|decimal|decimal-leading-zero|lower-roman|upper-roman"),
   (["lts"], "letter-spacing:normal"),
   (["m"], "margin"),
   (["mah"], "max-height"),
   (["maw"], "max-width"),
   (["mb"], "margin-bottom"),
   (["mih"], "min-height"),
   (["miw"], "min-width"),
   (["ml"], "margin-left"),
   (["mr"], "margin-right"),
   (["mt"], "margin-top"),
   (["ol"], "outline"),
   (["olc"], "outline-color:$\x7b1:#000\x7d|invert"),
   (["olo"], "outline-offset"),
   (["ols"], "outline-style:none|dotted|dashed|solid|double|groove|ridge|inset|outset"),
   (["olw"], "outline-width:thin|medium|thick"),
   (["op", "opa"], "opacity"),
   (["ord"], "order"),
   (["ov"], "overflow:hidden|visible|scroll|auto"),
   (["ovx"], "overflow-x:hidden|visible|scroll|auto"),
   (["ovy"], "overflow-y:hidden|visible|scroll|auto"),
   (["p"], "padding"),
   (["pb"], "padding-bottom"),
   (["pgba"], "page-break-after:auto|always|left|right"),
   (["pgbb"], "page-break-before:auto|always|left|right"),
   (["pgbi"], "page-break-inside:auto|avoid"),
   (["pl"], "padding-left"),
   (["pos"], "position:relative|absolute|fixed|static|sticky"),
   (["pr"], "padding-right"),
   (["pt"], "padding-top"),
   (["q"], "quotes"),
   (["r"], "right"),
   (["rsz"], "resize:none|both|horizontal|vertical"),
   (["t"], "top"),
   (["ta"], "text-align:left|center|right|justify"),
   (["tal"], "text-align-last:left|center|right"),
   (["tbl"], "table-layout:fixed"),
   (["td"], "text-decoration:none|underline|overline|line-through"),
   (["ti"], "text-indent"),
   (["tov"], "text-overflow:ellipsis|clip"),
   (["trf"],
      "transform:$\x7b1\x7d|skewX($\x7b1:angle\x7d)|skewY($\x7b1:angle\x7d)|scale($\x7b1:x\x7d," ++
      " $\x7b2:y\x7d)|scaleX($\x7b1:x\x7d)|scaleY($\x7b1:y\x7d)|rotate($\x7b1:angle\x7d)|transl" ++
      "ate($\x7b1:x\x7d, $\x7b2:y\x7d)|translateX($\x7b1:x\x7d)|translateY($\x7b1:y\x7d)"),
   (["trfo"], "transform-origin"),
   (["trfs"], "transform-style:preserve-3d"),
   (["trs"], "transition:$\x7b1:prop\x7d $\x7b2:time\x7d"),
   (["trsde"], "transition-delay:$\x7b1:time\x7d"),
   (["trsdu"], "transition-duration:$\x7b1:time\x7d"),
   (["trsp"], "transition-property:$\x7b1:prop\x7d"),
   (["trstf"], "transition-timing-function:$\x7b1:fn\x7d"),
   (["tsh"], "text-shadow:$\x7b1:hoff\x7d $\x7b2:voff\x7d $\x7b3:blur\x7d $\x7b4:#000\x7d"),
   (["tt"], "text-transform:uppercase|lowercase|capitalize|none"),
   (["us"], "user-select:none"),
   (["v"], "visibility:hidden|visible|collapse"),
   (["va"], "vertical-align:top|super|text-top|middle|baseline|bottom|text-bottom|sub"),
   (["w"], "width"),
   (["whs"], "white-space:nowrap|pre|pre-wrap|pre-line|normal"),
   (["wob"], "word-break:normal|keep-all|break-all"),
   (["wos"], "word-spacing"),
   (["wow"], "word-wrap:none|unrestricted|suppress|break-word|normal"),
   (["z"], "z-index"),
   (["zm"], "zoom:1")]

/-- The snippets by key. -/
def table : Table := Table.empty.insertAliases common

end Shorthand.Stylesheet.BuiltinSnippets
