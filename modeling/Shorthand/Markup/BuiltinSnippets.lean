import Shorthand.Table

/-!
# Built-in markup snippets

A markup snippet is itself an abbreviation. Several keys may stand for the same one.
-/

namespace Shorthand.Markup.BuiltinSnippets

/-- The snippets of all markup dialects. -/
def common : List (List String × String) := [
   (["a"], "a[href]"),
   (["a:blank"], "a[href='http://$\x7b0\x7d' target='_blank' rel='noopener noreferrer']"),
   (["a:link"], "a[href='http://$\x7b0\x7d']"),
   (["a:mail"], "a[href='mailto:$\x7b0\x7d']"),
   (["a:tel"], "a[href='tel:+$\x7b0\x7d']"),
   (["abbr"], "abbr[title]"),
   (["acr", "acronym"], "acronym[title]"),
   (["base"], "base[href]/"),
   (["basefont"], "basefont/"),
   (["br"], "br/"),
   (["frame"], "frame/"),
   (["hr"], "hr/"),
   (["bdo"], "bdo[dir]"),
   (["bdo:r"], "bdo[dir=rtl]"),
   (["bdo:l"], "bdo[dir=ltr]"),
   (["col"], "col/"),
   (["link"], "link[rel=stylesheet href]/"),
   (["link:css"], "link[href='$\x7b1:style\x7d.css']"),
   (["link:print"], "link[href='$\x7b1:print\x7d.css' media=print]"),
   (["link:favicon"], "link[rel='shortcut icon' type=image/x-icon href='$\x7b1:favicon.ico\x7d']"),
   (["link:mf", "link:manifest"], "link[rel='manifest' href='$\x7b1:manifest.json\x7d']"),
   (["link:touch"], "link[rel=apple-touch-icon href='$\x7b1:favicon.png\x7d']"),
   (["link:rss"],
      "link[rel=alternate type=application/rss+xml title=RSS href='$\x7b1:rss.xml\x7d']"),
   (["link:atom"],
      "link[rel=alternate type=application/atom+xml title=Atom href='$\x7b1:atom.xml\x7d']"),
   (["link:im", "link:import"], "link[rel=import href='$\x7b1:component\x7d.html']"),
   (["meta"], "meta/"),
   (["meta:utf"], "meta[http-equiv=Content-Type content='text/html;charset=UTF-8']"),
   (["meta:vp"],
      "meta[name=viewport content='width=$\x7b1:device-width\x7d, initial-scale=$\x7b2:1.0\x7d'" ++
      "]"),
   (["meta:compat"], "meta[http-equiv=X-UA-Compatible content='$\x7b1:IE=7\x7d']"),
   (["meta:edge"], "meta:compat[content='$\x7b1:ie=edge\x7d']"),
   (["meta:redirect"], "meta[http-equiv=refresh content='0; url=$\x7b1:http://example.com\x7d']"),
   (["meta:refresh"], "meta[http-equiv=refresh content='$\x7b1:5\x7d']"),
   (["meta:kw"], "meta[name=keywords content]"),
   (["meta:desc"], "meta[name=description content]"),
   (["style"], "style"),
   (["script"], "script"),
   (["script:src"], "script[src]"),
   (["script:module"], "script[type=module src]"),
   (["img"], "img[src alt]/"),
   (["img:s", "img:srcset"], "img[srcset src alt]"),
   (["img:z", "img:sizes"], "img[sizes srcset src alt]"),
   (["picture"], "picture"),
   (["src", "source"], "source/"),
   (["src:sc", "source:src"], "source[src type]"),
   (["src:s", "source:srcset"], "source[srcset]"),
   (["src:t", "source:type"], "source[srcset type='$\x7b1:image/\x7d']"),
   (["src:z", "source:sizes"], "source[sizes srcset]"),
   (["src:m", "source:media"], "source[media='($\x7b1:min-width: \x7d)' srcset]"),
   (["iframe"], "iframe[src frameborder=0]"),
   (["embed"], "embed[src type]/"),
   (["object"], "object[data type]"),
   (["param"], "param[name value]/"),
   (["map"], "map[name]"),
   (["area"], "area[shape coords href alt]/"),
   (["area:d"], "area[shape=default]"),
   (["area:c"], "area[shape=circle]"),
   (["area:r"], "area[shape=rect]"),
   (["area:p"], "area[shape=poly]"),
   (["form"], "form[action]"),
   (["form:get"], "form[method=get]"),
   (["form:post"], "form[method=post]"),
   (["label"], "label[for]"),
   (["input"], "input[type=$\x7b1:text\x7d]/"),
   (["inp"], "input[name=$\x7b1\x7d id=$\x7b1\x7d]"),
   (["input:h", "input:hidden"], "input[type=hidden name]"),
   (["input:t", "input:text"], "inp[type=text]"),
   (["input:search"], "inp[type=search]"),
   (["input:email"], "inp[type=email]"),
   (["input:url"], "inp[type=url]"),
   (["input:p", "input:password"], "inp[type=password]"),
   (["input:datetime"], "inp[type=datetime]"),
   (["input:date"], "inp[type=date]"),
   (["input:datetime-local"], "inp[type=datetime-local]"),
   (["input:month"], "inp[type=month]"),
   (["input:week"], "inp[type=week]"),
   (["input:time"], "inp[type=time]"),
   (["input:tel"], "inp[type=tel]"),
   (["input:number"], "inp[type=number]"),
   (["input:color"], "inp[type=color]"),
   (["input:c", "input:checkbox"], "inp[type=checkbox]"),
   (["input:r", "input:radio"], "inp[type=radio]"),
   (["input:range"], "inp[type=range]"),
   (["input:f", "input:file"], "inp[type=file]"),
   (["input:s", "input:submit"], "input[type=submit value]"),
   (["input:i", "input:image"], "input[type=image src alt]"),
   (["input:b", "input:btn", "input:button"], "input[type=button value]"),
   (["input:reset"], "input[type=reset value]"),
   (["select"], "select[name=$\x7b1\x7d id=$\x7b1\x7d]"),
   (["select:d", "select:disabled"], "select[disabled.]"),
   (["opt", "option"], "option[value]"),
   (["textarea"], "textarea[name=$\x7b1\x7d id=$\x7b1\x7d cols=$\x7b2:30\x7d rows=$\x7b3:10\x7d]"),
   (["marquee"], "marquee[behavior direction]"),
   (["menu:c", "menu:context"], "menu[type=context]"),
   (["menu:t", "menu:toolbar"], "menu[type=toolbar]"),
   (["video"], "video[src]"),
   (["audio"], "audio[src]"),
   (["html:xml"], "html[xmlns=http://www.w3.org/1999/xhtml]"),
   (["keygen"], "keygen/"),
   (["command"], "command/"),
   (["btn:s", "button:s", "button:submit"], "button[type=submit]"),
   (["btn:r", "button:r", "button:reset"], "button[type=reset]"),
   (["btn:b", "button:b", "button:button"], "button[type=button]"),
   (["btn:d", "button:d", "button:disabled"], "button[disabled.]"),
   (["fst:d", "fset:d", "fieldset:d", "fieldset:disabled"], "fieldset[disabled.]"),
   (["bq"], "blockquote"),
   (["fig"], "figure"),
   (["figc"], "figcaption"),
   (["pic"], "picture"),
   (["ifr"], "iframe"),
   (["emb"], "embed"),
   (["obj"], "object"),
   (["cap"], "caption"),
   (["colg"], "colgroup"),
   (["fst", "fset"], "fieldset"),
   (["btn"], "button"),
   (["optg"], "optgroup"),
   (["tarea"], "textarea"),
   (["leg"], "legend"),
   (["sect"], "section"),
   (["art"], "article"),
   (["hdr"], "header"),
   (["ftr"], "footer"),
   (["adr"], "address"),
   (["dlg"], "dialog"),
   (["str"], "strong"),
   (["prog"], "progress"),
   (["mn"], "main"),
   (["tem"], "template"),
   (["datal"], "datalist"),
   (["out"], "output"),
   (["det"], "details"),
   (["sum"], "summary"),
   (["data"], "data[value]"),
   (["meter"], "meter[value]"),
   (["time"], "time[datetime]"),
   (["ri:d", "ri:dpr"], "img:s"),
   (["ri:v", "ri:viewport"], "img:z"),
   (["ri:a", "ri:art"], "pic>src:m+img"),
   (["ri:t", "ri:type"], "pic>src:t+img"),
   (["!!!"], "\x7b<!DOCTYPE html>\x7d"),
   (["doc"],
      "html[lang=$\x7blang\x7d]>(head>meta[charset=$\x7bcharset\x7d]+meta:vp+title\x7b$\x7b1:Do" ++
      "cument\x7d\x7d)+body"),
   (["!", "html:5"], "!!!+doc"),
   (["c"], "\x7b<!-- $\x7b0\x7d -->\x7d"),
   (["cc:ie"], "\x7b<!--[if IE]>$\x7b0\x7d<![endif]-->\x7d"),
   (["cc:noie"], "\x7b<!--[if !IE]><!-->$\x7b0\x7d<!--<![endif]-->\x7d")]

/-- The snippets for style sheet transformations, which come before the common ones. -/
def transformations : List (List String × String) := [
   (["tm", "tmatch"], "xsl:template[match mode]"),
   (["tn", "tname"], "xsl:template[name]"),
   (["call"], "xsl:call-template[name]"),
   (["ap"], "xsl:apply-templates[select mode]"),
   (["api"], "xsl:apply-imports"),
   (["imp"], "xsl:import[href]"),
   (["inc"], "xsl:include[href]"),
   (["ch"], "xsl:choose"),
   (["wh", "xsl:when"], "xsl:when[test]"),
   (["ot"], "xsl:otherwise"),
   (["if"], "xsl:if[test]"),
   (["par"], "xsl:param[name]"),
   (["pare"], "xsl:param[name select]"),
   (["var"], "xsl:variable[name]"),
   (["vare"], "xsl:variable[name select]"),
   (["wp"], "xsl:with-param[name select]"),
   (["key"], "xsl:key[name match use]"),
   (["elem"], "xsl:element[name]"),
   (["attr"], "xsl:attribute[name]"),
   (["attrs"], "xsl:attribute-set[name]"),
   (["cp"], "xsl:copy[select]"),
   (["co"], "xsl:copy-of[select]"),
   (["val"], "xsl:value-of[select]"),
   (["for", "each"], "xsl:for-each[select]"),
   (["tex"], "xsl:text"),
   (["com"], "xsl:comment"),
   (["msg"], "xsl:message[terminate=no]"),
   (["fall"], "xsl:fallback"),
   (["num"], "xsl:number[value]"),
   (["nam"], "namespace-alias[stylesheet-prefix result-prefix]"),
   (["pres"], "xsl:preserve-space[elements]"),
   (["strip"], "xsl:strip-space[elements]"),
   (["proc"], "xsl:processing-instruction[name]"),
   (["sort"], "xsl:sort[select order]"),
   (["choose"], "xsl:choose>xsl:when+xsl:otherwise"),
   (["!!!"], "\x7b<?xml version=\"1.0\" encoding=\"UTF-8\"?>\x7d")]

/-- The common snippets by key. -/
def commonTable : Table := Table.empty.insertAliases common

/-- The snippets by key where transformations are written. -/
def transformationTable : Table := commonTable.insertAliases transformations

end Shorthand.Markup.BuiltinSnippets
