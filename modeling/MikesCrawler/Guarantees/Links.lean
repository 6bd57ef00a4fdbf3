/-
What `parse_page` makes of the anchors of a page, and of the text of its
scripts.

* `links_exact`: the links are those of the page's anchors, sorted by domain,
  with none lost, invented or moved;
* `MarkupLaws.parsePage_eq`, `MarkupLaws.parsePage_withScript`: the links of a
  page through the reading of its text, and where a script stands in it;
* `Inert`: a script that leaves nothing behind when its text is read as markup;
* `script_ignored_iff`: a script goes unnoticed exactly if it is inert.
-/
import MikesCrawler.Refine.Links
import MikesCrawler.Model.PlainMarkup

namespace MikesCrawler

variable {Url : Type} [Externals Url]

/-! ### Anchors -/

/-- **Link extraction is exact**: the output of the sink is the list of the
links of its tokens, each on the side of its domain, so that a token without a
link changes nothing and outputs concatenate; and `parse_page` gives that of the
tokens of its page, if the tokenizer takes all of the text. -/
theorem links_exact (url : Url) (tokens tokens' : List (Token × ℕ)) :
    (({ url } : PageInfoSink Url).feed tokens).output
      = { internalLinks := (links url tokens).filter fun link => domain link = domain url
          externalLinks := (links url tokens).filter fun link => domain link ≠ domain url } ∧
    (({ url } : PageInfoSink Url).feed (tokens ++ tokens')).output
      = (({ url } : PageInfoSink Url).feed tokens).output.append
          (({ url } : PageInfoSink Url).feed tokens').output ∧
    (∀ token : Token × ℕ, tokenLink url token.1 = none →
      (({ url } : PageInfoSink Url).feed (tokens ++ token :: tokens')).output
        = (({ url } : PageInfoSink Url).feed (tokens ++ tokens')).output) ∧
    ∀ page, Consumed Url page → parsePage url page = .ok
      { internalLinks := (links url (pageTokens Url page)).filter
          fun link => domain link = domain url
        externalLinks := (links url (pageTokens Url page)).filter
          fun link => domain link ≠ domain url } := by
  refine ⟨PageInfoSink.feed_new_output url tokens, ?_, fun token hnone => ?_,
    fun page h => parsePage_of_consumed h url⟩
  · simp only [PageInfoSink.feed_new_output, links_append, sortLinks_append]
  · have hskip : links url (token :: tokens') = links url tokens' :=
      List.filterMap_cons_none hnone
    simp only [PageInfoSink.feed_new_output, links_append, hskip]

/-- A page with four anchors: one of its own domain, one whose `href` does not
resolve, one without, and one of no domain. -/
theorem links_exact_page :
    parsePage (SiteUrl.page "/") ("<p><a class=x href='/b'>b</a><a href=\"https://\">c</a>" ++
        "<a name=d>d</a><A HREF=http://10.0.0.2/>e</A>")
      = .ok { internalLinks := [SiteUrl.page "/b"]
              externalLinks := [⟨PlainUrl.numbered 2 "/"⟩] } :=
  ((links_exact (SiteUrl.page "/") [] []).2.2.2 _ (Markup.laws.consumed _)).trans (by decide)

/-! ### The links of a page through its text -/

/-- The links of tokens are those of the tags among them. -/
lemma links_eq_tags (url : Url) (tokens : List (Token × ℕ)) :
    links url tokens = (tokens.filterMap fun token => token.1.tag?).filterMap (tagLink url) := by
  rw [links, List.filterMap_filterMap]
  refine List.filterMap_congr fun token _ => ?_
  cases token.1 <;> rfl

/-- Each link is on one of the two sides, so that none is lost. -/
lemma length_eq_of_sortLinks_eq {url : Url} {found found' : List Url}
    (h : sortLinks url found = sortLinks url found') : found.length = found'.length := by
  have hlength : ∀ found : List Url, found.length = (sortLinks url found).internalLinks.length
      + (sortLinks url found).externalLinks.length := by
    intro found
    rw [found.length_eq_length_filter_add fun link => decide (domain link = domain url)]
    simp [sortLinks]
  rw [hlength found, hlength found', h]

variable {reader : MarkupReader}

/-- A script element with the text around it. -/
def withScript (before script after : String) : String :=
  before ++ "<script>" ++ script ++ "</script>" ++ after

namespace MarkupLaws

/-- The links of a page are those of the tags read from its text. -/
lemma parsePage_eq (laws : MarkupLaws Url reader) (url : Url) (page : String) :
    parsePage url page
      = .ok (sortLinks url ((reader.read reader.data page).1.filterMap (tagLink url))) := by
  rw [parsePage_of_consumed (laws.consumed page) url, links_eq_tags, laws.tags_eq]

/-- The links of a text that reads on from ordinary markup text are those of
its two parts. -/
lemma parsePage_append (laws : MarkupLaws Url reader) (url : Url) {before : String}
    (hdata : (reader.read reader.data before).2 = reader.data) (after : String) :
    parsePage url (before ++ after)
      = .ok (sortLinks url ((reader.read reader.data before).1.filterMap (tagLink url) ++
          (reader.read reader.data after).1.filterMap (tagLink url))) := by
  rw [laws.parsePage_eq, laws.read_append, hdata, List.filterMap_append]

/-- The links of a text with a script are those before it, those read from its
text, and those read after it from the state its end tag leads to. -/
lemma parsePage_withScript (laws : MarkupLaws Url reader) (url : Url) {before : String}
    (hdata : (reader.read reader.data before).2 = reader.data) (script after : String) :
    parsePage url (withScript before script after)
      = .ok (sortLinks url ((reader.read reader.data before).1.filterMap (tagLink url) ++
          ((reader.read reader.data (script ++ "</script>")).1.filterMap (tagLink url) ++
            (reader.read (reader.read reader.data (script ++ "</script>")).2
              after).1.filterMap (tagLink url)))) := by
  have htext : withScript before script after
      = before ++ ("<script>" ++ ((script ++ "</script>") ++ after)) := by
    simp only [withScript, String.append_assoc]
  have hscript : tagLink url { kind := .startTag, name := "script", attrs := [] } = none :=
    if_neg (by decide)
  rw [htext, laws.parsePage_append url hdata, laws.read_append _ "<script>", laws.script_tag,
    laws.read_append _ (script ++ "</script>")]
  simp only [List.filterMap_append, List.filterMap_cons_none hscript, List.filterMap_nil,
    List.nil_append]

/-- The anchor without quotes has a link. -/
lemma anchor_tagLink (laws : MarkupLaws Url reader) (url : Url) :
    ∃ link, tagLink url anchorTag = some link := by
  obtain ⟨link, hlink⟩ := laws.anchor_resolves url
  refine ⟨link, ?_⟩
  simp [tagLink, anchorTag, hlink, Except.toOption]

end MarkupLaws

/-! ### Scripts -/

/-- A script that leaves nothing behind when its text, up to the end tag that
closes it, is read as markup: that leads back to ordinary text, and none of the
tags in it has a link. -/
structure Inert (reader : MarkupReader) (url : Url) (script : String) : Prop where
  closed : (reader.read reader.data (script ++ "</script>")).2 = reader.data
  linkless : ∀ tag ∈ (reader.read reader.data (script ++ "</script>")).1, tagLink url tag = none

/-- A script that leads back to ordinary text goes unnoticed where it stands
exactly if its tags have no link. -/
lemma MarkupLaws.script_ignored_at_iff (laws : MarkupLaws Url reader) (url : Url)
    {before script : String} (hdata : (reader.read reader.data before).2 = reader.data)
    (hclosed : (reader.read reader.data (script ++ "</script>")).2 = reader.data)
    (after : String) :
    parsePage url (withScript before script after) = parsePage url (before ++ after) ↔
      ∀ tag ∈ (reader.read reader.data (script ++ "</script>")).1, tagLink url tag = none := by
  rw [laws.parsePage_withScript url hdata, laws.parsePage_append url hdata, hclosed,
    ← List.filterMap_eq_nil_iff]
  constructor
  · intro heq
    have hlen := length_eq_of_sortLinks_eq (Except.ok.inj heq)
    simp only [List.length_append] at hlen
    exact List.length_eq_zero_iff.mp (by omega)
  · intro hnil
    rw [hnil, List.nil_append]

/-- **Where script text leaves no links**: a script goes unnoticed wherever it
stands in a page exactly if it is inert; and one that leads back to ordinary
text goes unnoticed at any one place only if it is. -/
theorem script_ignored_iff (laws : MarkupLaws Url reader) (url : Url) (script : String) :
    ((∀ before after, (reader.read reader.data before).2 = reader.data →
        parsePage url (withScript before script after) = parsePage url (before ++ after)) ↔
      Inert reader url script) ∧
    ∀ before after, (reader.read reader.data before).2 = reader.data →
      (reader.read reader.data (script ++ "</script>")).2 = reader.data →
      (parsePage url (withScript before script after) = parsePage url (before ++ after) ↔
        Inert reader url script) := by
  have hempty : (reader.read reader.data "").2 = reader.data := by rw [laws.read_empty]
  constructor
  · constructor
    · intro hignored
      -- an anchor after the script must be seen, so nothing is left open
      have hclosed : (reader.read reader.data (script ++ "</script>")).2 = reader.data := by
        refine (laws.anchor_swallowed script).resolve_right fun hswallowed => ?_
        obtain ⟨link, hlink⟩ := laws.anchor_tagLink url
        have hnothing := hignored "" "" hempty
        have hanchor := hignored "" anchorText hempty
        rw [laws.parsePage_withScript url hempty, laws.parsePage_append url hempty]
          at hnothing hanchor
        have hlen := length_eq_of_sortLinks_eq (Except.ok.inj hnothing)
        have hlen' := length_eq_of_sortLinks_eq (Except.ok.inj hanchor)
        simp only [laws.read_empty, List.filterMap_nil, List.length_append, List.length_nil] at hlen
        simp only [laws.read_empty, hswallowed, laws.anchor_tag, List.filterMap_cons_some hlink,
          List.filterMap_nil, List.length_append, List.length_cons, List.length_nil] at hlen'
        omega
      exact ⟨hclosed, (laws.script_ignored_at_iff url hempty hclosed "").mp (hignored "" "" hempty)⟩
    · rintro ⟨hclosed, hlinkless⟩ before after hdata
      exact (laws.script_ignored_at_iff url hdata hclosed after).mpr hlinkless
  · intro before after hdata hclosed
    rw [laws.script_ignored_at_iff url hdata hclosed after]
    exact ⟨fun hlinkless => ⟨hclosed, hlinkless⟩, Inert.linkless⟩

/-- A script without markup goes unnoticed in a page with an anchor. -/
theorem script_ignored_alert :
    parsePage (SiteUrl.page "/") (withScript "<p>" "if (a < 1) alert(\"a\")" "<a href=/b>b</a></p>")
      = parsePage (SiteUrl.page "/") ("<p>" ++ "<a href=/b>b</a></p>") :=
  (script_ignored_iff Markup.laws (SiteUrl.page "/") "if (a < 1) alert(\"a\")").1.mpr
    ⟨rfl, by decide⟩ "<p>" "<a href=/b>b</a></p>" rfl

/-- A script with an anchor in a string literal does not: the page gets a link
that no anchor of it has. -/
theorem script_text_links :
    ¬ "</script".toList <:+: "write('<a href=\"/x\">')".toList ∧
    (Markup.reader.read Markup.reader.data "<p>").2 = Markup.reader.data ∧
    parsePage (SiteUrl.page "/") (withScript "<p>" "write('<a href=\"/x\">')" "</p>")
      = .ok { internalLinks := [SiteUrl.page "/x"] } ∧
    parsePage (SiteUrl.page "/") (withScript "<p>" "write('<a href=\"/x\">')" "</p>")
      ≠ parsePage (SiteUrl.page "/") ("<p>" ++ "</p>") := by
  have hwith : parsePage (SiteUrl.page "/") (withScript "<p>" "write('<a href=\"/x\">')" "</p>")
      = .ok { internalLinks := [SiteUrl.page "/x"] } := by decide
  have hwithout : parsePage (SiteUrl.page "/") ("<p>" ++ "</p>") = .ok {} := by decide
  refine ⟨by decide, rfl, hwith, ?_⟩
  rw [hwith, hwithout]
  decide

end MikesCrawler
