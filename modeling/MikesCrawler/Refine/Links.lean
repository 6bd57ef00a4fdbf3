/-
The links of a page as a list: what the sink makes of a sequence of tokens,
said without the sink.

* `tagLink`, `tokenLink`, `links`: the link of a tag, of a token, and those of
  a sequence of tokens in order;
* `PageInfoSink.feed_output`: the sink sorts the links of its tokens by their
  domain and keeps their order;
* `parsePage_of_consumed`: so does `parse_page` with the tokens of its page, if
  the tokenizer takes all of the text.
-/
import MikesCrawler.Model.Markup

namespace MikesCrawler

variable {Url : Type} [Externals Url]

/-- The link of a tag: that of the first `href` of an opening tag `a`, if it
resolves against the page. -/
def tagLink (url : Url) (tag : Tag) : Option Url :=
  if tag.kind = .startTag ∧ tag.name = "a" then
    match tag.attrs.find? fun a => a.localName == "href" with
    | none => none
    | some href => (join url href.value).toOption
  else none

/-- The link of a token, which only a tag can have. -/
def tokenLink (url : Url) : Token → Option Url
  | .tag tag => tagLink url tag
  | _ => none

/-- The links of a sequence of tokens, in order. -/
def links (url : Url) (tokens : List (Token × ℕ)) : List Url :=
  tokens.filterMap fun token => tokenLink url token.1

lemma links_append (url : Url) (tokens tokens' : List (Token × ℕ)) :
    links url (tokens ++ tokens') = links url tokens ++ links url tokens' :=
  List.filterMap_append

/-- Links sorted by their domain: those of the page's own, and the others. -/
def sortLinks (url : Url) (found : List Url) : PageInfo Url :=
  { internalLinks := found.filter fun link => domain link = domain url
    externalLinks := found.filter fun link => domain link ≠ domain url }

/-- One list of links after another, side by side. -/
def PageInfo.append (info info' : PageInfo Url) : PageInfo Url :=
  { internalLinks := info.internalLinks ++ info'.internalLinks
    externalLinks := info.externalLinks ++ info'.externalLinks }

lemma sortLinks_append (url : Url) (found found' : List Url) :
    sortLinks url (found ++ found') = (sortLinks url found).append (sortLinks url found') := by
  simp [sortLinks, PageInfo.append]

namespace PageInfoSink

/-- What `process_anchor` makes of the link of a tag. -/
lemma processAnchor_eq (sink : PageInfoSink Url) {tag : Tag}
    (h : tag.kind = .startTag ∧ tag.name = "a") :
    (∃ e, sink.processAnchor tag = .error e ∧ tagLink sink.url tag = none) ∨
    (∃ link, tagLink sink.url tag = some link ∧ sink.processAnchor tag
      = .ok (if domain link = domain sink.url then sink.pushInternal link
        else sink.pushExternal link)) := by
  rw [processAnchor, tagLink, if_pos h]
  cases hhref : tag.attrs.find? fun a => a.localName == "href" with
  | none => exact Or.inl ⟨_, rfl, rfl⟩
  | some href =>
      cases hjoin : join sink.url href.value with
      | error e => exact Or.inl ⟨e, by simp [hjoin], by simp [hjoin, Except.toOption]⟩
      | ok link =>
          refine Or.inr ⟨link, by simp [hjoin, Except.toOption], ?_⟩
          by_cases hdom : domain link = domain sink.url
          · simp [hjoin, hdom]
          · simp [hjoin, hdom]

/-- What a token adds to the output: its link, on the side of its domain. -/
lemma processToken_output (sink : PageInfoSink Url) (token : Token × ℕ) :
    (sink.processToken token).2.output
      = sink.output.append (sortLinks sink.url (tokenLink sink.url token.1).toList) := by
  have hnone : sink.output = sink.output.append (sortLinks sink.url []) := by
    simp [PageInfo.append, sortLinks]
  obtain ⟨token, line⟩ := token
  cases token with
  | tag tag =>
      rw [processToken, tokenLink]
      by_cases h : tag.kind = .startTag ∧ tag.name = "a"
      · rw [if_pos h]
        rcases sink.processAnchor_eq h with ⟨e, hanchor, hlink⟩ | ⟨link, hlink, hanchor⟩
        · rw [hanchor, hlink]
          exact hnone
        · rw [hanchor, hlink]
          by_cases hdom : domain link = domain sink.url
          · simp [hdom, pushInternal, PageInfo.append, sortLinks]
          · simp [hdom, pushExternal, PageInfo.append, sortLinks]
      · rw [if_neg h, tagLink, if_neg h]
        exact hnone
  | doctype | comment | characters | nullCharacter | eof | parseError => exact hnone

/-- **The sink sorts the links of its tokens**: it adds them to its output on
the side of their domain, in order. -/
theorem feed_output (sink : PageInfoSink Url) (tokens : List (Token × ℕ)) :
    (sink.feed tokens).output
      = sink.output.append (sortLinks sink.url (links sink.url tokens)) := by
  induction tokens generalizing sink with
  | nil => simp [feed, links, sortLinks, PageInfo.append]
  | cons token tokens ih =>
      have hlinks : links sink.url (token :: tokens)
          = (tokenLink sink.url token.1).toList ++ links sink.url tokens := by
        rw [links, links, List.filterMap_cons]
        cases tokenLink sink.url token.1 <;> simp
      have hfeed : sink.feed (token :: tokens) = (sink.processToken token).2.feed tokens := rfl
      rw [hfeed, ih, processToken_output, processToken_url, hlinks, sortLinks_append]
      simp [PageInfo.append]

/-- The output of a new sink. -/
lemma feed_new_output (url : Url) (tokens : List (Token × ℕ)) :
    (({ url } : PageInfoSink Url).feed tokens).output = sortLinks url (links url tokens) := by
  rw [feed_output]
  simp [PageInfo.append]

end PageInfoSink

/-! ### The links of a page -/

/-- `parse_page` sorts the links of the tokens of its page. -/
theorem parsePage_of_consumed {page : String} (h : Consumed Url page) (url : Url) :
    parsePage url page = .ok (sortLinks url (links url (pageTokens Url page))) := by
  obtain ⟨hempty, hdone⟩ := h
  have hfold := PageInfoSink.feed_new_output url (pageTokens Url page)
  rw [PageInfoSink.feed, pageTokens, List.foldl_append] at hfold
  simp only [parsePage, Dialogue.run_of_const PageInfoSink.processToken_fst]
  rw [if_neg (by simp [hempty, hdone]), hfold]
  rfl

end MikesCrawler
