/-
`link_extractor.rs`: the links of a page, read off the tokens of its text.

* `PageInfo`, `PageInfoSink`, `PageInfoSink.processAnchor`,
  `PageInfoSink.processToken`, `parsePage`: the module as the source has it;
* `parsePage_eq_ok`: the sink never steers the tokenizer, so the links of a
  page are the fold of the sink over the tokens of its text (`pageTokens`);
* `parsePage_classified`: the internal links of a page are those of its domain.
-/
import MikesCrawler.Model.Externals

namespace MikesCrawler

/-- The links found on a page, those of its own domain and the others. -/
structure PageInfo (Url : Type) where
  internalLinks : List Url := []
  externalLinks : List Url := []
  deriving DecidableEq, Repr

/-- The sink of the tokenizer: the url of the page and the links so far. -/
structure PageInfoSink (Url : Type) where
  url : Url
  output : PageInfo Url := {}

variable {Url : Type} [Externals Url]

namespace PageInfoSink

/-- A link of the page's own domain. -/
def pushInternal (sink : PageInfoSink Url) (url : Url) : PageInfoSink Url :=
  { sink with output := { sink.output with
      internalLinks := sink.output.internalLinks ++ [url] } }

/-- A link of another domain. -/
def pushExternal (sink : PageInfoSink Url) (url : Url) : PageInfoSink Url :=
  { sink with output := { sink.output with
      externalLinks := sink.output.externalLinks ++ [url] } }

/-- Read the link of an anchor, if it has one that resolves. -/
def processAnchor (sink : PageInfoSink Url) (tag : Tag) : Except Error (PageInfoSink Url) :=
  match tag.attrs.find? fun a => a.localName == "href" with
  | none => .error ⟨"No href"⟩
  | some href =>
      match join sink.url href.value with
      | .error e => .error e
      | .ok url =>
          if domain url = domain sink.url then .ok (sink.pushInternal url)
          else .ok (sink.pushExternal url)

/-- The sink's answer to a token: anchors are read, and a failure to read one
is logged and forgotten. -/
def processToken (sink : PageInfoSink Url) : Token × ℕ → TokenSinkResult × PageInfoSink Url
  | (.tag tag, _) =>
      if tag.kind = .startTag ∧ tag.name = "a" then
        match sink.processAnchor tag with
        | .ok sink => (.continue, sink)
        | .error _ => (.continue, sink)
      else (.continue, sink)
  | _ => (.continue, sink)

end PageInfoSink

/-- The links of a page. -/
def parsePage (url : Url) (page : String) : Except Error (PageInfo Url) :=
  let (fed, sink) := (tokenize Url page).run PageInfoSink.processToken ({ url } : PageInfoSink Url)
  if !fed.buffersEmpty || fed.result ≠ .done then
    .error ⟨"parse_page didn't process all of input buffer"⟩
  else
    let (_, sink) := fed.finish.run PageInfoSink.processToken sink
    .ok sink.output

/-! ### A page as the fold of the sink over its tokens -/

/-- The tokens of a page for a sink that always answers `continue`: those of
the text, then those of the end of the input. -/
def pageTokens (Url : Type) [Externals Url] (page : String) : List (Token × ℕ) :=
  (tokenize Url page).asked .continue
    ++ ((tokenize Url page).result .continue).finish.asked .continue

namespace PageInfoSink

/-- The sink never steers the tokenizer. -/
lemma processToken_fst (sink : PageInfoSink Url) (token : Token × ℕ) :
    (sink.processToken token).1 = .continue := by
  obtain ⟨token, line⟩ := token
  cases token with
  | tag tag =>
      rw [processToken]
      split
      · split <;> rfl
      · rfl
  | _ => rfl

/-- An anchor that is read adds one link, on the side its domain decides. -/
lemma processAnchor_cases {sink sink' : PageInfoSink Url} {tag : Tag}
    (h : sink.processAnchor tag = .ok sink') :
    (∃ url, domain url = domain sink.url ∧ sink' = sink.pushInternal url) ∨
    (∃ url, domain url ≠ domain sink.url ∧ sink' = sink.pushExternal url) := by
  rw [processAnchor] at h
  split at h
  · cases h
  · split at h
    · cases h
    · next url _ =>
        split at h
        · next hdom => exact Or.inl ⟨url, hdom, (Except.ok.inj h).symm⟩
        · next hdom => exact Or.inr ⟨url, hdom, (Except.ok.inj h).symm⟩

/-- What a token does to the sink: nothing, or an anchor adds one link. -/
lemma processToken_snd_cases (sink : PageInfoSink Url) (token : Token × ℕ) :
    (sink.processToken token).2 = sink ∨
    (∃ url, domain url = domain sink.url ∧
      (sink.processToken token).2 = sink.pushInternal url) ∨
    (∃ url, domain url ≠ domain sink.url ∧
      (sink.processToken token).2 = sink.pushExternal url) := by
  obtain ⟨token, line⟩ := token
  cases token with
  | tag tag =>
      rw [processToken]
      split
      · split
        · next sink' h => exact Or.inr (processAnchor_cases h)
        · exact Or.inl rfl
      · exact Or.inl rfl
  | _ => exact Or.inl rfl

/-- The links of the sink are on the side their domain decides. -/
structure Classified (sink : PageInfoSink Url) : Prop where
  internal : ∀ link ∈ sink.output.internalLinks, domain link = domain sink.url
  external : ∀ link ∈ sink.output.externalLinks, domain link ≠ domain sink.url

lemma Classified.pushInternal {sink : PageInfoSink Url} (h : sink.Classified) {url : Url}
    (hdom : domain url = domain sink.url) : (sink.pushInternal url).Classified where
  internal := by
    intro link hlink
    have hcases : link ∈ sink.output.internalLinks ∨ link = url := by
      simpa [PageInfoSink.pushInternal] using hlink
    rcases hcases with hold | hnew
    · exact h.internal link hold
    · rw [hnew]
      exact hdom
  external := h.external

lemma Classified.pushExternal {sink : PageInfoSink Url} (h : sink.Classified) {url : Url}
    (hdom : domain url ≠ domain sink.url) : (sink.pushExternal url).Classified where
  internal := h.internal
  external := by
    intro link hlink
    have hcases : link ∈ sink.output.externalLinks ∨ link = url := by
      simpa [PageInfoSink.pushExternal] using hlink
    rcases hcases with hold | hnew
    · exact h.external link hold
    · rw [hnew]
      exact hdom

lemma Classified.processToken {sink : PageInfoSink Url} (h : sink.Classified)
    (token : Token × ℕ) : (sink.processToken token).2.Classified := by
  obtain heq | ⟨url, hdom, heq⟩ | ⟨url, hdom, heq⟩ := sink.processToken_snd_cases token
  · rw [heq]
    exact h
  · rw [heq]
    exact h.pushInternal hdom
  · rw [heq]
    exact h.pushExternal hdom

lemma processToken_url (sink : PageInfoSink Url) (token : Token × ℕ) :
    (sink.processToken token).2.url = sink.url := by
  obtain heq | ⟨url, -, heq⟩ | ⟨url, -, heq⟩ := sink.processToken_snd_cases token
  · rw [heq]
  · simp [heq, pushInternal]
  · simp [heq, pushExternal]

/-- The sink after a list of tokens. -/
def feed (sink : PageInfoSink Url) (tokens : List (Token × ℕ)) : PageInfoSink Url :=
  tokens.foldl (fun sink token => (sink.processToken token).2) sink

lemma feed_url (sink : PageInfoSink Url) (tokens : List (Token × ℕ)) :
    (sink.feed tokens).url = sink.url := by
  induction tokens generalizing sink with
  | nil => rfl
  | cons token tokens ih => exact (ih _).trans (sink.processToken_url token)

lemma Classified.feed {sink : PageInfoSink Url} (h : sink.Classified)
    (tokens : List (Token × ℕ)) : (sink.feed tokens).Classified := by
  induction tokens generalizing sink with
  | nil => exact h
  | cons token tokens ih => exact ih (h.processToken token)

end PageInfoSink

/-- **The links of a page** are the fold of the sink over its tokens. -/
theorem parsePage_eq_ok {url : Url} {page : String} {info : PageInfo Url}
    (h : parsePage url page = .ok info) :
    info = (({ url } : PageInfoSink Url).feed (pageTokens Url page)).output := by
  simp only [parsePage, Dialogue.run_of_const PageInfoSink.processToken_fst] at h
  split at h
  · cases h
  · rw [PageInfoSink.feed, pageTokens, List.foldl_append]
    exact (Except.ok.inj h).symm

/-- **The internal links of a page** have its domain, the external ones do
not. -/
theorem parsePage_classified {url : Url} {page : String} {info : PageInfo Url}
    (h : parsePage url page = .ok info) :
    (∀ link ∈ info.internalLinks, domain link = domain url) ∧
      ∀ link ∈ info.externalLinks, domain link ≠ domain url := by
  have hstart : ({ url } : PageInfoSink Url).Classified := ⟨by simp, by simp⟩
  have hend := hstart.feed (pageTokens Url page)
  rw [parsePage_eq_ok h]
  refine ⟨fun link hl => ?_, fun link hl => ?_⟩
  · rw [hend.internal link hl, PageInfoSink.feed_url]
  · have hne := hend.external link hl
    rwa [PageInfoSink.feed_url] at hne

end MikesCrawler
