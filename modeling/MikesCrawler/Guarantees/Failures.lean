/-
What the failure of a page does to its crawl.

* `failsAt`, `blank`: whether a page fails, in its fetch, its parse task or its
  parser; and the site in which what fails is a page without links;
* `FailuresStay`: a failure stays on its page: the loop returns, each page that
  failed is recorded with an error, and everything else is as on the site
  without links there;
* `Run.faulty_of_error`: a loop ends in an error only if a lock was poisoned or
  a page failed after its fetch;
* `failures_stay_iff`: a crawl whose loop ends keeps failures on their pages
  exactly if no page that can be reached fails in its parse task or its parser.
-/
import MikesCrawler.Guarantees.Reach

open Machine

namespace MikesCrawler

variable {Url : Type} [DecidableEq Url] [Externals Url]

/-! ### Failing pages -/

/-- Whether a page fails, given the answer of the client and the end of its
parse task. -/
def failsAt (url : Url) : Except Error (HttpResponse Url) → Except Error Unit → Bool
  | .error _, _ => true
  | .ok (.html _), .error _ => true
  | .ok (.html body), .ok () =>
      match parsePage url body with
      | .error _ => true
      | .ok _ => false
  | .ok _, _ => false

/-- The site in which the pages that fail are pages without links. -/
def blank (get : Url → Except Error (HttpResponse Url)) (parse : Url → Except Error Unit)
    (url : Url) : Except Error (HttpResponse Url) :=
  if failsAt url (get url) (parse url) then .ok (.otherContent "") else get url

variable {get : Url → Except Error (HttpResponse Url)} {parse : Url → Except Error Unit}
variable {robots : Option String} {seed : Url} {es : List (Event Url)} {s : CrawlInner Url}

/-- **Failures stay on their pages**: the loop returns; the entries are those of
the urls that can be reached when what fails has no links; those with an error
are the allowed ones that fail; and the others have what they have there. -/
structure FailuresStay (get : Url → Except Error (HttpResponse Url))
    (parse : Url → Except Error Unit) (robots : Option String) (seed : Url)
    (s : CrawlInner Url) : Prop where
  returns : s.outcome = some (.ok ())
  reached : ∀ url, url ∈ s.crawl.data.result.pages ↔ SiteReach (blank get parse) robots seed url
  failed : ∀ url, (∃ msg, s.entry url = some (.error msg)) ↔
    SiteReach (blank get parse) robots seed url ∧ robotsAllow robots url = true ∧
      failsAt url (get url) (parse url) = true
  others : ∀ url, SiteReach (blank get parse) robots seed url →
    (robotsAllow robots url = true → failsAt url (get url) (parse url) = false) →
    s.entry url = if robotsAllow robots url then pageResult url (blank get parse url)
      else some .excludedByRobotsTxt

/-- No page that can be reached fails in its parse task or its parser. -/
def PagesParse (get : Url → Except Error (HttpResponse Url)) (parse : Url → Except Error Unit)
    (robots : Option String) (seed : Url) : Prop :=
  ∀ url body, SiteReach (blank get parse) robots seed url → robotsAllow robots url = true →
    get url = .ok (.html body) → parse url = .ok () ∧ ∃ info, parsePage url body = .ok info

/-! ### How a loop ends in an error -/

omit [DecidableEq Url] in
/-- A step that fails is one that was parsed. -/
lemma Event.parsed_of_visit_none {event : Event Url} {step : Url × StepState}
    (hends : event.ends = some step) (hvisit : event.visit = none) :
    ∃ url body joined, event = .parsed url body joined ∧
      (joined = .ok () → ∃ e, parsePage url body = .error e) := by
  match event with
  | .got _ (.ok (.html _)) | .start _ | .next | .poison => cases hends
  | .got _ (.ok (.serverFailure _ _)) | .got _ (.ok (.redirect _ _))
  | .got _ (.ok (.otherContent _)) | .got _ (.error _) => cases hvisit
  | .parsed url body (.error e) =>
      refine ⟨url, body, .error e, rfl, fun h => ?_⟩
      cases h
  | .parsed url body (.ok ()) =>
      refine ⟨url, body, .ok (), rfl, fun _ => ?_⟩
      simp only [visit, visitOf] at hvisit
      split at hvisit
      · cases hvisit
      · next e he => exact ⟨e, he⟩

/-- The run has met a poisoned lock or a step that failed. -/
def Faulty (es : List (Event Url)) : Prop :=
  .poison ∈ es ∨ ∃ event ∈ es, ∃ step, event.ends = some step ∧ event.visit = none

omit [DecidableEq Url] in
lemma Faulty.mono {es fs : List (Event Url)} (h : Faulty es) : Faulty (es ++ fs) := by
  rcases h with h | ⟨event, hmem, rest⟩
  · exact Or.inl (List.mem_append_left _ h)
  · exact Or.inr ⟨event, List.mem_append_left _ hmem, rest⟩

/-- **A loop ends in an error only for a reason**: a poisoned lock, or a step
that failed. -/
theorem Run.faulty_of_error (h : Run robots seed es s) :
    ((∃ url e, (url, .error e) ∈ s.completed) ∨ ∃ e, s.outcome = some (.error e)) →
      Faulty es := by
  refine Run.induction (P := fun es s =>
    ((∃ url e, (url, .error e) ∈ s.completed) ∨ ∃ e, s.outcome = some (.error e)) →
      Faulty es) ?_ ?_ h
  · rintro (⟨url, e, hmem⟩ | ⟨e, hout⟩)
    · simp [CrawlInner.begin] at hmem
    · cases hout
  · intro es event s s' hs _ ih ht hbad
    cases ht with
    | start | suspend | poison => exact (ih hbad).mono
    | settle running =>
        rcases hbad with ⟨url', e, hmem⟩ | hout
        · rcases List.mem_append.mp hmem with hmem | hmem
          · exact (ih (Or.inl ⟨url', e, hmem⟩)).mono
          · cases List.mem_singleton.mp hmem
        · exact (ih (Or.inr hout)).mono
    | fail running ends why mem =>
        rcases why with hp | hv
        · exact Or.inl (List.mem_append_left _ (hs.poison_mem hp))
        · exact Or.inr ⟨event, by simp, _, ends, hv⟩
    | resume running consumed =>
        rcases hbad with ⟨url', e, hmem⟩ | hout
        · refine (ih (Or.inl ⟨url', e, ?_⟩)).mono
          rw [consumed]
          exact List.mem_cons_of_mem _ hmem
        · exact (ih (Or.inr hout)).mono
    | stop =>
        rcases hbad with ⟨url', e, hmem⟩ | ⟨e, hout⟩
        · simp [CrawlInner.returns] at hmem
        · cases hout
    | @abort url result completed err running consumed why =>
        rcases why with hp | hres
        · exact Or.inl (List.mem_append_left _ (hs.poison_mem hp))
        · refine (ih (Or.inl ⟨url, err, ?_⟩)).mono
          rw [consumed, hres]
          exact List.mem_cons_self

/-! ### The site without the links of what fails -/

omit [DecidableEq Url] in
lemma blank_of_fails {url : Url} (h : failsAt url (get url) (parse url) = true) :
    blank get parse url = .ok (.otherContent "") := if_pos h

omit [DecidableEq Url] in
lemma blank_of_not_fails {url : Url} (h : failsAt url (get url) (parse url) = false) :
    blank get parse url = get url := if_neg (by simp [h])

omit [DecidableEq Url] in
/-- A page with links or a redirect of the blanked site is one of the site. -/
lemma blank_eq {url : Url} {response : HttpResponse Url}
    (h : blank get parse url = .ok response) (hne : response ≠ .otherContent "") :
    failsAt url (get url) (parse url) = false ∧ get url = .ok response := by
  cases hfails : failsAt url (get url) (parse url) with
  | true =>
      rw [blank_of_fails hfails] at h
      exact absurd (Except.ok.inj h).symm hne
  | false =>
      rw [blank_of_not_fails hfails] at h
      exact ⟨rfl, h⟩

omit [DecidableEq Url] in
/-- Blanking pages makes nothing new reachable. -/
lemma siteReach_of_blank {url : Url} (h : SiteReach (blank get parse) robots seed url) :
    SiteReach get robots seed url := by
  induction h with
  | seed => exact SiteReach.seed
  | link _ allowed page parses mem ih =>
      exact SiteReach.link ih allowed (blank_eq page (by simp)).2 parses mem
  | redirect _ allowed page same ih =>
      exact SiteReach.redirect ih allowed (blank_eq page (by simp)).2 same

omit [DecidableEq Url] in
lemma failsAt_html {url : Url} {body : String} {info : PageInfo Url}
    (hparse : parse url = .ok ()) (hinfo : parsePage url body = .ok info) :
    failsAt url (.ok (.html body)) (parse url) = false := by
  rw [hparse, failsAt, hinfo]

omit [DecidableEq Url] in
lemma failsAt_redirect (url : Url) (status : Status) (target : Url) (joined : Except Error Unit) :
    failsAt url (.ok (.redirect status target)) joined = false := by
  cases joined <;> rfl

omit [DecidableEq Url] in
/-- How a page fails. -/
lemma failsAt_cases {url : Url} {response : Except Error (HttpResponse Url)}
    {joined : Except Error Unit} (h : failsAt url response joined = true) :
    (∃ e, response = .error e) ∨
      ∃ body, response = .ok (.html body) ∧
        ¬ (joined = .ok () ∧ ∃ info, parsePage url body = .ok info) := by
  match response, joined with
  | .error e, _ => exact Or.inl ⟨e, rfl⟩
  | .ok (.html body), .error e => exact Or.inr ⟨body, rfl, fun hok => by cases hok.1⟩
  | .ok (.html body), .ok () =>
      refine Or.inr ⟨body, rfl, ?_⟩
      rintro ⟨-, info, hinfo⟩
      rw [failsAt, hinfo] at h
      cases h
  | .ok (.serverFailure _ _), .ok () | .ok (.redirect _ _), .ok () | .ok (.otherContent _), .ok ()
  | .ok (.serverFailure _ _), .error _ | .ok (.redirect _ _), .error _
  | .ok (.otherContent _), .error _ => cases h

omit [DecidableEq Url] in
/-- Only a failed fetch is recorded as an error. -/
lemma error_of_pageResult {url : Url} {response : Except Error (HttpResponse Url)} {msg : String}
    (h : pageResult url response = some (.error msg)) : ∃ e, response = .error e := by
  match response with
  | .error e => exact ⟨e, rfl⟩
  | .ok (.html body) =>
      simp only [pageResult] at h
      split at h <;> cases h
  | .ok (.serverFailure _ _) | .ok (.redirect _ _) | .ok (.otherContent _) => cases h

omit [DecidableEq Url] in
/-- If the pages parse, blanking those that fail loses nothing. -/
lemma PagesParse.siteReach_blank (h : PagesParse get parse robots seed) {url : Url}
    (hreach : SiteReach get robots seed url) : SiteReach (blank get parse) robots seed url := by
  induction hreach with
  | seed => exact SiteReach.seed
  | @link url link body info _ allowed page parses mem ih =>
      have hfails : failsAt url (get url) (parse url) = false := by
        rw [page]
        exact failsAt_html (h url body ih allowed page).1 parses
      exact SiteReach.link ih allowed ((blank_of_not_fails hfails).trans page) parses mem
  | @redirect url target status _ allowed page same ih =>
      have hfails : failsAt url (get url) (parse url) = false := by
        rw [page]
        exact failsAt_redirect url status target (parse url)
      exact SiteReach.redirect ih allowed ((blank_of_not_fails hfails).trans page) same

/-! ### Failures stay on their pages -/

/-- What a run sees can be reached. -/
lemma Run.siteReach_of_seen (h : Run robots seed es s)
    (hget : ∀ url response, .got url response ∈ es → response = get url) :
    ∀ url ∈ s.crawl.data.seen, SiteReach get robots seed url := by
  refine h.seen_subset (S := {url | SiteReach get robots seed url}) SiteReach.seed ?_
  rintro url v ⟨response, hmem, hv⟩ hurl hallowed found hfound
  rw [hget url response hmem] at hv
  rcases links_iff.mp ⟨v, hv, hfound⟩ with ⟨body, info, link, hpage, hinfo, hlink, rfl⟩ |
    ⟨status, hpage, hd⟩
  · exact SiteReach.link hurl hallowed hpage hinfo hlink
  · exact SiteReach.redirect hurl hallowed hpage hd

/-- If the pages parse and no lock is poisoned, a loop that ends returns. -/
lemma Run.returns_of_pagesParse (h : Run robots seed es s) (hended : s.outcome ≠ none)
    (hpoison : .poison ∉ es)
    (hget : ∀ url response, .got url response ∈ es → response = get url)
    (hparse : ∀ url body joined, .parsed url body joined ∈ es → joined = parse url)
    (hpages : PagesParse get parse robots seed) : s.outcome = some (.ok ()) := by
  obtain ⟨outcome, hout⟩ := Option.ne_none_iff_exists'.mp hended
  cases outcome with
  | ok _ => exact hout
  | error e =>
      rcases h.faulty_of_error (Or.inr ⟨e, hout⟩) with hp | ⟨event, hmem, step, hends, hvisit⟩
      · exact absurd hp hpoison
      · obtain ⟨url, body, joined, rfl, hfails⟩ := Event.parsed_of_visit_none hends hvisit
        have hgot := h.got_of_parsed hmem
        have hfetched := h.fetched_of_got hgot
        have hreach := h.siteReach_of_seen hget url (h.fetched_mem_seen hfetched)
        obtain ⟨hok, info, hinfo⟩ := hpages url body (hpages.siteReach_blank hreach)
          (h.allowed.2 url hfetched) (hget url _ hgot).symm
        obtain ⟨e, he⟩ := hfails ((hparse url body joined hmem).trans hok)
        rw [hinfo] at he
        cases he

/-- If a loop returns, the pages that can be reached parse. -/
lemma Run.pagesParse_of_returns (h : Run robots seed es s) (hok : s.outcome = some (.ok ()))
    (hget : ∀ url response, .got url response ∈ es → response = get url)
    (hparse : ∀ url body joined, .parsed url body joined ∈ es → joined = parse url) :
    PagesParse get parse robots seed := by
  intro url body hreach hallowed hpage
  have hmem := ((h.reaches hok hget).1 url).mpr (siteReach_of_blank hreach)
  obtain ⟨page, hentry⟩ := Crawl.exists_entry (Finmap.mem_keys.mpr hmem)
  rcases h.entry_event hentry with ⟨hexcl, -⟩ | ⟨-, event, hevent, state, v, hends, hvisit, -⟩
  · exact absurd hallowed hexcl
  · match event with
    | .got _ (.ok (.html _)) | .start _ | .next | .poison => cases hends
    | .got url' (.ok (.serverFailure _ _)) | .got url' (.ok (.redirect _ _))
    | .got url' (.ok (.otherContent _)) | .got url' (.error _) =>
        cases hends
        cases (hget url _ hevent).trans hpage
    | .parsed url' body' (.error _) => cases hvisit
    | .parsed url' body' (.ok ()) =>
        cases hends
        cases (hget url _ (h.got_of_parsed hevent)).trans hpage
        refine ⟨(hparse url body _ hevent).symm, ?_⟩
        simp only [Event.visit, visitOf] at hvisit
        split at hvisit
        · next info hinfo => exact ⟨info, hinfo⟩
        · cases hvisit

/-- **A crawl whose loop ends keeps failures on their pages exactly if no page
that can be reached fails in its parse task or its parser.** -/
theorem failures_stay_iff (h : Run robots seed es s) (hended : s.outcome ≠ none)
    (hpoison : .poison ∉ es)
    (hget : ∀ url response, .got url response ∈ es → response = get url)
    (hparse : ∀ url body joined, .parsed url body joined ∈ es → joined = parse url) :
    FailuresStay get parse robots seed s ↔ PagesParse get parse robots seed := by
  refine ⟨fun hstay => h.pagesParse_of_returns hstay.returns hget hparse, fun hpages => ?_⟩
  have hok := h.returns_of_pagesParse hended hpoison hget hparse hpages
  obtain ⟨hreached, hentry⟩ := h.reaches hok hget
  have hblank : ∀ url,
      SiteReach get robots seed url ↔ SiteReach (blank get parse) robots seed url :=
    fun url => ⟨hpages.siteReach_blank, siteReach_of_blank⟩
  have hfailed : ∀ url, (∃ msg, s.entry url = some (.error msg)) ↔
      SiteReach (blank get parse) robots seed url ∧ robotsAllow robots url = true ∧
        failsAt url (get url) (parse url) = true := by
    intro url
    constructor
    · rintro ⟨msg, he⟩
      have hreach := (hreached url).mp (Finmap.mem_keys.mp (Crawl.mem_keys_of_entry he))
      rw [hentry url hreach] at he
      split at he
      · next hallowed =>
          obtain ⟨e, hfetch⟩ := error_of_pageResult he
          have hfails : failsAt url (get url) (parse url) = true := by simp [hfetch, failsAt]
          exact ⟨(hblank url).mp hreach, hallowed, hfails⟩
      · cases he
    · rintro ⟨hreach, hallowed, hfails⟩
      rcases failsAt_cases hfails with ⟨e, hfetch⟩ | ⟨body, hpage, hnot⟩
      · refine ⟨e.msg, ?_⟩
        rw [hentry url ((hblank url).mpr hreach), if_pos hallowed, hfetch, pageResult]
      · exact absurd (hpages url body hreach hallowed hpage) hnot
  refine ⟨hok, fun url => (hreached url).trans (hblank url), hfailed, fun url hreach hnot => ?_⟩
  rw [hentry url ((hblank url).mpr hreach)]
  split
  · next hallowed => rw [blank_of_not_fails (hnot hallowed)]
  · rfl

/-- A page whose fetch fails is recorded with an error. -/
theorem failures_stay_fetch :
    ∃ s, Run none (PlainUrl.site "/") PlainUrl.brokenEvents s ∧
      ∃ msg, s.entry (PlainUrl.site "/a") = some (.error msg) := by
  refine ⟨_, rfl, ?_⟩
  have hget : ∀ url response, .got url response ∈ PlainUrl.brokenEvents →
      response = PlainUrl.brokenGet url := fun url response => PlainUrl.brokenEvents_got
  have hparse : ∀ url body joined, .parsed url body joined ∈ PlainUrl.brokenEvents →
      joined = (fun _ => .ok ()) url := by
    intro url body joined hmem
    cases joined
    · simp [PlainUrl.brokenEvents] at hmem
    · rfl
  have hpages : PagesParse PlainUrl.brokenGet (fun _ => .ok ()) none (PlainUrl.site "/") := by
    intro url body _ _ hpage
    rw [PlainUrl.brokenGet] at hpage
    split at hpage
    · cases hpage
      exact ⟨rfl, _, rfl⟩
    · cases hpage
  have h := (failures_stay_iff (rfl : Run none (PlainUrl.site "/") PlainUrl.brokenEvents _)
    (by decide) (by decide) hget hparse).mpr hpages
  refine (h.failed (PlainUrl.site "/a")).mpr ⟨?_, rfl, rfl⟩
  exact @SiteReach.link _ _ _ _ _ _ (PlainUrl.site "/a") (PlainUrl.linkPage "/a") _
    SiteReach.seed rfl rfl rfl (List.mem_singleton_self _)

/-- A page whose parse task panics ends the crawl, which discards the entry of
the start page. -/
theorem failure_spreads :
    ∃ (es : List (Event PlainUrl)) (s : CrawlInner PlainUrl)
      (get : PlainUrl → Except Error (HttpResponse PlainUrl))
      (parse : PlainUrl → Except Error Unit),
      Run none (PlainUrl.site "/") es s ∧ s.outcome ≠ none ∧ .poison ∉ es ∧
      (∀ url response, .got url response ∈ es → response = get url) ∧
      (∀ url body joined, .parsed url body joined ∈ es → joined = parse url) ∧
      ¬ FailuresStay get parse none (PlainUrl.site "/") s := by
  refine ⟨[.start (PlainUrl.site "/"),
    .got (PlainUrl.site "/") (.ok (.html (PlainUrl.linkPage "/a"))),
    .parsed (PlainUrl.site "/") (PlainUrl.linkPage "/a") (.ok ()), .next,
    .start (PlainUrl.site "/a"),
    .got (PlainUrl.site "/a") (.ok (.html (PlainUrl.linkPage "/a"))),
    .parsed (PlainUrl.site "/a") (PlainUrl.linkPage "/a") (.error ⟨"task panicked"⟩), .next], _,
    fun _ => .ok (.html (PlainUrl.linkPage "/a")),
    fun url => if url = PlainUrl.site "/a" then .error ⟨"task panicked"⟩ else .ok (), rfl,
    by decide, by decide, ?_, ?_, fun h => ?_⟩
  · intro url response hmem
    simp at hmem
    rcases hmem with ⟨-, rfl⟩ | ⟨-, rfl⟩ <;> rfl
  · intro url body joined hmem
    simp at hmem
    rcases hmem with ⟨rfl, -, rfl⟩ | ⟨rfl, -, rfl⟩ <;> rfl
  · cases h.returns

end MikesCrawler
