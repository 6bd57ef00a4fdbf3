/-
Where a crawl goes: the host it stays on, and the fragments it tells apart.

* `domain_setFragment`, `domain_of_found`: what a page makes a crawl follow has
  the page's domain;
* `StepsStay`, `stepsStay_iff`, `stays_on_host`: a crawl stays on the host of its
  seed if what it follows from a url without a domain name does; a seed with a
  domain name grants that, and a crawl that has stopped needs it;
* `RedirectsPlain`, `no_page_twice`: a crawl fetches no page under two
  fragments if neither its seed nor the redirects it follows have one.
-/
import MikesCrawler.Refine.Entries
import MikesCrawler.Model.PlainUrl

open Machine

namespace MikesCrawler

variable {Url : Type} [DecidableEq Url] [Externals Url]
variable {robots : Option String} {seed : Url} {es : List (Event Url)} {s : CrawlInner Url}

/-! ### The host of the seed -/

section Hosts

variable {host : Url → Option Host}

omit [DecidableEq Url] in
/-- A fragment is no part of the domain. -/
lemma domain_setFragment (hlaws : HostLaws host) (url : Url) (fragment : Option String) :
    domain (setFragment url fragment) = domain url := by
  refine Option.ext fun name => ?_
  rw [hlaws.domain_eq_some, hlaws.domain_eq_some, hlaws.host_setFragment]

omit [DecidableEq Url] in
/-- What a page makes a crawl follow has the page's domain. -/
lemma domain_of_found (hlaws : HostLaws host) {url : Url}
    {response : Except Error (HttpResponse Url)} {v : Visit Url}
    (hv : visitOf url response = some v) : ∀ found ∈ v.found, domain found = domain url := by
  intro found hfound
  rcases visitOf_found_cases hv hfound with ⟨body, info, link, -, hinfo, hlink, rfl⟩ | ⟨-, -, hd⟩
  · rw [domain_setFragment hlaws]
    exact (parsePage_classified hinfo).1 link hlink
  · exact hd

/-- Where a page without a domain name links or redirects to another url without
one, which robots.txt allows, that one has the host of the page. -/
def StepsStay (host : Url → Option Host) (robots : Option String) (es : List (Event Url)) : Prop :=
  ∀ url, domain url = none →
    (∀ body info, .got url (.ok (.html body)) ∈ es → parsePage url body = .ok info →
      ∀ link ∈ info.internalLinks ++ info.externalLinks, domain link = none →
        robotsAllow robots (setFragment link none) = true → host link = host url) ∧
    ∀ status target, .got url (.ok (.redirect status target)) ∈ es → domain target = none →
      robotsAllow robots target = true → host target = host url

omit [DecidableEq Url] in
/-- These are the urls that the run follows from urls without a domain name. -/
lemma stepsStay_iff (hlaws : HostLaws host) : StepsStay host robots es ↔
    ∀ url v, Answered es url v → domain url = none →
      ∀ found ∈ v.found, robotsAllow robots found = true → host found = host url := by
  constructor
  · rintro hstay url v ⟨response, hgot, hv⟩ hnone found hfound hallowed
    obtain ⟨hlinks, hredirects⟩ := hstay url hnone
    rcases visitOf_found_cases hv hfound with
      ⟨body, info, link, rfl, hinfo, hlink, rfl⟩ | ⟨status, rfl, hd⟩
    · rw [hlaws.host_setFragment]
      exact hlinks body info hgot hinfo link (List.mem_append_left _ hlink)
        (((parsePage_classified hinfo).1 link hlink).trans hnone) hallowed
    · exact hredirects status found hgot (hd.trans hnone) hallowed
  · intro hstay url hnone
    refine ⟨fun body info hgot hinfo link hlink hdom hallowed => ?_,
      fun status target hgot hdom hallowed => ?_⟩
    · have hinternal : link ∈ info.internalLinks := by
        rcases List.mem_append.mp hlink with hlink | hlink
        · exact hlink
        · exact absurd (hdom.trans hnone.symm) ((parsePage_classified hinfo).2 link hlink)
      have hv : visitOf url (.ok (.html body))
          = some ⟨info.internalLinks.map fun link => setFragment link none, .crawled info⟩ := by
        rw [visitOf, hinfo]
      rw [← hlaws.host_setFragment link none]
      exact hstay url _ ⟨_, hgot, hv⟩ hnone _ (List.mem_map.mpr ⟨link, hinternal, rfl⟩) hallowed
    · have hsame : domain target = domain url := hdom.trans hnone.symm
      refine hstay url _ ⟨_, hgot, rfl⟩ hnone target ?_ hallowed
      rw [if_pos hsame]
      exact List.mem_singleton_self target

omit [DecidableEq Url] in
/-- The host of a url with a domain name goes with the name. -/
lemma host_of_domain (hlaws : HostLaws host) {url url' : Url} {name : String}
    (hname : domain url = some name) (heq : domain url' = domain url) : host url' = host url := by
  rw [(hlaws.domain_eq_some url name).mp hname,
    (hlaws.domain_eq_some url' name).mp (heq.trans hname)]

/-- What a run fetches has the domain of its seed. -/
lemma Run.domain_of_fetched (h : Run robots seed es s) (hlaws : HostLaws host) :
    ∀ url ∈ fetched es, domain url = domain seed := by
  intro url hmem
  refine h.seen_subset (S := {url | domain url = domain seed}) rfl ?_ url
    (h.fetched_mem_seen hmem)
  rintro url v ⟨response, -, hv⟩ hurl - found hfound
  exact (domain_of_found hlaws hv found hfound).trans hurl

/-- **A crawl stays on the host of its seed** if what it follows from urls
without a domain name does.  A seed with a domain name grants that, and a crawl
that has stopped and stayed on the host has done so. -/
theorem stays_on_host (hlaws : HostLaws host) (h : Run robots seed es s) :
    (StepsStay host robots es → ∀ url ∈ fetched es, host url = host seed) ∧
    (domain seed ≠ none → StepsStay host robots es) ∧
    (s.outcome = some (.ok ()) → (∀ url ∈ fetched es, host url = host seed) →
      StepsStay host robots es) := by
  rw [stepsStay_iff hlaws]
  refine ⟨fun hstay url hmem => ?_, fun hseed url v hv hnone => ?_, fun hok hall => ?_⟩
  · have hseen := h.fetched_mem_seen hmem
    have hallowed := h.allowed.2 url hmem
    refine h.seen_subset (S := {url | Allowed robots url → host url = host seed})
      (fun _ => rfl) ?_ url hseen hallowed
    intro url v hv hurl hallowed found hfound hok
    refine Eq.trans ?_ (hurl hallowed)
    cases hname : domain url with
    | none => exact hstay url v hv hname found hfound hok
    | some name =>
        obtain ⟨response, -, hvisit⟩ := hv
        exact host_of_domain hlaws hname (domain_of_found hlaws hvisit found hfound)
  · obtain ⟨response, hgot, -⟩ := hv
    have hdomain := h.domain_of_fetched hlaws url (h.fetched_of_got hgot)
    exact absurd (hdomain.symm.trans hnone) hseed
  · intro url v hv _ found hfound hallowed
    have hmem : url ∈ fetched es := by
      obtain ⟨response, hgot, -⟩ := hv
      exact h.fetched_of_got hgot
    have hkey : url ∈ s.crawl.data.result.pages.keys := by
      rw [h.stopped hok]
      exact h.fetched_mem_seen hmem
    have hseen := h.found_mem_seen hkey (h.allowed.2 url hmem) hv hfound
    have hfetched : found ∈ fetched es := by
      rw [← Multiset.mem_coe, h.fetched_eq_of_stopped hok]
      exact Finset.mem_filter.mpr ⟨hseen, hallowed⟩
    rw [hall found hfetched, hall url hmem]

end Hosts

/-- A site whose start page links to one of its own pages: the crawl stays on
its host. -/
theorem stays_on_host_events :
    ∃ s, Run (some PlainUrl.robotsTxt) (PlainUrl.site "/") PlainUrl.events s ∧
      ∀ url ∈ fetched PlainUrl.events, url.host = some (.domain "example.com") := by
  refine ⟨_, rfl, ?_⟩
  have h := stays_on_host PlainUrl.hostLaws
    (rfl : Run (some PlainUrl.robotsTxt) (PlainUrl.site "/") PlainUrl.events _)
  exact h.1 (h.2.1 (by decide))

/-- A numbered host whose start page links to another numbered host: that one
is fetched. -/
theorem leaves_numbered_host :
    ∃ es s, Run none (PlainUrl.numbered 1 "/") es s ∧
      (PlainUrl.numbered 1 "/").host ≠ none ∧
      ∃ url ∈ fetched es, url.host ≠ (PlainUrl.numbered 1 "/").host := by
  refine ⟨[.start (PlainUrl.numbered 1 "/"),
    .got (PlainUrl.numbered 1 "/") (.ok (.html (PlainUrl.linkPage "http://10.0.0.2/"))),
    .parsed (PlainUrl.numbered 1 "/") (PlainUrl.linkPage "http://10.0.0.2/") (.ok ()), .next,
    .start (PlainUrl.numbered 2 "/")], _, rfl, by decide, PlainUrl.numbered 2 "/", ?_, by decide⟩
  decide

/-! ### Fragments -/

/-- No redirect that a run follows leads to a url with a fragment. -/
def RedirectsPlain (es : List (Event Url)) : Prop :=
  ∀ url status target, .got url (.ok (.redirect status target)) ∈ es →
    domain target = domain url → setFragment target none = target

omit [DecidableEq Url] in
/-- What a page makes a crawl follow has no fragment, but for redirects. -/
lemma plain_of_found
    (hidem : ∀ url : Url, setFragment (setFragment url none) none = setFragment url none)
    (hplain : RedirectsPlain es) {url : Url} {v : Visit Url} (hv : Answered es url v) :
    ∀ found ∈ v.found, setFragment found none = found := by
  intro found hfound
  obtain ⟨response, hmem, hvisit⟩ := hv
  rcases visitOf_found_cases hvisit hfound with ⟨-, -, link, -, -, -, rfl⟩ | ⟨status, rfl, hd⟩
  · exact hidem link
  · exact hplain url status found hmem hd

/-- **No page is visited under two fragments** if the seed has none and no
redirect that the run follows leads to one. -/
theorem no_page_twice
    (hidem : ∀ url : Url, setFragment (setFragment url none) none = setFragment url none)
    (h : Run robots seed es s) (hseed : setFragment seed none = seed)
    (hplain : RedirectsPlain es) :
    ((fetched es).map fun url => setFragment url none).Nodup ∧
      ∀ url ∈ s.crawl.data.result.pages, ∀ url' ∈ s.crawl.data.result.pages,
        setFragment url none = setFragment url' none → url = url' := by
  have hseen : ∀ url ∈ s.crawl.data.seen, setFragment url none = url :=
    h.seen_subset (S := {url | setFragment url none = url}) hseed
      fun url v hv _ _ => plain_of_found hidem hplain hv
  constructor
  · refine List.Nodup.map_on (fun url hmem url' hmem' heq => ?_) h.fetched_nodup
    rw [← hseen url (h.fetched_mem_seen hmem), ← hseen url' (h.fetched_mem_seen hmem'), heq]
  · intro url hmem url' hmem' heq
    have hkeys := h.keys_subset_seen
    rw [← hseen url (hkeys (Finmap.mem_keys.mpr hmem)),
      ← hseen url' (hkeys (Finmap.mem_keys.mpr hmem')), heq]

/-- A site crawled from a url without a fragment. -/
theorem no_page_twice_events :
    ∃ s, Run (some PlainUrl.robotsTxt) (PlainUrl.site "/") PlainUrl.events s ∧
      ((fetched PlainUrl.events).map fun url => setFragment url none).Nodup := by
  refine ⟨_, rfl, ?_⟩
  have hplain : RedirectsPlain PlainUrl.events := by
    intro url status target hmem _
    have hget := PlainUrl.events_got hmem
    rw [PlainUrl.get] at hget
    split at hget
    · cases hget
    · split at hget
      · cases hget
        rfl
      · cases hget
  exact (no_page_twice PlainUrl.setFragment_idem
    (rfl : Run (some PlainUrl.robotsTxt) (PlainUrl.site "/") PlainUrl.events _) rfl hplain).1

/-- A seed with a fragment whose page links to itself: the page is fetched
under two fragments and recorded twice. -/
theorem page_twice :
    ∃ es s, Run none (PlainUrl.site "/page" (some "a")) es s ∧
      ¬ ((fetched es).map fun url => setFragment url none).Nodup ∧
      ∃ url ∈ s.crawl.data.result.pages, ∃ url' ∈ s.crawl.data.result.pages,
        setFragment url none = setFragment url' none ∧ url ≠ url' := by
  refine ⟨[.start (PlainUrl.site "/page" (some "a")),
    .got (PlainUrl.site "/page" (some "a")) (.ok (.html (PlainUrl.linkPage "/page"))),
    .parsed (PlainUrl.site "/page" (some "a")) (PlainUrl.linkPage "/page") (.ok ()), .next,
    .start (PlainUrl.site "/page"),
    .got (PlainUrl.site "/page") (.ok (.html (PlainUrl.linkPage "/page"))),
    .parsed (PlainUrl.site "/page") (PlainUrl.linkPage "/page") (.ok ()), .next], _, rfl, ?_,
    PlainUrl.site "/page", ?_, PlainUrl.site "/page" (some "a"), ?_, rfl, by decide⟩
  · decide
  · decide
  · decide

end MikesCrawler
