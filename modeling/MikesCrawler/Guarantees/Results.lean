/-
What a result says by itself, and how it depends on robots.txt.

* `PageResult.leadsTo`, `CrawlResult.Leads`: where the entries of a result lead;
* `Run.leads_iff`, `result_closed`: the pages of a result are those its own
  entries lead to from the seed, even if the client answers differently from
  fetch to fetch;
* `SiteReach.mono`, `result_mono`: a robots.txt that allows more only adds pages
  to a result, and changes the entries of the pages it allows anew.
-/
import MikesCrawler.Guarantees.Reach

open Machine

namespace MikesCrawler

variable {Url : Type} [DecidableEq Url] [Externals Url]

/-! ### Where the entries of a result lead -/

/-- The urls that the entry of a page says it leads to: its internal links
without their fragments, or the target of a redirect within the domain. -/
def PageResult.leadsTo (url : Url) : PageResult Url → List Url
  | .crawled info => info.internalLinks.map fun link => setFragment link none
  | .redirect _ target => if domain target = domain url then [target] else []
  | .serverFailure _ _ | .error _ | .otherContent _ | .excludedByRobotsTxt => []

omit [DecidableEq Url] in
/-- The entry of a visit leads to what the visit found. -/
lemma leadsTo_of_visit {url : Url} {response : Except Error (HttpResponse Url)} {v : Visit Url}
    (h : visitOf url response = some v) : v.entry.leadsTo url = v.found := by
  match response with
  | .ok (.html body) =>
      simp only [visitOf] at h
      split at h
      · cases h
        rfl
      · cases h
  | .ok (.redirect status target) | .ok (.serverFailure status msg)
  | .ok (.otherContent contentType) | .error e =>
      cases h
      rfl

/-- An entry of the result leads from a url to another. -/
def CrawlResult.Leads (result : CrawlResult Url) (url found : Url) : Prop :=
  ∃ page, result.pages.lookup url = some page ∧ found ∈ page.leadsTo url

variable {robots : Option String} {seed : Url}

/-- A fetch that was answered and has an entry has the entry of its answer. -/
lemma Run.entry_of_answered {es : List (Event Url)} {s : CrawlInner Url} (h : Run robots seed es s)
    {url : Url} {v : Visit Url} (hkey : url ∈ s.crawl.data.result.pages.keys)
    (hallowed : Allowed robots url) (hv : Answered es url v) : s.entry url = some v.entry := by
  obtain ⟨page, hpage⟩ := Crawl.exists_entry hkey
  rcases h.entry_cases hpage with ⟨hexcl, -⟩ | ⟨-, v', hv', rfl⟩
  · exact absurd hallowed hexcl
  · rw [← h.answered_unique hv hv']
    exact hpage

/-- What a loop that has stopped has recorded is what its own entries lead to
from the seed. -/
theorem Run.leads_iff {es : List (Event Url)} {s : CrawlInner Url} (h : Run robots seed es s)
    (hok : s.outcome = some (.ok ())) (url : Url) :
    url ∈ s.crawl.data.result.pages ↔
      Relation.ReflTransGen s.crawl.data.result.Leads seed url := by
  have hkeys := h.stopped hok
  rw [← Finmap.mem_keys, hkeys]
  constructor
  · intro hseen
    revert hseen
    -- along the run, from the urls that have an entry
    have hall : ∀ url ∈ s.crawl.data.seen,
        url ∈ {url | Relation.ReflTransGen s.crawl.data.result.Leads seed url} := by
      refine h.seen_subset Relation.ReflTransGen.refl ?_
      intro url v hv hreach hallowed found hfound
      obtain ⟨response, hgot, hvisit⟩ := id hv
      have hkey : url ∈ s.crawl.data.result.pages.keys := by
        rw [hkeys]
        exact h.fetched_mem_seen (h.fetched_of_got hgot)
      refine Relation.ReflTransGen.tail hreach ⟨v.entry, h.entry_of_answered hkey hallowed hv, ?_⟩
      rw [leadsTo_of_visit hvisit]
      exact hfound
    exact hall url
  · intro hreach
    induction hreach with
    | refl =>
        obtain ⟨ms, w, hms, hR⟩ := h.refines
        rw [← hR.seen]
        exact Worklist.seed_mem_seen hms
    | tail _ hleads ih =>
        obtain ⟨page, hpage, hfound⟩ := hleads
        rcases h.entry_cases hpage with ⟨-, rfl⟩ | ⟨hallowed, v, hv, rfl⟩
        · cases hfound
        · obtain ⟨response, hgot, hvisit⟩ := id hv
          rw [leadsTo_of_visit hvisit] at hfound
          exact h.found_mem_seen (Crawl.mem_keys_of_entry hpage) hallowed hv hfound

/-- An entry of a page with links is that of a page that parses. -/
lemma Run.parsePage_of_crawled {es : List (Event Url)} {s : CrawlInner Url}
    (h : Run robots seed es s) {url : Url} {info : PageInfo Url}
    (hentry : s.entry url = some (.crawled info)) : ∃ body, parsePage url body = .ok info := by
  rcases h.entry_cases hentry with ⟨-, hexcl⟩ | ⟨-, v, ⟨response, -, hvisit⟩, hpage⟩
  · cases hexcl
  · match response with
    | .ok (.html body) =>
        refine ⟨body, ?_⟩
        simp only [visitOf] at hvisit
        split at hvisit
        · next info' hinfo =>
            cases hvisit
            cases hpage
            exact hinfo
        · cases hvisit
    | .ok (.redirect _ _) | .ok (.serverFailure _ _) | .ok (.otherContent _) | .error _ =>
        cases hvisit
        cases hpage

/-- **A result is closed.**  Also if the client answers differently from fetch
to fetch, the pages of a result are exactly those that its own entries lead to
from the seed; so each internal link of a page and each redirect within a domain
has an entry of its own, and the links of a page are sorted by its domain. -/
theorem result_closed {es : List (ServerEvent Url)} {s : ProdCrawler Url} (h : ServerRun es s)
    {i : CallId} {crawl : Option (Mutex (Crawl Url))} {result : CrawlResult Url}
    (hcall : s.calls i = some (.returned seed crawl (.ok result))) :
    (∀ url, url ∈ result.pages ↔ Relation.ReflTransGen result.Leads seed url) ∧
    (∀ url info, result.pages.lookup url = some (.crawled info) →
      (∀ link ∈ info.internalLinks,
        domain link = domain url ∧ setFragment link none ∈ result.pages) ∧
      ∀ link ∈ info.externalLinks, domain link ≠ domain url) ∧
    ∀ url status target, result.pages.lookup url = some (.redirect status target) →
      domain target = domain url → target ∈ result.pages := by
  obtain ⟨inner, ⟨robots, -, hrun⟩, hok, -, rfl⟩ := (h.follows i).2 _ hcall
  have hleads := hrun.leads_iff hok
  have hnext : ∀ {url found page}, inner.crawl.data.result.pages.lookup url = some page →
      found ∈ page.leadsTo url → found ∈ inner.crawl.data.result.pages := by
    intro url found page hpage hfound
    have hmem : url ∈ inner.crawl.data.result.pages := Finmap.mem_of_lookup_eq_some hpage
    exact (hleads found).mpr (((hleads url).mp hmem).tail ⟨page, hpage, hfound⟩)
  refine ⟨hleads, fun url info hentry => ?_, fun url status target hentry hdom => ?_⟩
  · obtain ⟨body, hinfo⟩ := hrun.parsePage_of_crawled hentry
    obtain ⟨hinternal, hexternal⟩ := parsePage_classified hinfo
    refine ⟨fun link hlink => ⟨hinternal link hlink, ?_⟩, hexternal⟩
    exact hnext hentry (List.mem_map.mpr ⟨link, hlink, rfl⟩)
  · refine hnext hentry ?_
    rw [PageResult.leadsTo, if_pos hdom]
    exact List.mem_singleton_self target

/-- The result of a crawl of a site with a link and a redirect leads to its last
page. -/
theorem result_closed_events :
    ∃ s crawl result, ServerRun PlainUrl.serverEvents s ∧
      s.calls 0 = some (.returned (PlainUrl.site "/") crawl (.ok result)) ∧
      PlainUrl.site "/private" ∈ result.pages ∧
      Relation.ReflTransGen result.Leads (PlainUrl.site "/") (PlainUrl.site "/private") := by
  obtain ⟨s, crawl, result, hrun, hcall, hmem⟩ : ∃ s crawl result,
      ServerRun PlainUrl.serverEvents s ∧
        s.calls 0 = some (.returned (PlainUrl.site "/") crawl (.ok result)) ∧
        PlainUrl.site "/private" ∈ result.pages := ⟨_, _, _, rfl, rfl, by decide⟩
  exact ⟨s, crawl, result, hrun, hcall, hmem, ((result_closed hrun hcall).1 _).mp hmem⟩

/-! ### A result and its robots.txt -/

variable {robots' : Option String} {get : Url → Except Error (HttpResponse Url)}

/-- One robots.txt allows all that another does. -/
def MorePermissive (Url : Type) [Externals Url] (robots' robots : Option String) : Prop :=
  ∀ url : Url, robotsAllow robots url = true → robotsAllow robots' url = true

omit [DecidableEq Url] in
/-- What can be reached under a robots.txt can be reached under one that allows
more. -/
lemma SiteReach.mono (h : MorePermissive Url robots' robots) {url : Url}
    (hreach : SiteReach get robots seed url) : SiteReach get robots' seed url := by
  induction hreach with
  | seed => exact SiteReach.seed
  | link _ allowed page parses mem ih => exact SiteReach.link ih (h _ allowed) page parses mem
  | redirect _ allowed page same ih => exact SiteReach.redirect ih (h _ allowed) page same

/-- **A robots.txt that allows more only adds pages.**  Of two calls with the
same seed and a client that answers by a function of the url, in any two runs,
the one with the more permissive robots.txt returns at least the pages of the
other; a page that the other fetched has the same entry, one that both exclude
too, and one that only the other excludes has the entry of its fetch. -/
theorem result_mono {es es' : List (ServerEvent Url)} {s s' : ProdCrawler Url}
    (h : ServerRun es s) (h' : ServerRun es' s') {i i' : CallId}
    {crawl crawl' : Option (Mutex (Crawl Url))} {result result' : CrawlResult Url}
    (hcall : s.calls i = some (.returned seed crawl (.ok result)))
    (hcall' : s'.calls i' = some (.returned seed crawl' (.ok result')))
    (hrobots : .call i (.robots (.ok robots)) ∈ es)
    (hrobots' : .call i' (.robots (.ok robots')) ∈ es')
    (hget : ∀ url response, .call i (.inner (.got url response)) ∈ es → response = get url)
    (hget' : ∀ url response, .call i' (.inner (.got url response)) ∈ es' → response = get url)
    (hmore : MorePermissive Url robots' robots) :
    ∀ url ∈ result.pages, url ∈ result'.pages ∧
      result'.pages.lookup url =
        if robotsAllow robots url = true ∨ robotsAllow robots' url = false
        then result.pages.lookup url else pageResult url (get url) := by
  obtain ⟨inner, hrun, hok, -, rfl⟩ := h.returned hcall hrobots
  obtain ⟨inner', hrun', hok', -, rfl⟩ := h'.returned hcall' hrobots'
  obtain ⟨hpages, hentry⟩ := hrun.reaches hok (innerEvents_got hget)
  obtain ⟨hpages', hentry'⟩ := hrun'.reaches hok' (innerEvents_got hget')
  intro url hmem
  have hreach := (hpages url).mp hmem
  have hreach' := hreach.mono hmore
  refine ⟨(hpages' url).mpr hreach', ?_⟩
  have hold := hentry url hreach
  have hnew := hentry' url hreach'
  change inner.crawl.data.result.pages.lookup url = _ at hold
  change inner'.crawl.data.result.pages.lookup url = _ at hnew
  rw [hold, hnew]
  by_cases hallowed : robotsAllow robots url = true
  · rw [if_pos (hmore url hallowed), if_pos (Or.inl hallowed), if_pos hallowed]
  · by_cases hallowed' : robotsAllow robots' url = true
    · simp [hallowed, hallowed']
    · simp [hallowed, hallowed']

/-- The events of a crawl of the site of `PlainUrl.get` that no robots.txt
keeps from its last page. -/
def PlainUrl.openEvents : List (Event PlainUrl) :=
  events ++ [.start (site "/private"), .got (site "/private") (PlainUrl.get (site "/private")),
    .next]

/-- The events of a crawler that crawls it once. -/
def PlainUrl.openServerEvents : List (ServerEvent PlainUrl) :=
  [.crawl 0 (site "/"), .call 0 (.robots (.ok none)), .call 0 .register]
    ++ openEvents.map (fun event => .call 0 (.inner event)) ++ [.call 0 .remove, .call 0 .finish]

/-- The page that a robots.txt excludes is fetched without it. -/
theorem result_mono_open :
    ∃ s crawl result, ServerRun PlainUrl.openServerEvents s ∧
      s.calls 0 = some (.returned (PlainUrl.site "/") crawl (.ok result)) ∧
      result.pages.lookup (PlainUrl.site "/private")
        = some (.serverFailure ⟨404⟩ "Not Found") := by
  obtain ⟨s, crawl, result, hrun, hcall, hmem⟩ : ∃ s crawl result,
      ServerRun PlainUrl.serverEvents s ∧
        s.calls 0 = some (.returned (PlainUrl.site "/") crawl (.ok result)) ∧
        PlainUrl.site "/private" ∈ result.pages := ⟨_, _, _, rfl, rfl, by decide⟩
  obtain ⟨s', crawl', result', hrun', hcall'⟩ : ∃ s' crawl' result',
      ServerRun PlainUrl.openServerEvents s' ∧
        s'.calls 0 = some (.returned (PlainUrl.site "/") crawl' (.ok result')) :=
    ⟨_, _, _, rfl, rfl⟩
  have hget : ∀ url response, ServerEvent.call 0 (.inner (.got url response))
      ∈ PlainUrl.serverEvents → response = PlainUrl.get url := by
    intro url response hgot
    have hgot' : .got url response ∈ innerEvents 0 PlainUrl.serverEvents :=
      mem_innerEvents.mpr hgot
    exact PlainUrl.events_got hgot'
  have hget' : ∀ url response, ServerEvent.call 0 (.inner (.got url response))
      ∈ PlainUrl.openServerEvents → response = PlainUrl.get url := by
    intro url response hgot
    have hgot' : .got url response ∈ PlainUrl.openEvents := mem_innerEvents.mpr hgot
    rcases List.mem_append.mp hgot' with hgot' | hgot'
    · exact PlainUrl.events_got hgot'
    · simp at hgot'
      rw [hgot'.1, hgot'.2]
  have hmore : MorePermissive PlainUrl none (some PlainUrl.robotsTxt) := fun _ _ => rfl
  have h := result_mono hrun hrun' hcall hcall' (by decide) (by decide) hget hget' hmore _ hmem
  exact ⟨s', crawl', result', hrun', hcall', h.2.trans (if_neg (by decide))⟩

end MikesCrawler
