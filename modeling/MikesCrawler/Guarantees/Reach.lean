/-
A crawl computes the site that can be reached, whatever the schedule.

* `SiteReach`: the urls of a site that can be reached from the seed, when the
  client answers by a function of the url;
* `mem_reach_iff`: the same as reachability along `Links`, in the terms of
  worklists;
* `Run.reaches`: a loop that has stopped has seen exactly these urls, and has
  of each what its own answer determines;
* `crawl_eq_reach`: so has the result of a call of `crawl`, and any two calls
  with one seed and one robots.txt return the same result.
-/
import MikesCrawler.Guarantees.Fetches
import MikesCrawler.Refine.Calls

open Machine

namespace MikesCrawler

variable {Url : Type} [DecidableEq Url] [Externals Url]

/-! ### The site that can be reached -/

/-- The urls of a site that can be reached from the seed through urls that
robots.txt allows: along the links of a page without their fragments, and along
the redirects within a domain. -/
inductive SiteReach (get : Url → Except Error (HttpResponse Url)) (robots : Option String)
    (seed : Url) : Url → Prop
  | seed : SiteReach get robots seed seed
  | link {url link : Url} {body : String} {info : PageInfo Url}
      (reached : SiteReach get robots seed url) (allowed : robotsAllow robots url = true)
      (page : get url = .ok (.html body)) (parses : parsePage url body = .ok info)
      (mem : link ∈ info.internalLinks) : SiteReach get robots seed (setFragment link none)
  | redirect {url target : Url} {status : Status} (reached : SiteReach get robots seed url)
      (allowed : robotsAllow robots url = true) (page : get url = .ok (.redirect status target))
      (same : domain target = domain url) : SiteReach get robots seed target

/-- What an answer makes a crawl find. -/
def Links (get : Url → Except Error (HttpResponse Url)) (url found : Url) : Prop :=
  ∃ v, visitOf url (get url) = some v ∧ found ∈ v.found

variable {get : Url → Except Error (HttpResponse Url)} {robots : Option String} {seed : Url}

omit [DecidableEq Url] in
/-- What a crawl finds are the links of a page and the redirects within a
domain. -/
lemma links_iff {url found : Url} : Links get url found ↔
    (∃ body info link, get url = .ok (.html body) ∧ parsePage url body = .ok info ∧
      link ∈ info.internalLinks ∧ found = setFragment link none) ∨
    ∃ status, get url = .ok (.redirect status found) ∧ domain found = domain url := by
  constructor
  · rintro ⟨v, hv, hmem⟩
    exact visitOf_found_cases hv hmem
  · rintro (⟨body, info, link, hget, hinfo, hlink, rfl⟩ | ⟨status, hget, hd⟩)
    · have hv : visitOf url (get url)
          = some ⟨info.internalLinks.map fun link => setFragment link none, .crawled info⟩ := by
        simp [hget, visitOf, hinfo]
      exact ⟨_, hv, List.mem_map.mpr ⟨link, hlink, rfl⟩⟩
    · have hv : visitOf url (get url) = some ⟨[found], .redirect status found⟩ := by
        simp [hget, visitOf, hd]
      exact ⟨_, hv, by simp⟩

omit [DecidableEq Url] in
/-- The site that can be reached, in the terms of worklists. -/
lemma mem_reach_iff {url : Url} :
    url ∈ Worklist.Reach (Allowed robots) (Links get) seed ↔ SiteReach get robots seed url := by
  constructor
  · refine fun h => Worklist.reach_least (S := {url | SiteReach get robots seed url})
      SiteReach.seed ?_ h
    intro a ha hok b hb
    rcases links_iff.mp hb with ⟨body, info, link, hget, hinfo, hlink, rfl⟩ | ⟨status, hget, hd⟩
    · exact SiteReach.link ha hok hget hinfo hlink
    · exact SiteReach.redirect ha hok hget hd
  · intro h
    induction h with
    | seed => exact Worklist.seed_mem_reach
    | link _ allowed page parses mem ih =>
        exact Worklist.succ_mem_reach ih allowed
          (links_iff.mpr (Or.inl ⟨_, _, _, page, parses, mem, rfl⟩))
    | redirect _ allowed page same ih =>
        exact Worklist.succ_mem_reach ih allowed (links_iff.mpr (Or.inr ⟨_, page, same⟩))

/-! ### What a loop that has stopped has seen and recorded -/

/-- **A loop that has stopped has the site that can be reached**: it has seen
exactly its urls, and each has the entry its own answer determines, or that of
an exclusion. -/
theorem Run.reaches {es : List (Event Url)} {s : CrawlInner Url} (h : Run robots seed es s)
    (hok : s.outcome = some (.ok ()))
    (hget : ∀ url response, .got url response ∈ es → response = get url) :
    (∀ url, url ∈ s.crawl.data.result.pages ↔ SiteReach get robots seed url) ∧
      ∀ url, SiteReach get robots seed url → s.entry url =
        if robotsAllow robots url then pageResult url (get url) else some .excludedByRobotsTxt := by
  have hanswered : ∀ url v, Answered es url v → visitOf url (get url) = some v := by
    rintro url v ⟨response, hmem, hv⟩
    rw [← hget url response hmem]
    exact hv
  have hseen : ∀ url, url ∈ s.crawl.data.seen ↔ SiteReach get robots seed url := by
    intro url
    rw [← mem_reach_iff]
    refine h.seen_eq_reach hok (fun url v hv b => ?_) url
    have hvisit := hanswered url v hv
    refine ⟨fun hb => ⟨v, hvisit, hb⟩, ?_⟩
    rintro ⟨v', hvisit', hb⟩
    cases hvisit.symm.trans hvisit'
    exact hb
  have hpages : ∀ url, url ∈ s.crawl.data.result.pages ↔ SiteReach get robots seed url := by
    intro url
    rw [← Finmap.mem_keys, h.stopped hok, hseen]
  refine ⟨hpages, fun url hreach => ?_⟩
  obtain ⟨page, hpage⟩ := Crawl.exists_entry (Finmap.mem_keys.mpr ((hpages url).mpr hreach))
  rw [show s.entry url = some page from hpage]
  rcases h.entry_cases hpage with ⟨hexcl, rfl⟩ | ⟨hallowed, v, hv, rfl⟩
  · rw [if_neg hexcl]
  · rw [if_pos hallowed, pageResult_of_visit (hanswered url v hv)]

/-- Two loops that have stopped, with one seed, one robots.txt and one client,
have the same result. -/
lemma Run.result_unique {es es' : List (Event Url)} {s s' : CrawlInner Url}
    (h : Run robots seed es s) (h' : Run robots seed es' s') (hok : s.outcome = some (.ok ()))
    (hok' : s'.outcome = some (.ok ()))
    (hget : ∀ url response, .got url response ∈ es → response = get url)
    (hget' : ∀ url response, .got url response ∈ es' → response = get url) :
    s'.crawl.data.result = s.crawl.data.result := by
  obtain ⟨hpages, hentry⟩ := h.reaches hok hget
  obtain ⟨hpages', hentry'⟩ := h'.reaches hok' hget'
  have hlookup : ∀ url, s'.entry url = s.entry url := by
    intro url
    by_cases hreach : SiteReach get robots seed url
    · rw [hentry' url hreach, hentry url hreach]
    · have hnone : ∀ {t : CrawlInner Url}, url ∉ t.crawl.data.result.pages → t.entry url = none :=
        fun hmem => Finmap.lookup_eq_none.mpr hmem
      rw [hnone fun hmem => hreach ((hpages' url).mp hmem),
        hnone fun hmem => hreach ((hpages url).mp hmem)]
  have hmaps := Finmap.ext_lookup hlookup
  cases hr : s.crawl.data.result
  cases hr' : s'.crawl.data.result
  rw [hr, hr'] at hmaps
  exact congrArg CrawlResult.mk hmaps

/-! ### The result of a call -/

omit [DecidableEq Url] [Externals Url] in
/-- The loop of a call is answered as the call is. -/
lemma innerEvents_got {i : CallId} {es : List (ServerEvent Url)}
    (hget : ∀ url response, .call i (.inner (.got url response)) ∈ es → response = get url) :
    ∀ url response, .got url response ∈ innerEvents i es → response = get url :=
  fun url response hmem => hget url response (mem_innerEvents.mp hmem)

/-- **A crawl computes exactly the reachable site, whatever the schedule**: if
a call returns a result, its keys are the urls that can be reached and each has
the entry its own answer determines, or that of an exclusion; and every call
with the same seed, robots.txt and client that returns a result returns the
same. -/
theorem crawl_eq_reach {es : List (ServerEvent Url)} {s : ProdCrawler Url} (h : ServerRun es s)
    {i : CallId} {crawl : Option (Mutex (Crawl Url))} {result : CrawlResult Url}
    (hcall : s.calls i = some (.returned seed crawl (.ok result)))
    (hrobots : .call i (.robots (.ok robots)) ∈ es)
    (hget : ∀ url response, .call i (.inner (.got url response)) ∈ es → response = get url) :
    (∀ url, url ∈ result.pages ↔ SiteReach get robots seed url) ∧
    (∀ url, SiteReach get robots seed url → result.pages.lookup url =
      if robotsAllow robots url then pageResult url (get url) else some .excludedByRobotsTxt) ∧
    ∀ (es' : List (ServerEvent Url)) (s' : ProdCrawler Url), ServerRun es' s' →
      ∀ (i' : CallId) (crawl' : Option (Mutex (Crawl Url))) (result' : CrawlResult Url),
        s'.calls i' = some (.returned seed crawl' (.ok result')) →
        .call i' (.robots (.ok robots)) ∈ es' →
        (∀ url response, .call i' (.inner (.got url response)) ∈ es' → response = get url) →
        result' = result := by
  obtain ⟨inner, hrun, hok, -, rfl⟩ := h.returned hcall hrobots
  obtain ⟨hpages, hentry⟩ := hrun.reaches hok (innerEvents_got hget)
  refine ⟨hpages, hentry, fun es' s' h' i' crawl' result' hcall' hrobots' hget' => ?_⟩
  obtain ⟨inner', hrun', hok', -, rfl⟩ := h'.returned hcall' hrobots'
  exact hrun.result_unique hrun' hok hok' (innerEvents_got hget) (innerEvents_got hget')

/-- The result of a crawl of a site with a link, a redirect and an excluded
page. -/
theorem crawl_eq_reach_events :
    ∃ s crawl result, ServerRun PlainUrl.serverEvents s ∧
      s.calls 0 = some (.returned (PlainUrl.site "/") crawl (.ok result)) ∧
      result.pages.lookup (PlainUrl.site "/private") = some .excludedByRobotsTxt := by
  refine ⟨_, _, _, rfl, rfl, ?_⟩
  have hget : ∀ url response, ServerEvent.call 0 (.inner (.got url response))
      ∈ PlainUrl.serverEvents → response = PlainUrl.get url := by
    intro url response hmem
    have hmem' : .got url response ∈ innerEvents 0 PlainUrl.serverEvents :=
      mem_innerEvents.mpr hmem
    exact PlainUrl.events_got hmem'
  have hreach : SiteReach PlainUrl.get (some PlainUrl.robotsTxt) (PlainUrl.site "/")
      (PlainUrl.site "/private") := by
    have hlink : SiteReach PlainUrl.get (some PlainUrl.robotsTxt) (PlainUrl.site "/")
        (PlainUrl.site "/a") :=
      @SiteReach.link _ _ _ _ _ _ (PlainUrl.site "/a") (PlainUrl.linkPage "/a") _
        SiteReach.seed rfl rfl rfl (List.mem_singleton_self _)
    exact SiteReach.redirect hlink rfl rfl rfl
  have hrobots : ServerEvent.call 0 (.robots (.ok (some PlainUrl.robotsTxt)))
      ∈ PlainUrl.serverEvents := by decide
  have h := crawl_eq_reach (rfl : ServerRun PlainUrl.serverEvents _) rfl hrobots hget
  exact (h.2.1 _ hreach).trans rfl

end MikesCrawler
