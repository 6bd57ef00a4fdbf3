/-
What a crawl fetches, and what it records of it.

* `robots_respected`: nothing that robots.txt excludes is queued, fetched or in
  flight; what it excludes is recorded as such for good, and nothing else is;
* `pageResult`: the entry that the answer of a fetch determines;
* `processed_once`: a url is fetched once and recorded once, and a crawl that
  has stopped holds for each allowed url the outcome of its one fetch.
-/
import MikesCrawler.Refine.Entries
import MikesCrawler.Model.PlainUrl

open Machine

namespace MikesCrawler

variable {Url : Type} [DecidableEq Url] [Externals Url]
variable {robots : Option String} {seed : Url} {es : List (Event Url)} {s : CrawlInner Url}

/-! ### robots.txt -/

lemma Run.allowedByRobots_eq (h : Run robots seed es s) (url : Url) :
    s.crawl.data.allowedByRobots url = robotsAllow robots url := by
  rw [Crawl.allowedByRobots, h.robots_eq]

/-- A loop that has returned leaves nothing queued or in flight. -/
lemma Run.drained (h : Run robots seed es s) :
    s.outcome ≠ none → s.crawl.data.todo.queue = [] ∧ s.inFlight = [] := by
  refine Run.induction (P := fun _ s =>
    s.outcome ≠ none → s.crawl.data.todo.queue = [] ∧ s.inFlight = []) ?_ ?_ h
  · intro hne
    exact absurd rfl hne
  · intro es e s s' _ _ ih ht hne
    cases ht with
    | stop | abort => exact ⟨rfl, rfl⟩
    | poison => exact ih hne
    | start running | suspend running | settle running | fail running | resume running =>
        exact absurd running hne

/-- What is queued or in flight is allowed. -/
lemma Run.allowed_of_mem (h : Run robots seed es s) {url : Url}
    (hmem : url ∈ s.crawl.data.todo.queue ∨ url ∈ s.inFlight.map Prod.fst) :
    Allowed robots url := by
  cases hout : s.outcome with
  | none =>
      rcases hmem with hq | hf
      · exact h.allowed.1 hout url (Or.inl hq)
      · exact h.allowed.1 hout url (Or.inr (List.mem_append_left _ hf))
  | some result =>
      obtain ⟨hqueue, hflight⟩ := h.drained (by simp [hout])
      simp [hqueue, hflight] at hmem

/-- What robots.txt excludes has its entry as soon as it is seen. -/
lemma Run.excluded_entry (h : Run robots seed es s) {url : Url} (hseen : url ∈ s.crawl.data.seen)
    (hexcl : ¬ Allowed robots url) : s.entry url = some .excludedByRobotsTxt := by
  obtain ⟨ms, w, hms, hR, -⟩ := h.explores
  have hdone : url ∈ s.crawl.data.result.pages.keys := by
    rw [← hR.seen] at hseen
    rw [← hR.done]
    rcases Worklist.mem_seen.mp hseen with hd | hw
    · exact hd
    · exact absurd (Worklist.ok_of_mem (Allowed robots) hms url hw) hexcl
  obtain ⟨page, hpage⟩ := Crawl.exists_entry hdone
  rcases h.entry_cases hpage with ⟨-, rfl⟩ | ⟨hallowed, -⟩
  · exact hpage
  · exact absurd hallowed hexcl

/-- **robots.txt is never violated**: what is queued, in flight or was fetched
is allowed; what is seen and not allowed is recorded as excluded, now and after
any further events; and nothing else is recorded as excluded. -/
theorem robots_respected (h : Run robots seed es s) :
    (∀ url, url ∈ s.crawl.data.todo.queue ∨ url ∈ s.inFlight.map Prod.fst ∨ url ∈ fetched es →
      s.crawl.data.allowedByRobots url = true) ∧
    (∀ url ∈ s.crawl.data.seen, s.crawl.data.allowedByRobots url = false →
      s.entry url = some .excludedByRobotsTxt ∧
      ∀ fs s', exec CrawlInner.step s fs = some s' → s'.entry url = some .excludedByRobotsTxt) ∧
    ∀ url, s.entry url = some .excludedByRobotsTxt → s.crawl.data.allowedByRobots url = false := by
  refine ⟨fun url hmem => ?_, fun url hseen hexcl => ?_, fun url hentry => ?_⟩
  · rw [h.allowedByRobots_eq]
    rcases hmem with hqueued | hflight | hfetched
    · exact h.allowed_of_mem (Or.inl hqueued)
    · exact h.allowed_of_mem (Or.inr hflight)
    · exact h.allowed.2 url hfetched
  · rw [h.allowedByRobots_eq] at hexcl
    have hentry := h.excluded_entry hseen (not_allowed hexcl)
    exact ⟨hentry, fun fs s' hrun => h.entry_persists hrun hentry⟩
  · rw [h.allowedByRobots_eq]
    rcases h.entry_cases hentry with ⟨hexcl, -⟩ | ⟨-, v, ⟨response, -, hv⟩, hpage⟩
    · exact Bool.not_eq_true _ ▸ hexcl
    · exact absurd hpage.symm (visitOf_entry_ne hv)

/-- The excluded page of a site is recorded and not fetched. -/
theorem robots_respected_events :
    ∃ s, Run (some PlainUrl.robotsTxt) (PlainUrl.site "/") PlainUrl.events s ∧
      s.entry (PlainUrl.site "/private") = some .excludedByRobotsTxt := by
  refine ⟨_, rfl, ?_⟩
  have h := @robots_respected PlainUrl _ _ (some PlainUrl.robotsTxt) (PlainUrl.site "/")
    PlainUrl.events _ rfl
  exact (h.2.1 (PlainUrl.site "/private") (by decide) (by decide)).1

/-! ### Each url once -/

/-- The entry that the answer of a fetch determines, `none` for a page that
does not parse. -/
def pageResult (url : Url) : Except Error (HttpResponse Url) → Option (PageResult Url)
  | .ok (.html body) =>
      match parsePage url body with
      | .ok info => some (.crawled info)
      | .error _ => none
  | .ok (.serverFailure status msg) => some (.serverFailure status msg)
  | .ok (.redirect status target) => some (.redirect status target)
  | .ok (.otherContent contentType) => some (.otherContent contentType)
  | .error e => some (.error e.msg)

omit [DecidableEq Url] in
/-- The entry of a visit. -/
lemma pageResult_of_visit {url : Url} {response : Except Error (HttpResponse Url)} {v : Visit Url}
    (h : visitOf url response = some v) : pageResult url response = some v.entry := by
  match response with
  | .ok (.html body) =>
      simp only [visitOf] at h
      split at h
      · next info hinfo =>
          cases h
          simp only [pageResult, hinfo]
      · cases h
  | .ok (.serverFailure status msg) | .ok (.redirect status target)
  | .ok (.otherContent contentType) | .error e =>
      cases h
      rfl

/-- **Each url is processed once**: no url is fetched twice, no entry is
written twice, an entry never changes; and when the loop has stopped each
allowed url was fetched once, was answered once, and has the entry of that
answer. -/
theorem processed_once (h : Run robots seed es s) :
    (fetched es).Nodup ∧ s.crawl.data.inserts.Nodup ∧
    (∀ fs s', exec CrawlInner.step s fs = some s' →
      ∀ url page, s.entry url = some page → s'.entry url = some page) ∧
    (s.outcome = some (.ok ()) →
      ∀ url ∈ s.crawl.data.seen, s.crawl.data.allowedByRobots url = true →
        (fetched es).count url = 1 ∧
        ∃ response page, .got url response ∈ es ∧
          (∀ response', .got url response' ∈ es → response' = response) ∧
          pageResult url response = some page ∧ s.entry url = some page) := by
  refine ⟨h.fetched_nodup, ?_, fun fs s' hrun url page he => h.entry_persists hrun he, ?_⟩
  · rw [← Multiset.coe_nodup, h.logged.inserts_eq]
    exact s.crawl.data.result.pages.keys.nodup
  · intro hok url hseen hallowed
    rw [h.allowedByRobots_eq] at hallowed
    have hfetched : url ∈ fetched es := by
      rw [← Multiset.mem_coe, h.fetched_eq_of_stopped hok]
      exact Finset.mem_filter.mpr ⟨hseen, hallowed⟩
    have hkey : url ∈ s.crawl.data.result.pages.keys := by
      rw [h.stopped hok]
      exact hseen
    obtain ⟨page, hpage⟩ := Crawl.exists_entry hkey
    refine ⟨List.count_eq_one_of_mem h.fetched_nodup hfetched, ?_⟩
    rcases h.entry_cases hpage with ⟨hexcl, -⟩ | ⟨-, v, ⟨response, hgot, hv⟩, rfl⟩
    · exact absurd hallowed hexcl
    · exact ⟨response, v.entry, hgot, fun response' hgot' => h.got_unique hgot hgot',
        pageResult_of_visit hv, hpage⟩

/-- The start page of a site is fetched once and has the entry of its
answer. -/
theorem processed_once_events :
    ∃ s, Run (some PlainUrl.robotsTxt) (PlainUrl.site "/") PlainUrl.events s ∧
      s.outcome = some (.ok ()) ∧ (fetched PlainUrl.events).count (PlainUrl.site "/") = 1 ∧
      s.entry (PlainUrl.site "/")
        = some (.crawled { internalLinks := [PlainUrl.site "/a"], externalLinks := [] }) := by
  obtain ⟨s, hrun, hok, hseen, hallowed⟩ : ∃ s,
      Run (some PlainUrl.robotsTxt) (PlainUrl.site "/") PlainUrl.events s ∧
        s.outcome = some (.ok ()) ∧ PlainUrl.site "/" ∈ s.crawl.data.seen ∧
        s.crawl.data.allowedByRobots (PlainUrl.site "/") = true :=
    ⟨_, rfl, rfl, by decide, by decide⟩
  obtain ⟨hcount, response, page, hgot, -, hpage, hentry⟩ :=
    (processed_once hrun).2.2.2 hok _ hseen hallowed
  have hanswer : pageResult (PlainUrl.site "/") (PlainUrl.get (PlainUrl.site "/"))
      = some (.crawled { internalLinks := [PlainUrl.site "/a"], externalLinks := [] }) := rfl
  rw [PlainUrl.events_got hgot, hanswer] at hpage
  exact ⟨s, hrun, hok, hcount, hentry.trans hpage.symm⟩

end MikesCrawler
