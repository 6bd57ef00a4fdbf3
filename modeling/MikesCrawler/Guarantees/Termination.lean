/-
A crawl of a finite site does a bounded amount of work.

* `completions`, `Paced`: the steps that complete in a run; no more complete
  than were started, and no more are consumed than complete;
* `Run.card_pages`, `Run.card_pages_settled`: the number of entries, and what a
  step that ends well adds to it;
* `CrawlInner.Doomed`, `Run.doomed_trans`: a loop with a failed step to consume
  can only end in an error;
* `work_bounded`: the bound on the work of a crawl by the size of its site;
* `entries_jump`: a step that ends well can add more than one entry.
-/
import MikesCrawler.Guarantees.Failures
import MikesCrawler.Guarantees.Progress

open Machine

namespace MikesCrawler

variable {Url : Type} [DecidableEq Url] [Externals Url]
variable {robots : Option String} {seed : Url} {es : List (Event Url)} {s : CrawlInner Url}

/-! ### The pace of a run -/

/-- The url of the step that an event completes. -/
def Event.completed? (event : Event Url) : Option Url := event.ends.map Prod.fst

/-- The urls of the steps that complete in a run, in order. -/
def completions (es : List (Event Url)) : List Url := es.filterMap Event.completed?

omit [DecidableEq Url] [Externals Url] in
lemma completions_concat_of_none {e : Event Url} (h : e.ends = none) (es : List (Event Url)) :
    completions (es ++ [e]) = completions es :=
  filterMap_concat_of_none (by rw [Event.completed?, h, Option.map_none]) es

omit [DecidableEq Url] [Externals Url] in
lemma length_completions_concat {e : Event Url} {step : Url × StepState} (h : e.ends = some step)
    (es : List (Event Url)) : (completions (es ++ [e])).length = (completions es).length + 1 := by
  have hsome : e.completed? = some step.1 := by rw [Event.completed?, h, Option.map_some]
  rw [completions, filterMap_concat_of_some hsome, List.length_append, List.length_singleton]
  rfl

/-- No more steps have completed than were started, those in flight apart, and
no more were consumed than completed, those to be consumed apart. -/
structure Paced (es : List (Event Url)) (s : CrawlInner Url) : Prop where
  completed_le : (completions es).length + s.inFlight.length ≤ (fetched es).length
  consumed_le : es.count .next + s.completed.length ≤ (completions es).length

omit [Externals Url] in
/-- A step that completes leaves those in flight for those to be consumed. -/
lemma Paced.complete (h : Paced es s) {e : Event Url} {url : Url} {state : StepState}
    (ends : e.ends = some (url, state)) (mem : (url, state) ∈ s.inFlight) {s' : CrawlInner Url}
    (hflight : s'.inFlight = s.inFlight.erase (url, state))
    (hcompleted : s'.completed.length = s.completed.length + 1) : Paced (es ++ [e]) s' := by
  obtain ⟨hle, hle'⟩ := h
  have hne : e ≠ .next := by
    rintro rfl
    cases ends
  refine ⟨?_, ?_⟩
  · have hpos := List.length_pos_of_mem mem
    rw [length_completions_concat ends, fetched_concat_of_none (Event.fetched?_of_ends ends),
      hflight, List.length_erase_of_mem mem]
    omega
  · rw [length_completions_concat ends, List.count_append, List.count_singleton, hcompleted]
    simp only [beq_iff_eq, hne, if_false]
    omega

omit [Externals Url] in
/-- The loop consumes a completed step. -/
lemma Paced.consume (h : Paced es s) {step : Url × Except Error Unit}
    {completed : List (Url × Except Error Unit)} (consumed : s.completed = step :: completed)
    {s' : CrawlInner Url} (hflight : s'.inFlight.length ≤ s.inFlight.length)
    (hcompleted : s'.completed.length ≤ completed.length) : Paced (es ++ [.next]) s' := by
  obtain ⟨hle, hle'⟩ := h
  refine ⟨?_, ?_⟩
  · rw [completions_concat_of_none rfl, fetched_concat_of_none rfl]
    omega
  · have hlength := congrArg List.length consumed
    rw [List.length_cons] at hlength
    rw [completions_concat_of_none rfl, List.count_append, List.count_singleton_self]
    omega

/-- Every run is paced. -/
lemma Run.paced (h : Run robots seed es s) : Paced es s := by
  refine Run.induction (P := Paced) ⟨le_refl 0, le_refl 0⟩ ?_ h
  intro es e s s' _ _ ih ht
  cases ht with
  | @start url =>
      obtain ⟨hle, hle'⟩ := ih
      have hfetched : fetched (es ++ [.start url]) = fetched es ++ [url] :=
        filterMap_concat_of_some (f := Event.fetched?) rfl es
      refine ⟨?_, ?_⟩
      · rw [completions_concat_of_none rfl, hfetched, CrawlInner.started]
        simp only [List.length_append, List.length_singleton]
        omega
      · rw [completions_concat_of_none rfl, List.count_append]
        exact hle'
  | suspend _ mem =>
      obtain ⟨hle, hle'⟩ := ih
      refine ⟨?_, ?_⟩
      · have hpos := List.length_pos_of_mem mem
        rw [completions_concat_of_none rfl, fetched_concat_of_none rfl, CrawlInner.suspended]
        simp only [List.length_append, List.length_singleton, List.length_erase_of_mem mem]
        omega
      · rw [completions_concat_of_none rfl, List.count_append]
        exact hle'
  | settle _ ends _ mem _ | fail _ ends _ mem =>
      exact ih.complete ends mem rfl (List.length_append)
  | resume _ consumed => exact ih.consume consumed (le_refl _) (le_refl _)
  | stop _ consumed | abort _ consumed =>
      exact ih.consume consumed (Nat.zero_le _) (Nat.zero_le _)
  | poison =>
      obtain ⟨hle, hle'⟩ := ih
      refine ⟨?_, ?_⟩
      · rw [completions_concat_of_none rfl, fetched_concat_of_none rfl]
        exact hle
      · rw [completions_concat_of_none rfl, List.count_append]
        exact hle'

/-- The events of a run that are work of the crawl, and not of other threads. -/
def work (es : List (Event Url)) : List (Event Url) := es.filter fun e => e ≠ .poison

omit [Externals Url] in
/-- Each piece of work is a start, an answer, a completion or a consumption. -/
lemma length_work_le (es : List (Event Url)) : (work es).length
    ≤ (fetched es).length + (answered es).length + (completions es).length + es.count .next := by
  induction es with
  | nil => exact le_refl 0
  | cons e es ih =>
      have hkind : (if e = .poison then 0 else 1) ≤ e.fetched?.toList.length
          + e.answered?.toList.length + e.completed?.toList.length
          + if e = .next then 1 else 0 := by
        cases e with
        | start | got | parsed | next | poison =>
            simp [Event.fetched?, Event.answered?, Event.completed?, Event.ends]
      have hwork : (work (e :: es)).length = (work es).length + if e = .poison then 0 else 1 := by
        rw [work, List.filter_cons]
        by_cases he : e = .poison <;> simp [he, work]
      rw [fetched, answered, completions] at ih ⊢
      rw [hwork, List.count_cons]
      simp only [filterMap_cons_toList, List.length_append, beq_iff_eq]
      omega

/-- The work of a run is at most four events for each url seen. -/
lemma Run.length_work_le (h : Run robots seed es s) :
    (completions es).length ≤ s.crawl.data.seen.card ∧
      (work es).length ≤ 4 * s.crawl.data.seen.card := by
  obtain ⟨hcompleted, hconsumed⟩ := h.paced
  have hwork := MikesCrawler.length_work_le es
  have hfetched : (fetched es).length ≤ s.crawl.data.seen.card := by
    rw [← List.toFinset_card_of_nodup h.fetched_nodup]
    exact Finset.card_le_card fun url hmem => h.fetched_mem_seen (List.mem_toFinset.mp hmem)
  have hanswered : (answered es).length ≤ (fetched es).length := by
    have hle := Multiset.card_le_card h.answered_add_fetching_le
    rw [Multiset.card_add, Multiset.coe_card, Multiset.coe_card, Multiset.coe_card] at hle
    omega
  constructor <;> omega

/-! ### The entries that a step adds -/

/-- The urls that robots.txt excludes, of those newly seen. -/
def newlyExcluded (robots : Option String) (s s' : CrawlInner Url) : Finset Url :=
  (s'.crawl.data.seen \ s.crawl.data.seen).filter fun url => robotsAllow robots url = false

/-- The entries of a crawl in its loop: those of the fetched urls that are not
in flight, and those of the excluded urls seen. -/
lemma Run.card_pages (h : Run robots seed es s) (hrun : s.outcome = none) :
    s.crawl.data.result.pages.keys.card + s.unfinished.length = (fetched es).length
      + (s.crawl.data.seen.filter fun url => robotsAllow robots url = false).card := by
  have hexcluded : (s.crawl.data.result.pages.keys.filter fun url => ¬ Allowed robots url)
      = s.crawl.data.seen.filter fun url => robotsAllow robots url = false := by
    ext url
    rw [Finset.mem_filter, Finset.mem_filter, Allowed, Bool.not_eq_true]
    refine ⟨fun hk => ⟨h.keys_subset_seen hk.1, hk.2⟩, fun hs => ⟨?_, hs.2⟩⟩
    exact Crawl.mem_keys_of_entry (h.excluded_entry hs.1 (not_allowed hs.2))
  have hfetched := congrArg Multiset.card (h.fetched_eq hrun)
  rw [Multiset.card_add, Multiset.coe_card, Multiset.coe_card, Finset.card_val] at hfetched
  have hsplit := Finset.card_filter_add_card_filter_not (s := s.crawl.data.result.pages.keys)
    (Allowed robots)
  rw [hexcluded] at hsplit
  omega

lemma card_newlyExcluded (robots : Option String) {s s' : CrawlInner Url}
    (h : s.crawl.data.seen ⊆ s'.crawl.data.seen) :
    (s'.crawl.data.seen.filter fun url => robotsAllow robots url = false).card
      = (s.crawl.data.seen.filter fun url => robotsAllow robots url = false).card
        + (newlyExcluded robots s s').card := by
  calc (s'.crawl.data.seen.filter fun url => robotsAllow robots url = false).card
      = ((s.crawl.data.seen ∪ s'.crawl.data.seen \ s.crawl.data.seen).filter
          fun url => robotsAllow robots url = false).card := by
        rw [Finset.union_sdiff_of_subset h]
    _ = ((s.crawl.data.seen.filter fun url => robotsAllow robots url = false)
          ∪ newlyExcluded robots s s').card := by rw [Finset.filter_union, newlyExcluded]
    _ = (s.crawl.data.seen.filter fun url => robotsAllow robots url = false).card
          + (newlyExcluded robots s s').card :=
        Finset.card_union_of_disjoint (Finset.disjoint_filter_filter Finset.disjoint_sdiff)

/-- A step that ends well adds its own entry, and those of the excluded urls it
has found. -/
lemma Run.card_pages_settled (h : Run robots seed es s) {e : Event Url} {url : Url}
    {state : StepState} {v : Visit Url} (h' : Run robots seed (es ++ [e]) (s.settled url state v))
    (running : s.outcome = none) (ends : e.ends = some (url, state))
    (mem : (url, state) ∈ s.inFlight) :
    (s.settled url state v).crawl.data.result.pages.keys.card
      = s.crawl.data.result.pages.keys.card + 1
        + (newlyExcluded robots s (s.settled url state v)).card := by
  have hbefore := h.card_pages running
  have hafter := h'.card_pages running
  have hunfinished := congrArg Multiset.card (CrawlInner.unfinished_settled (v := v) mem)
  rw [Multiset.card_cons, Multiset.coe_card, Multiset.coe_card] at hunfinished
  have hseen : s.crawl.data.seen ⊆ (s.settled url state v).crawl.data.seen :=
    (Crawl.discoverAll_keeps h.logged v.found).2.1
  have hnew := card_newlyExcluded robots hseen
  rw [fetched_concat_of_none (Event.fetched?_of_ends ends)] at hafter
  omega

/-! ### Failed steps -/

/-- The loop has ended in an error, or will when it consumes a failed step. -/
def CrawlInner.Doomed (s : CrawlInner Url) (url : Url) (err : Error) : Prop :=
  (s.outcome = none ∧ (url, .error err) ∈ s.completed) ∨ ∃ e, s.outcome = some (.error e)

/-- A failed step stays to be consumed until the loop has ended in an error: the
test for the end does not hold before. -/
lemma Run.doomed_trans (h : Run robots seed es s) {e : Event Url} {s' : CrawlInner Url}
    (ht : s.Trans e s') {url : Url} {err : Error} (hd : s.Doomed url err) : s'.Doomed url err := by
  have hfailed : s.outcome = none → (url, .error err) ∈ s.completed := fun hrun => by
    rcases hd with ⟨-, hmem⟩ | ⟨e, hout⟩
    · exact hmem
    · cases hrun.symm.trans hout
  cases ht with
  | start | suspend | poison => exact hd
  | settle running | fail running =>
      exact Or.inl ⟨running, List.mem_append_left _ (hfailed running)⟩
  | resume running consumed =>
      have hmem := hfailed running
      rw [consumed] at hmem
      rcases List.mem_cons.mp hmem with heq | hmem
      · cases heq
      · exact Or.inl ⟨running, hmem⟩
  | stop running _ _ exhausted =>
      have hflight : url ∈ s.unfinished :=
        List.mem_append_right _ (List.mem_filterMap.mpr ⟨_, hfailed running, rfl⟩)
      rw [((h.exhausted_iff running).mp exhausted).2] at hflight
      cases hflight
  | abort => exact Or.inr ⟨_, rfl⟩

/-- What the completion of a step does to a crawl: a step that ends well adds
its entry and those of newly excluded urls, and one that fails dooms the loop. -/
lemma Run.completion_cases (h : Run robots seed es s) {e : Event Url} {s' : CrawlInner Url}
    (hstep : s.step e = some s') {url : Url} (hcompleted : e.completed? = some url) :
    (s'.completed = s.completed ++ [(url, .ok ())] ∧
      s'.crawl.data.result.pages.keys.card = s.crawl.data.result.pages.keys.card + 1
        + (newlyExcluded robots s s').card) ∨
    ∃ err, s'.completed = s.completed ++ [(url, .error err)] ∧ s'.crawl = s.crawl ∧
      s'.Doomed url err := by
  obtain ⟨⟨url', state⟩, hends, rfl⟩ := Option.map_eq_some_iff.mp hcompleted
  have ht := CrawlInner.trans_of_step h.receiver hstep
  cases ht with
  | settle running ends _ mem _ =>
      cases hends.symm.trans ends
      have hrun' : Run robots seed (es ++ [e]) _ := exec_concat_eq_some.mpr ⟨s, h, hstep⟩
      exact Or.inl ⟨rfl, h.card_pages_settled hrun' running ends mem⟩
  | @fail _ _ _ err running ends =>
      cases hends.symm.trans ends
      refine Or.inr ⟨err, rfl, rfl, Or.inl ⟨running, ?_⟩⟩
      exact List.mem_append_right _ (List.mem_singleton_self _)
  | start | suspend | resume | stop | abort | poison => cases hends

/-- A failed step that is consumed ends the loop with its error. -/
lemma CrawlInner.step_next_error {url : Url} {err : Error}
    {completed : List (Url × Except Error Unit)} (hrun : s.outcome = none)
    (hcons : s.completed = (url, .error err) :: completed) :
    s.step .next = some (s.returns (.error err)) := by
  rw [step, hrun, hcons]

/-- A loop that has ended does nothing more. -/
lemma CrawlInner.eq_poison_of_step {e : Event Url} {s' : CrawlInner Url}
    (hended : s.outcome ≠ none) (hstep : s.step e = some s') : e = .poison := by
  have ht := trans_of_step (fun hrun => absurd hrun hended) hstep
  cases ht with
  | poison => rfl
  | start running | suspend running | settle running | fail running | resume running
  | stop running | abort running => exact absurd running hended

/-! ### The bound -/

/-- The urls of a site that can be reached. -/
def siteUrls (get : Url → Except Error (HttpResponse Url)) (robots : Option String) (seed : Url) :
    Set Url := {url | SiteReach get robots seed url}

/-- **A crawl of a finite site does a bounded amount of work.**  With a client
that answers by a function of the url, and `n` urls that can be reached: at most
`n` steps complete, and a run has at most `4 n` events of work; there are never
more entries than urls seen, nor more of these than `n`; a step that ends well
adds its own entry and those of the excluded urls it is the first to find; and
one that fails ends the run, which cannot return a result from there, holds the
failed step until the loop consumes it, and ends with its error then. -/
theorem work_bounded {get : Url → Except Error (HttpResponse Url)} (h : Run robots seed es s)
    (hget : ∀ url response, .got url response ∈ es → response = get url)
    (hfin : (siteUrls get robots seed).Finite) :
    (completions es).length ≤ (siteUrls get robots seed).ncard ∧
    (work es).length ≤ 4 * (siteUrls get robots seed).ncard ∧
    s.crawl.data.result.pages.keys.card ≤ s.crawl.data.seen.card ∧
    s.crawl.data.seen.card ≤ (siteUrls get robots seed).ncard ∧
    (∀ e s' url, s.step e = some s' → e.completed? = some url →
      (s'.completed = s.completed ++ [(url, .ok ())] ∧
        s'.crawl.data.result.pages.keys.card = s.crawl.data.result.pages.keys.card + 1
          + (newlyExcluded robots s s').card) ∨
      ∃ err, s'.completed = s.completed ++ [(url, .error err)] ∧ s'.crawl = s.crawl ∧
        ∀ fs t, exec CrawlInner.step s' fs = some t → t.Doomed url err) ∧
    (∀ url err completed, s.outcome = none → s.completed = (url, .error err) :: completed →
      s.step .next = some (s.returns (.error err))) ∧
    ∀ e s', s.step e = some s' → s.outcome ≠ none → e = .poison := by
  have hseen : s.crawl.data.seen.card ≤ (siteUrls get robots seed).ncard := by
    rw [← Set.ncard_coe_finset]
    exact Set.ncard_le_ncard (fun url hmem => h.siteReach_of_seen hget url hmem) hfin
  obtain ⟨hcompletions, hwork⟩ := h.length_work_le
  refine ⟨hcompletions.trans hseen, hwork.trans (Nat.mul_le_mul_left 4 hseen),
    Finset.card_le_card h.keys_subset_seen, hseen, fun e s' url hstep hcompleted => ?_,
    fun url err completed hrun hcons => CrawlInner.step_next_error hrun hcons,
    fun e s' hstep hended => CrawlInner.eq_poison_of_step hended hstep⟩
  rcases h.completion_cases hstep hcompleted with hok | ⟨err, hfailed, hcrawl, hdoomed⟩
  · exact Or.inl hok
  · have hrun' : Run robots seed (es ++ [e]) s' := exec_concat_eq_some.mpr ⟨s, h, hstep⟩
    exact Or.inr ⟨err, hfailed, hcrawl, fun fs t ht => Run.persists
      (P := fun s => s.Doomed url err) (fun _ _ _ _ hrun ht hd => hrun.doomed_trans ht hd)
      hrun' hdoomed ht⟩

/-- The urls of the site with a link, a redirect and an excluded page are
three. -/
lemma PlainUrl.siteReach_subset {seed url : PlainUrl}
    (hseed : seed ∈ ({site "/", site "/a", site "/private"} : Finset PlainUrl))
    (h : SiteReach PlainUrl.get (some robotsTxt) seed url) :
    url ∈ ({site "/", site "/a", site "/private"} : Finset PlainUrl) := by
  induction h with
  | seed => exact hseed
  | @link url link body info _ _ page parses mem ih =>
      rw [get] at page
      split at page
      · next hurl =>
          cases page
          rw [hurl] at parses
          cases parses
          cases List.mem_singleton.mp mem
          decide
      · split at page <;> cases page
  | @redirect url target status _ _ page same ih =>
      rw [get] at page
      split at page
      · cases page
      · split at page
        · cases page
          decide
        · cases page

lemma PlainUrl.siteReach_finite {seed : PlainUrl}
    (hseed : seed ∈ ({site "/", site "/a", site "/private"} : Finset PlainUrl)) :
    (siteUrls PlainUrl.get (some robotsTxt) seed).Finite :=
  (Finset.finite_toSet _).subset fun _ h => siteReach_subset hseed h

/-- The crawl of that site. -/
theorem work_bounded_events :
    ∃ s, Run (some PlainUrl.robotsTxt) (PlainUrl.site "/") PlainUrl.events s ∧
      (completions PlainUrl.events).length
        ≤ (siteUrls PlainUrl.get (some PlainUrl.robotsTxt) (PlainUrl.site "/")).ncard := by
  refine ⟨_, rfl, ?_⟩
  exact (work_bounded
    (rfl : Run (some PlainUrl.robotsTxt) (PlainUrl.site "/") PlainUrl.events _)
    (fun url response => PlainUrl.events_got) (PlainUrl.siteReach_finite (by decide))).1

/-- A step that ends well adds two entries, its own and that of the excluded
page it is redirected to. -/
theorem entries_jump :
    ∃ s s', Run (some PlainUrl.robotsTxt) (PlainUrl.site "/a") [.start (PlainUrl.site "/a")] s ∧
      s.step (.got (PlainUrl.site "/a") (PlainUrl.get (PlainUrl.site "/a"))) = some s' ∧
      (siteUrls PlainUrl.get (some PlainUrl.robotsTxt) (PlainUrl.site "/a")).Finite ∧
      s'.completed = s.completed ++ [(PlainUrl.site "/a", .ok ())] ∧
      s.crawl.data.result.pages.keys.card = 0 ∧ s'.crawl.data.result.pages.keys.card = 2 :=
  ⟨_, _, rfl, rfl, PlainUrl.siteReach_finite (by decide), rfl, by decide, by decide⟩

end MikesCrawler
