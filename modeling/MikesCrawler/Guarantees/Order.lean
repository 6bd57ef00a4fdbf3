/-
Why and in which order urls are fetched.

* `Run.found_of_seen`, `fetch_caused`: a url is fetched because a step that has
  ended before found it, and its page was fetched before; the first fetch is of
  the seed;
* `OrderedRun`: a run in the order of the channel; `Crawl.discoverAll_queue`,
  `CrawlInner.Trans.serves`: what a step takes from the queue and adds to it;
* `fetched_in_order`: in such a run urls are fetched in the order they were
  found in, so that none is overtaken by one found later;
* `Run.outstanding`, `outstanding_bounded`: at any time at most twenty of them
  have no answer yet.
-/
import MikesCrawler.Machine.Queue
import MikesCrawler.Model.Environment
import MikesCrawler.Model.PlainMarkup
import MikesCrawler.Guarantees.Fetches
import MikesCrawler.Guarantees.Progress

open Machine

namespace MikesCrawler

variable {Url : Type} [DecidableEq Url] [Externals Url]
variable {robots : Option String} {seed : Url} {es : List (Event Url)} {s : CrawlInner Url}

/-! ### The cause of a fetch -/

/-- The step of a url has ended in the run, and has found another. -/
def FoundBy (es : List (Event Url)) (url found : Url) : Prop :=
  ∃ e ∈ es, ∃ state v, e.ends = some (url, state) ∧ e.visit = some v ∧ found ∈ v.found

/-- What is seen is the seed or was found by a step that has ended. -/
lemma Run.found_of_seen (h : Run robots seed es s) {url : Url}
    (hseen : url ∈ s.crawl.data.seen) : url = seed ∨ ∃ cause, FoundBy es cause url := by
  obtain ⟨ms, w, hms, hR⟩ := h.refines
  rw [← hR.seen] at hseen
  refine Worklist.seen_subset (S := {url | url = seed ∨ ∃ cause, FoundBy es cause url})
    (Or.inl rfl) hms ?_ url hseen
  intro cause found hmem _ _ b hb
  obtain ⟨e, he, state, v, hends, hvisit, rfl⟩ := hR.finished cause found hmem
  exact Or.inr ⟨cause, e, he, state, v, hends, hvisit, hb⟩

/-- A step that has ended was fetched. -/
lemma Run.fetched_of_foundBy (h : Run robots seed es s) {url found : Url}
    (hfound : FoundBy es url found) : url ∈ fetched es := by
  obtain ⟨e, he, state, v, hends, hvisit, -⟩ := hfound
  obtain ⟨response, hgot, -⟩ := h.answered_of_visit he hends hvisit
  exact h.fetched_of_got hgot

omit [DecidableEq Url] [Externals Url] in
lemma fetched_append (es fs : List (Event Url)) :
    fetched (es ++ fs) = fetched es ++ fetched fs := List.filterMap_append

omit [DecidableEq Url] [Externals Url] in
lemma fetched_start (url : Url) (fs : List (Event Url)) :
    fetched (.start url :: fs) = url :: fetched fs := rfl

omit [DecidableEq Url] [Externals Url] in
lemma mem_fetched {url : Url} : url ∈ fetched es ↔ .start url ∈ es := by
  rw [fetched, List.mem_filterMap]
  constructor
  · rintro ⟨e, hmem, he⟩
    cases e with
    | start url' =>
        cases he
        exact hmem
    | got | parsed | next | poison => cases he
  · intro hmem
    exact ⟨_, hmem, rfl⟩

/-- What is started was queued. -/
lemma Run.queued_of_start {url : Url} {fs : List (Event Url)}
    (h : Run robots seed (es ++ .start url :: fs) s) :
    ∃ t, Run robots seed es t ∧ t.outcome = none ∧ url ∈ t.crawl.data.todo.queue := by
  obtain ⟨t, ht, hrest⟩ := exec_split h
  obtain ⟨u, hstep, -⟩ := exec_cons_eq_some.mp hrest
  cases CrawlInner.trans_of_step (Run.receiver ht) hstep with
  | start running queued => exact ⟨t, ht, running, queued⟩
  | settle _ ends | fail _ ends => cases ends

lemma Run.queued_mem_seen (h : Run robots seed es s) (hrun : s.outcome = none) {url : Url}
    (hmem : url ∈ s.crawl.data.todo.queue) : url ∈ s.crawl.data.seen := by
  obtain ⟨w, hseen, -, hwaiting, -⟩ := h.worklist hrun
  rw [← hseen, Worklist.mem_seen, hwaiting]
  exact Or.inr (Or.inl (Multiset.mem_coe.mpr hmem))

lemma Run.cause_of_start {url : Url} {fs : List (Event Url)}
    (h : Run robots seed (es ++ .start url :: fs) s) :
    url = seed ∨ ∃ cause, cause ∈ fetched es ∧ FoundBy es cause url := by
  obtain ⟨t, ht, hrun, hqueued⟩ := h.queued_of_start
  rcases ht.found_of_seen (ht.queued_mem_seen hrun hqueued) with hseed | ⟨cause, hfound⟩
  · exact Or.inl hseed
  · exact Or.inr ⟨cause, ht.fetched_of_foundBy hfound, hfound⟩

/-- A crawl that has fetched anything has fetched its seed. -/
lemma Run.seed_fetched (h : Run robots seed es s) : fetched es ≠ [] → seed ∈ fetched es := by
  refine Run.induction (P := fun es _ => fetched es ≠ [] → seed ∈ fetched es) ?_ ?_ h
  · exact fun hne => absurd rfl hne
  · intro es e s s' _ hs' ih ht hne
    rw [fetched_append] at hne ⊢
    by_cases hes : fetched es = []
    · rw [hes, List.nil_append] at hne
      obtain ⟨url, hurl⟩ := List.exists_mem_of_ne_nil _ hne
      cases List.mem_singleton.mp (mem_fetched.mp hurl)
      rcases hs'.cause_of_start with rfl | ⟨cause, hmem, -⟩
      · exact List.mem_append_right _ hurl
      · rw [hes] at hmem
        cases hmem
    · exact List.mem_append_left _ (ih hes)

/-- **Every fetch has a cause**: the first fetch of a crawl is that of its seed,
and any other is of a url that a step has found whose own url was fetched and
whose page was processed before. -/
theorem fetch_caused {url : Url} {fs : List (Event Url)}
    (h : Run robots seed (es ++ .start url :: fs) s) :
    (fetched es = [] ↔ url = seed) ∧
      (url ≠ seed → ∃ cause, cause ∈ fetched es ∧ FoundBy es cause url) := by
  have hcause : url ≠ seed → ∃ cause, cause ∈ fetched es ∧ FoundBy es cause url :=
    h.cause_of_start.resolve_left
  refine ⟨⟨fun hnone => ?_, fun hseed => ?_⟩, hcause⟩
  · by_contra hne
    obtain ⟨cause, hmem, -⟩ := hcause hne
    rw [hnone] at hmem
    cases hmem
  · by_contra hsome
    -- the seed is fetched once
    obtain ⟨t, ht, -⟩ := h.queued_of_start
    have hnodup := h.fetched_nodup
    rw [fetched_append, fetched_start, List.nodup_append] at hnodup
    exact hnodup.2.2 seed (ht.seed_fetched hsome) url List.mem_cons_self hseed.symm

/-- The second page of a site is fetched because its start page links to it. -/
theorem fetch_caused_events :
    ∃ s, Run (some PlainUrl.robotsTxt) (PlainUrl.site "/") PlainUrl.events s ∧
      ∃ cause, cause ∈ fetched (PlainUrl.events.take 4) ∧
        FoundBy (PlainUrl.events.take 4) cause (PlainUrl.site "/a") := by
  refine ⟨_, rfl, ?_⟩
  have h := @fetch_caused PlainUrl _ _ (some PlainUrl.robotsTxt) (PlainUrl.site "/")
    (PlainUrl.events.take 4) _ (PlainUrl.site "/a") (PlainUrl.events.drop 5) rfl
  exact h.2 (by decide)

/-! ### The order of the channel -/

/-- A run in the order of the channel. -/
def OrderedRun (robots : Option String) (seed : Url) (es : List (Event Url))
    (s : CrawlInner Url) : Prop :=
  exec (restrict CrawlInner.inOrder CrawlInner.step) (CrawlInner.begin robots seed) es = some s

lemma OrderedRun.run (h : OrderedRun robots seed es s) : Run robots seed es s := exec_of_restrict h

/-- Noting urls queues some that were not seen at the end. -/
lemma Crawl.discoverAll_queue (crawl : Crawl Url) (urls : List Url) :
    ∃ new, (crawl.discoverAll urls).todo.queue = crawl.todo.queue ++ new ∧
      ∀ url ∈ new, url ∉ crawl.seen := by
  induction urls generalizing crawl with
  | nil => exact ⟨[], by simp [discoverAll_nil], by simp⟩
  | cons url urls ih =>
      obtain ⟨new, hnew, hfresh⟩ := ih (crawl.discover url)
      rw [discoverAll_cons]
      obtain ⟨-, heq⟩ | ⟨hs, -, heq⟩ | ⟨-, -, heq⟩ := crawl.discover_cases url
      · rw [heq] at hnew hfresh ⊢
        exact ⟨new, hnew, hfresh⟩
      · rw [heq] at hnew hfresh ⊢
        refine ⟨url :: new, ?_, ?_⟩
        · rw [hnew, enqueue, List.append_assoc, List.singleton_append]
        · intro url' hmem
          rcases List.mem_cons.mp hmem with rfl | hmem
          · exact hs
          · exact fun hseen => hfresh url' hmem (Finset.mem_insert_of_mem hseen)
      · rw [heq] at hnew hfresh ⊢
        exact ⟨new, hnew, fun url' hmem hseen => hfresh url' hmem (Finset.mem_insert_of_mem hseen)⟩

/-- A crawl that is still running has taken the first of its queue, if it has
started anything, and has queued some urls that it had not seen. -/
lemma CrawlInner.Trans.serves {e : Event Url} {s' : CrawlInner Url} (ht : s.Trans e s')
    (horder : s.inOrder e = true) (hrun : s'.outcome = none) :
    ∃ new, e.fetched?.toList ++ s'.crawl.data.todo.queue = s.crawl.data.todo.queue ++ new ∧
      ∀ url ∈ new, url ∉ s.crawl.data.seen := by
  have hidle : ∀ {queue : List Url}, e.fetched? = none → queue = s.crawl.data.todo.queue →
      ∃ new, e.fetched?.toList ++ queue = s.crawl.data.todo.queue ++ new ∧
        ∀ url ∈ new, url ∉ s.crawl.data.seen := by
    rintro queue hnone rfl
    exact ⟨[], by simp [hnone], by simp⟩
  cases ht with
  | @start url running queued =>
      have hhead : s.crawl.data.todo.queue.head? = some url := of_decide_eq_true horder
      obtain ⟨queue, hqueue⟩ := List.head?_eq_some_iff.mp hhead
      refine ⟨[], ?_, by simp⟩
      show [url] ++ s.crawl.data.todo.queue.erase url = _
      rw [hqueue, List.erase_cons_head, List.append_nil, List.singleton_append]
  | @settle _ url state v running ends =>
      obtain ⟨new, hnew, hfresh⟩ := s.crawl.data.discoverAll_queue v.found
      rw [Event.fetched?_of_ends ends]
      exact ⟨new, hnew, hfresh⟩
  | fail _ ends => exact hidle (Event.fetched?_of_ends ends) rfl
  | suspend | resume | poison => exact hidle rfl rfl
  | stop | abort => cases hrun

/-- What is seen stays seen. -/
lemma Run.seen_trans (h : Run robots seed es s) {e : Event Url} {s' : CrawlInner Url}
    (ht : s.Trans e s') : s.crawl.data.seen ⊆ s'.crawl.data.seen := by
  cases ht with
  | @settle _ url state v => exact (Crawl.discoverAll_keeps h.logged v.found).2.1
  | start | suspend | fail | resume | stop | abort | poison => exact Finset.Subset.refl _

variable {fs : List (Event Url)} {t : CrawlInner Url}

/-- What is fetched from a state on, and what is queued in the end, is what was
queued there and then what was not seen there. -/
lemma OrderedRun.conserves (h : OrderedRun robots seed es s)
    (h' : exec (restrict CrawlInner.inOrder CrawlInner.step) s fs = some t)
    (hrun : t.outcome = none) : s.outcome = none ∧
      ∃ new, fetched fs ++ t.crawl.data.todo.queue = s.crawl.data.todo.queue ++ new ∧
        ∀ url ∈ new, url ∉ s.crawl.data.seen := by
  refine exec_conserves (fun s => s.crawl.data.todo.queue) Event.fetched?
    (fun s => s.outcome = none) (fun s url => url ∉ s.crawl.data.seen) ?_ ?_ h h' hrun
  · intro es s e t hs hstep hlive
    obtain ⟨horder, hstep⟩ := restrict_eq_some.mp hstep
    have ht := CrawlInner.trans_of_step (OrderedRun.run hs).receiver hstep
    exact ⟨ht.running hlive, ht.serves horder hlive⟩
  · intro es s e t url hs hstep hfresh hseen
    have ht := CrawlInner.trans_of_step (OrderedRun.run hs).receiver (restrict_eq_some.mp hstep).2
    exact hfresh ((OrderedRun.run hs).seen_trans ht hseen)

/-- An allowed url that is seen is queued or was fetched. -/
lemma Run.queued_or_fetched (h : Run robots seed es s) (hrun : s.outcome = none) {url : Url}
    (hseen : url ∈ s.crawl.data.seen) (hallowed : robotsAllow robots url = true) :
    url ∈ s.crawl.data.todo.queue ∨ url ∈ fetched es := by
  obtain ⟨w, hw, hdone, hwaiting, hactive⟩ := h.worklist hrun
  rw [← Multiset.mem_coe, ← Multiset.mem_coe, h.fetched_eq hrun, ← hwaiting, ← hactive, ← hdone,
    Multiset.mem_add]
  rw [← hw, Worklist.mem_seen] at hseen
  rcases hseen with hd | hq | ha
  · exact Or.inr (Or.inr (Finset.mem_filter.mpr ⟨hd, hallowed⟩))
  · exact Or.inl hq
  · exact Or.inr (Or.inl ha)

/-- **Urls are fetched in the order they were found in.**  In the order of the
channel, from any state on, the urls queued there are fetched first and in their
order, and then those that were not seen there; so an allowed url that is seen
is fetched before any url that is not seen yet. -/
theorem fetched_in_order (h : OrderedRun robots seed es s)
    (h' : exec (restrict CrawlInner.inOrder CrawlInner.step) s fs = some t) :
    (t.outcome = none →
      ∃ new, fetched fs ++ t.crawl.data.todo.queue = s.crawl.data.todo.queue ++ new ∧
        ∀ url ∈ new, url ∉ s.crawl.data.seen) ∧
    ∀ a b, a ∈ s.crawl.data.seen → robotsAllow robots a = true → b ∉ s.crawl.data.seen →
      b ∈ fetched fs → a ∈ fetched es ∨ [a, b].Sublist (fetched fs) := by
  refine ⟨fun hrun => (h.conserves h' hrun).2, fun a b ha hallowed hb hmem => ?_⟩
  -- up to the start of the later url the loop runs
  obtain ⟨gs, rest, rfl⟩ := List.append_of_mem (mem_fetched.mp hmem)
  obtain ⟨u, hu, hrest⟩ := exec_split h'
  obtain ⟨u', hstep, -⟩ := exec_cons_eq_some.mp hrest
  have hordered : OrderedRun robots seed (es ++ gs) u := exec_join h hu
  have hrunning : u'.outcome = none := by
    cases CrawlInner.trans_of_step hordered.run.receiver (restrict_eq_some.mp hstep).2 with
    | start running => exact running
    | settle _ ends | fail _ ends => cases ends
  obtain ⟨hrun, new, hnew, -⟩ := h.conserves (exec_concat_eq_some.mpr ⟨u, hu, hstep⟩) hrunning
  rcases h.run.queued_or_fetched hrun ha hallowed with hqueued | hfetched
  · have hnot : b ∉ s.crawl.data.todo.queue := fun hq => hb (h.run.queued_mem_seen hrun hq)
    have hserved : b ∈ fetched (gs ++ [.start b]) := by simp [fetched_append, fetched_start]
    obtain ⟨after, heq, hafter⟩ := served_first hnew hserved hnot
    have hpair : [a, b].Sublist (s.crawl.data.todo.queue ++ after) :=
      (List.singleton_sublist.mpr hqueued).append (List.singleton_sublist.mpr hafter)
    refine Or.inr (hpair.trans ?_)
    rw [← heq, fetched_append, fetched_append, fetched_start]
    exact List.Sublist.append_left (List.singleton_sublist.mpr List.mem_cons_self) _
  · exact Or.inl hfetched

/-- A start page with two links. -/
def SiteUrl.forkPage : String := "<a href=/a>a</a><a href=/b>b</a>"

/-- The events of its crawl up to where they are queued. -/
def SiteUrl.forkEvents : List (Event SiteUrl) :=
  [.start (page "/"), .got (page "/") (.ok (.html forkPage)), .parsed (page "/") forkPage (.ok ()),
    .next]

/-- Those from there to the fetch of a page that the first of them links to. -/
def SiteUrl.branchEvents : List (Event SiteUrl) :=
  [.start (page "/a"), .start (page "/b"), .got (page "/a") (.ok (.html "<a href=/c>c</a>")),
    .parsed (page "/a") "<a href=/c>c</a>" (.ok ()), .next, .start (page "/c")]

/-- A page found first is fetched before one found later. -/
theorem fetched_in_order_fork :
    ∃ s t, OrderedRun none (SiteUrl.page "/") SiteUrl.forkEvents s ∧
      exec (restrict CrawlInner.inOrder CrawlInner.step) s SiteUrl.branchEvents = some t ∧
      [SiteUrl.page "/b", SiteUrl.page "/c"].Sublist (fetched SiteUrl.branchEvents) := by
  obtain ⟨s, t, hrun, hrest, hseen, hnew⟩ : ∃ s t,
      OrderedRun none (SiteUrl.page "/") SiteUrl.forkEvents s ∧
        exec (restrict CrawlInner.inOrder CrawlInner.step) s SiteUrl.branchEvents = some t ∧
        SiteUrl.page "/b" ∈ s.crawl.data.seen ∧ SiteUrl.page "/c" ∉ s.crawl.data.seen :=
    ⟨_, _, rfl, rfl, by decide, by decide⟩
  have horder := (fetched_in_order hrun hrest).2 _ _ hseen rfl hnew (by decide)
  exact ⟨s, t, hrun, hrest, horder.resolve_left (by decide)⟩

/-! ### How many fetches there are at a time -/

omit [Externals Url] in
/-- The steps that wait, one step in flight apart, by their number. -/
lemma CrawlInner.length_fetching {url : Url} {state : StepState}
    (h : (url, state) ∈ s.inFlight) :
    s.fetching.length = (fetching? (url, state)).toList.length
      + ((s.inFlight.erase (url, state)).filterMap fetching?).length := by
  have hcard := congrArg Multiset.card (CrawlInner.coe_fetching h)
  rw [Multiset.card_add] at hcard
  exact hcard

/-- A loop has at most twenty steps in flight, and while it runs each url that
was fetched was answered or waits for its answer. -/
lemma Run.outstanding (h : Run robots seed es s) :
    s.inFlight.length ≤ 20 ∧ (fetched es).length ≤ (answered es).length + 20 ∧
      (s.outcome = none → (fetched es).length ≤ (answered es).length + s.fetching.length) := by
  refine Run.induction (P := fun es s => s.inFlight.length ≤ 20 ∧
    (fetched es).length ≤ (answered es).length + 20 ∧ (s.outcome = none →
      (fetched es).length ≤ (answered es).length + s.fetching.length)) ?_ ?_ h
  · exact ⟨Nat.zero_le _, Nat.zero_le _, fun _ => Nat.zero_le _⟩
  intro es e s s' _ _ ⟨hflight, hall, hrunning⟩ ht
  have hlength : (answered (es ++ [e])).length
      = (answered es).length + e.answered?.toList.length := by
    have hcard := congrArg Multiset.card (coe_answered_concat es e)
    rw [Multiset.card_add] at hcard
    exact hcard
  have hwait : s.fetching.length ≤ s.inFlight.length := List.length_filterMap_le _ _
  -- what ends a step takes it from those in flight
  have hends : ∀ {url state}, s.outcome = none → e.ends = some (url, state) →
      (url, state) ∈ s.inFlight → (s.inFlight.erase (url, state)).length ≤ 20 ∧
      (fetched (es ++ [e])).length ≤ (answered (es ++ [e])).length + 20 ∧
      (fetched (es ++ [e])).length ≤ (answered (es ++ [e])).length
        + ((s.inFlight.erase (url, state)).filterMap fetching?).length := by
    intro url state hrun he hmem
    have hsplit := CrawlInner.length_fetching hmem
    have herase := List.length_erase_of_mem hmem
    have hrun' := hrunning hrun
    rw [fetched_concat_of_none (Event.fetched?_of_ends he), hlength, Event.answered?_of_ends he]
    omega
  cases ht with
  | @start url running _ room =>
      have hfetched : (fetched (es ++ [.start url])).length = (fetched es).length + 1 := by
        rw [fetched_append, fetched_start, List.length_append]
        rfl
      have hfetching : (s.started url).fetching.length = s.fetching.length + 1 := by
        have hnew : (s.started url).fetching = s.fetching ++ [url] :=
          filterMap_concat_of_some (f := fetching?) rfl _
        rw [hnew, List.length_append, List.length_singleton]
      have hflight' : (s.started url).inFlight.length = s.inFlight.length + 1 := by
        simp [CrawlInner.started]
      have hrun := hrunning running
      rw [hfetched, hfetching, hflight', answered_concat_of_none rfl]
      omega
  | @suspend url body running mem =>
      have hsusp : (s.suspended url body).fetching
          = (s.inFlight.erase (url, .fetching)).filterMap fetching? := by
        rw [CrawlInner.fetching, CrawlInner.suspended]
        exact filterMap_concat_of_none rfl _
      have hflight' : (s.suspended url body).inFlight.length = s.inFlight.length := by
        have herase := List.length_erase_of_mem mem
        have hpos := List.length_pos_of_mem mem
        simp only [CrawlInner.suspended, List.length_append, List.length_singleton]
        omega
      have hsplit := CrawlInner.length_fetching mem
      have hone : (fetching? (url, .fetching)).toList.length = 1 := rfl
      have hanswered : (Event.got url (.ok (.html body))).answered?.toList.length = 1 := rfl
      have hrun := hrunning running
      rw [hsusp, hflight', fetched_concat_of_none rfl, hlength, hanswered]
      omega
  | settle running ends _ mem _ =>
      obtain ⟨hflight', hall', hrun'⟩ := hends running ends mem
      exact ⟨hflight', hall', fun _ => hrun'⟩
  | fail running ends _ mem =>
      obtain ⟨hflight', hall', hrun'⟩ := hends running ends mem
      exact ⟨hflight', hall', fun _ => hrun'⟩
  | resume | poison =>
      rw [fetched_concat_of_none rfl, answered_concat_of_none rfl]
      exact ⟨hflight, hall, hrunning⟩
  | stop | abort =>
      rw [fetched_concat_of_none rfl, answered_concat_of_none rfl]
      exact ⟨Nat.zero_le _, hall, fun hrun => by cases hrun⟩

/-- **At most twenty requests at a time.**  At every point of every run the urls
that the client was asked for and has not answered are at most twenty, each once;
and while the loop runs they are those whose steps wait for their answer. -/
theorem outstanding_bounded (h : Run robots seed es s) :
    (answered es : Multiset Url) ≤ (fetched es : Multiset Url) ∧
    ((fetched es : Multiset Url) - (answered es : Multiset Url)).card ≤ 20 ∧
    ((fetched es : Multiset Url) - (answered es : Multiset Url)).Nodup ∧
    (s.outcome = none → (fetched es : Multiset Url) - (answered es : Multiset Url)
      = (s.fetching : Multiset Url)) := by
  obtain ⟨-, hbound, hrunning⟩ := h.outstanding
  have hle := h.answered_add_fetching_le
  have hanswered := (Multiset.le_add_right _ _).trans hle
  refine ⟨hanswered, ?_, ?_, fun hrun => ?_⟩
  · rw [Multiset.card_sub hanswered, Multiset.coe_card, Multiset.coe_card]
    omega
  · exact Multiset.nodup_of_le (Multiset.sub_le_self _ _) (Multiset.coe_nodup.mpr h.fetched_nodup)
  · have hall : (answered es : Multiset Url) + (s.fetching : Multiset Url)
        = (fetched es : Multiset Url) := by
      refine Multiset.eq_of_le_of_card_le hle ?_
      rw [Multiset.card_add, Multiset.coe_card, Multiset.coe_card, Multiset.coe_card]
      exact hrunning hrun
    rw [← hall, add_tsub_cancel_left]

/-- Two requests for the pages of a site wait for their answers. -/
theorem outstanding_bounded_fork :
    ∃ es s, Run none (SiteUrl.page "/") es s ∧
      (fetched es : Multiset SiteUrl) - (answered es : Multiset SiteUrl)
        = {SiteUrl.page "/a", SiteUrl.page "/b"} := by
  obtain ⟨s, hrun, hgoing, hwait⟩ : ∃ s, Run none (SiteUrl.page "/")
      (SiteUrl.forkEvents ++ SiteUrl.branchEvents.take 2) s ∧
      s.outcome = none ∧ s.fetching = [SiteUrl.page "/a", SiteUrl.page "/b"] :=
    ⟨_, rfl, rfl, by decide⟩
  refine ⟨_, s, hrun, ((outstanding_bounded hrun).2.2.2 hgoing).trans ?_⟩
  rw [hwait]
  rfl

end MikesCrawler
