/-
The loop refines a worklist: its work accounting is that of the abstract
exploration.

* `CrawlInner.unfinished`: the urls of the steps in flight, a step that ended
  in an error counting as in flight;
* `Crawl.Tracks`: a crawl keeps the account of a worklist; noting a url and a
  visit keep it (`Crawl.Tracks.discover`, `Crawl.Tracks.visit`);
* `Refines`, `Refines.trans`, `Run.refines`: every run of the loop is matched by
  a run of the worklist machine, a start by a start, a step that ends well by a
  finish, and anything else by nothing;
* `Run.account`, `Run.stopped`: what follows for the states of a crawl, while
  the loop runs and after it has stopped.
-/
import MikesCrawler.Machine.Simulation
import MikesCrawler.Worklist.Reach
import MikesCrawler.Refine.Transitions

open Machine

namespace MikesCrawler

variable {Url : Type} [DecidableEq Url] [Externals Url]

/-- The urls a robots.txt lets the crawler work on. -/
abbrev Allowed (robots : Option String) (url : Url) : Prop := robotsAllow robots url = true

omit [DecidableEq Url] in
lemma not_allowed {robots : Option String} {url : Url} (h : robotsAllow robots url = false) :
    ¬ Allowed robots url := by simp [Allowed, h]

/-! ### The urls in flight -/

/-- The url of a completed step that ended in an error. -/
def failedUrl? : Url × Except Error Unit → Option Url
  | (url, .error _) => some url
  | (_, .ok ()) => none

namespace CrawlInner

/-- The urls of the steps in flight, a step that ended in an error counting as
in flight. -/
def unfinished (s : CrawlInner Url) : List Url :=
  s.inFlight.map Prod.fst ++ s.completed.filterMap failedUrl?

omit [DecidableEq Url] [Externals Url] in
lemma mem_unfinished_of_mem {s : CrawlInner Url} {url : Url} {state : StepState}
    (h : (url, state) ∈ s.inFlight) : url ∈ s.unfinished :=
  List.mem_append_left _ (List.mem_map.mpr ⟨(url, state), h, rfl⟩)

omit [Externals Url] in
/-- A step in flight apart from the others. -/
lemma map_inFlight_perm {s : CrawlInner Url} {url : Url} {state : StepState}
    (h : (url, state) ∈ s.inFlight) :
    (s.inFlight.map Prod.fst).Perm
      (url :: (s.inFlight.erase (url, state)).map Prod.fst) :=
  (List.perm_cons_erase h).map Prod.fst

omit [Externals Url] in
lemma unfinished_started (s : CrawlInner Url) (url : Url) :
    ((s.started url).unfinished : Multiset Url) = url ::ₘ s.unfinished := by
  rw [Multiset.cons_coe, Multiset.coe_eq_coe]
  simp only [unfinished, started, List.map_append, List.map_cons, List.map_nil,
    List.append_assoc, List.singleton_append]
  exact List.perm_middle

omit [Externals Url] in
lemma unfinished_suspended {s : CrawlInner Url} {url : Url} {body : String}
    (h : (url, .fetching) ∈ s.inFlight) :
    ((s.suspended url body).unfinished : Multiset Url) = s.unfinished := by
  rw [Multiset.coe_eq_coe]
  refine List.Perm.append_right _ (List.Perm.trans ?_ (map_inFlight_perm h).symm)
  rw [suspended, List.map_append]
  exact List.perm_append_singleton url _

lemma unfinished_settled {s : CrawlInner Url} {url : Url} {state : StepState} {v : Visit Url}
    (h : (url, state) ∈ s.inFlight) :
    url ::ₘ ((s.settled url state v).unfinished : Multiset Url) = s.unfinished := by
  rw [Multiset.cons_coe, Multiset.coe_eq_coe, unfinished, settled,
    filterMap_concat_of_none (f := failedUrl?) rfl, ← List.cons_append]
  exact (map_inFlight_perm h).symm.append_right _

omit [Externals Url] in
lemma unfinished_failed {s : CrawlInner Url} {url : Url} {state : StepState} {e : Error}
    (h : (url, state) ∈ s.inFlight) :
    ((s.failed url state e).unfinished : Multiset Url) = s.unfinished := by
  rw [Multiset.coe_eq_coe, unfinished, failed,
    filterMap_concat_of_some (f := failedUrl?) rfl, ← List.append_assoc]
  refine (List.perm_append_singleton url _).trans ?_
  rw [← List.cons_append]
  exact (map_inFlight_perm h).symm.append_right _

end CrawlInner

/-! ### A crawl keeps the account of a worklist -/

/-- The crawl has the seen, waiting and done elements of the worklist. -/
structure Crawl.Tracks (crawl : Crawl Url) (w : Worklist Url) : Prop where
  seen : w.seen = crawl.seen
  waiting : w.waiting = crawl.todo.queue
  done : w.done = crawl.result.pages.keys

variable {robots : Option String}

lemma Crawl.Tracks.discover {crawl : Crawl Url} {w : Worklist Url} (h : crawl.Tracks w)
    (hrobots : crawl.robots = robots) (url : Url) :
    (crawl.discover url).Tracks (w.discover (Allowed robots) url) := by
  obtain ⟨hs, heq⟩ | ⟨hs, ha, heq⟩ | ⟨hs, ha, heq⟩ := crawl.discover_cases url
  · have hw : url ∈ w.seen := by
      rw [h.seen]
      exact hs
    rw [heq, Worklist.discover_of_mem (Allowed robots) hw]
    exact h
  · rw [Crawl.allowedByRobots, hrobots] at ha
    have hw : url ∉ w.seen := by
      rw [h.seen]
      exact hs
    rw [heq, Worklist.discover_of_ok (Allowed robots) hw ha]
    refine ⟨congrArg (insert url) h.seen, ?_, h.done⟩
    calc url ::ₘ w.waiting = {url} + (crawl.todo.queue : Multiset Url) := by
          rw [h.waiting, Multiset.singleton_add]
      _ = ((crawl.todo.queue ++ [url] : List Url) : Multiset Url) := by
          rw [← Multiset.coe_add, Multiset.coe_singleton, Multiset.add_comm]
  · rw [Crawl.allowedByRobots, hrobots] at ha
    have hw : url ∉ w.seen := by
      rw [h.seen]
      exact hs
    rw [heq, Worklist.discover_of_not_ok (Allowed robots) hw (not_allowed ha)]
    refine ⟨congrArg (insert url) h.seen, h.waiting, ?_⟩
    show insert url w.done = (crawl.result.pages.insert url _).keys
    rw [keys_insert, h.done]

lemma Crawl.Tracks.discoverAll {crawl : Crawl Url} {w : Worklist Url} (h : crawl.Tracks w)
    (hrobots : crawl.robots = robots) (urls : List Url) :
    (crawl.discoverAll urls).Tracks (w.discoverAll (Allowed robots) urls) := by
  induction urls generalizing crawl w with
  | nil => exact h
  | cons url urls ih => exact ih (h.discover hrobots url) (by rw [discover_robots, hrobots])

lemma Crawl.Tracks.visit {crawl : Crawl Url} {w : Worklist Url} (h : crawl.Tracks w)
    (hrobots : crawl.robots = robots) {url : Url} (v : Visit Url)
    (hmem : url ∈ (w.discoverAll (Allowed robots) v.found).active) :
    (crawl.visit url v).Tracks ((w.discoverAll (Allowed robots) v.found).settle url hmem) := by
  have hall := h.discoverAll hrobots v.found
  refine ⟨hall.seen, hall.waiting, ?_⟩
  show insert url _ = ((crawl.discoverAll v.found).result.pages.insert url v.entry).keys
  rw [keys_insert, hall.done]

/-! ### The refinement -/

/-- How the states and traces of a crawl and of a worklist match. -/
structure Refines (es : List (Event Url)) (s : CrawlInner Url)
    (ms : List (Worklist.Move Url)) (w : Worklist Url) : Prop where
  seen : w.seen = s.crawl.data.seen
  done : w.done = s.crawl.data.result.pages.keys
  running : s.outcome = none →
    w.waiting = s.crawl.data.todo.queue ∧ w.active = s.unfinished
  stopped : s.outcome = some (.ok ()) → w.waiting = 0 ∧ w.active = 0
  started : Worklist.started ms = fetched es
  finished : ∀ url found, Worklist.Move.finish url found ∈ ms → ∃ event ∈ es, ∃ state v,
    event.ends = some (url, state) ∧ event.visit = some v ∧ v.found = found

variable {seed : Url} {es : List (Event Url)} {s : CrawlInner Url}

omit [DecidableEq Url] in
lemma Refines.tracks {ms : List (Worklist.Move Url)} {w : Worklist Url} (h : Refines es s ms w)
    (hrun : s.outcome = none) : s.crawl.data.Tracks w :=
  ⟨h.seen, (h.running hrun).1, h.done⟩

omit [DecidableEq Url] in
/-- Events that the worklist does not see keep the matching. -/
lemma Refines.stutter {ms : List (Worklist.Move Url)} {w : Worklist Url} (h : Refines es s ms w)
    {e : Event Url} {s' : CrawlInner Url} (hseen : s'.crawl.data.seen = s.crawl.data.seen)
    (hdone : s'.crawl.data.result = s.crawl.data.result)
    (hrunning : s'.outcome = none →
      w.waiting = s'.crawl.data.todo.queue ∧ w.active = s'.unfinished)
    (hstopped : s'.outcome = some (.ok ()) → w.waiting = 0 ∧ w.active = 0)
    (hfetched : e.fetched? = none) : Refines (es ++ [e]) s' ms w where
  seen := h.seen.trans hseen.symm
  done := by rw [hdone, h.done]
  running := hrunning
  stopped := hstopped
  started := by
    rw [fetched_concat_of_none hfetched, h.started]
  finished := fun url found hm => by
    obtain ⟨event, hev, rest⟩ := h.finished url found hm
    exact ⟨event, List.mem_append_left _ hev, rest⟩

lemma Refines.begin (robots : Option String) (seed : Url) :
    Refines [] (CrawlInner.begin robots seed) [] (Worklist.init (Allowed robots) seed) := by
  have htracks : (CrawlInner.begin robots seed).crawl.data.Tracks
      (Worklist.init (Allowed robots) seed) := by
    rw [begin_crawl]
    exact (⟨rfl, rfl, rfl⟩ : ({ robots } : Crawl Url).Tracks Worklist.empty).discover rfl seed
  refine ⟨htracks.seen, htracks.done, fun _ => ⟨htracks.waiting, ?_⟩, fun h => ?_, rfl, ?_⟩
  · rw [Worklist.init_active]
    rfl
  · cases h
  · intro url found hm
    cases hm

/-- A start is a start. -/
lemma Refines.start {ms : List (Worklist.Move Url)} {w : Worklist Url} (h : Refines es s ms w)
    {url : Url} (running : s.outcome = none) (queued : url ∈ s.crawl.data.todo.queue) :
    ∃ w', w.step (Allowed robots) (.start url) = some w' ∧
      Refines (es ++ [.start url]) (s.started url) (ms ++ [.start url]) w' := by
  obtain ⟨hwaiting, hactive⟩ := h.running running
  have hw : url ∈ w.waiting := by
    rw [hwaiting]
    exact Multiset.mem_coe.mpr queued
  refine ⟨w.start url hw, Worklist.step_start _ hw, ?_⟩
  refine ⟨h.seen, h.done, fun _ => ⟨?_, ?_⟩, fun hs => ?_, ?_, ?_⟩
  · rw [Worklist.start_waiting, hwaiting, Multiset.coe_erase]
    rfl
  · rw [Worklist.start_active, hactive, CrawlInner.unfinished_started]
  · cases running.symm.trans hs
  · have hstarted := h.started
    rw [Worklist.started, fetched] at hstarted ⊢
    rw [filterMap_concat_of_some (f := Worklist.Move.started?) rfl, hstarted,
      filterMap_concat_of_some (f := Event.fetched?) rfl]
  · intro url' found hm
    have hold : Worklist.Move.finish url' found ∈ ms := by simpa using hm
    obtain ⟨event, hev, rest⟩ := h.finished url' found hold
    exact ⟨event, List.mem_append_left _ hev, rest⟩

/-- A step that ends well is a finish. -/
lemma Refines.settle {ms : List (Worklist.Move Url)} {w : Worklist Url} (h : Refines es s ms w)
    (hrobots : s.crawl.data.robots = robots) {event : Event Url} {url : Url} {state : StepState}
    {v : Visit Url} (running : s.outcome = none) (ends : event.ends = some (url, state))
    (visit : event.visit = some v) (mem : (url, state) ∈ s.inFlight) :
    ∃ w', w.step (Allowed robots) (.finish url v.found) = some w' ∧
      Refines (es ++ [event]) (s.settled url state v) (ms ++ [.finish url v.found]) w' := by
  have hactive := (h.running running).2
  have hw : url ∈ w.active := by
    rw [hactive]
    exact Multiset.mem_coe.mpr (CrawlInner.mem_unfinished_of_mem mem)
  have hw' : url ∈ (w.discoverAll (Allowed robots) v.found).active := by
    rwa [Worklist.discoverAll_active]
  have htracks := (h.tracks running).visit hrobots v hw'
  refine ⟨(w.discoverAll (Allowed robots) v.found).settle url hw', Worklist.step_finish _ hw _, ?_⟩
  refine ⟨htracks.seen, htracks.done, fun _ => ⟨htracks.waiting, ?_⟩, fun hs => ?_, ?_, ?_⟩
  · rw [Worklist.settle_active, Worklist.discoverAll_active, hactive,
      ← CrawlInner.unfinished_settled mem, Multiset.erase_cons_head]
  · cases running.symm.trans hs
  · rw [fetched_concat_of_none (Event.fetched?_of_ends ends), ← h.started]
    exact filterMap_concat_of_none rfl ms
  · intro url' found hm
    rcases List.mem_append.mp hm with hold | hnew
    · obtain ⟨event', hev, rest⟩ := h.finished url' found hold
      exact ⟨event', List.mem_append_left _ hev, rest⟩
    · cases List.mem_singleton.mp hnew
      exact ⟨event, by simp, state, v, ends, visit, rfl⟩

/-- Every transition is matched by a move of the worklist, or by none. -/
lemma Refines.trans {ms : List (Worklist.Move Url)} {w : Worklist Url} (h : Refines es s ms w)
    (hrobots : s.crawl.data.robots = robots) {e : Event Url} {s' : CrawlInner Url}
    (ht : s.Trans e s') : ∃ ds w', exec (Worklist.step (Allowed robots)) w ds = some w' ∧
      Refines (es ++ [e]) s' (ms ++ ds) w' := by
  have hmove : ∀ {m : Worklist.Move Url}, (∃ w', w.step (Allowed robots) m = some w' ∧
      Refines (es ++ [e]) s' (ms ++ [m]) w') → ∃ ds w',
      exec (Worklist.step (Allowed robots)) w ds = some w' ∧
        Refines (es ++ [e]) s' (ms ++ ds) w' := by
    rintro m ⟨w', hw', hR⟩
    exact ⟨[m], w', exec_cons_eq_some.mpr ⟨w', hw', rfl⟩, hR⟩
  have hstutter : Refines (es ++ [e]) s' ms w → ∃ ds w',
      exec (Worklist.step (Allowed robots)) w ds = some w' ∧
        Refines (es ++ [e]) s' (ms ++ ds) w' := by
    intro hR
    exact ⟨[], w, rfl, by simpa using hR⟩
  cases ht with
  | start running queued room => exact hmove (h.start running queued)
  | settle running ends visit mem unpoisoned =>
      exact hmove (h.settle hrobots running ends visit mem)
  | @suspend url body running mem =>
      refine hstutter (h.stutter rfl rfl (fun _ => ?_) (fun hs => ?_) rfl)
      · rw [CrawlInner.unfinished_suspended mem]
        exact h.running running
      · cases running.symm.trans hs
  | @fail _ url state err running ends why mem =>
      refine hstutter
        (h.stutter rfl rfl (fun _ => ?_) (fun hs => ?_) (Event.fetched?_of_ends ends))
      · rw [CrawlInner.unfinished_failed mem]
        exact h.running running
      · cases running.symm.trans hs
  | @resume url completed running consumed more =>
      refine hstutter (h.stutter rfl rfl (fun _ => ?_) (fun hs => ?_) rfl)
      · obtain ⟨hwaiting, hactive⟩ := h.running running
        rw [CrawlInner.unfinished, consumed] at hactive
        exact ⟨hwaiting, hactive⟩
      · cases running.symm.trans hs
  | @stop url completed running consumed unpoisoned exhausted =>
      -- the stop test is that of the worklist
      refine hstutter (h.stutter rfl rfl (fun hs => ?_) (fun _ => ?_) rfl)
      · cases hs
      · have hcard : w.done.card = w.seen.card := by
          rw [h.done, h.seen]
          exact exhausted
        exact w.card_done_eq_iff.mp hcard
  | @abort url result completed err running consumed why =>
      refine hstutter (h.stutter rfl rfl (fun hs => ?_) (fun hs => ?_) rfl)
      · cases hs
      · cases hs
  | poison => exact hstutter (h.stutter rfl rfl h.running h.stopped rfl)

/-- **The loop refines a worklist**: every run of a crawl is matched by a run
of the worklist machine. -/
theorem Run.refines (h : Run robots seed es s) :
    ∃ ms w, exec (Worklist.step (Allowed robots)) (Worklist.init (Allowed robots) seed) ms
      = some w ∧ Refines es s ms w := by
  refine exec_simulation (Refines.begin robots seed) ?_ h
  intro es s ms w e s' hes hms hR hstep
  have ht : s.Trans e s' := CrawlInner.trans_of_step (Run.receiver hes) hstep
  exact hR.trans (Run.robots_eq hes) ht

/-! ### What follows for the states of a crawl -/

/-- The worklist of a crawl in its loop. -/
lemma Run.worklist (h : Run robots seed es s) (hrun : s.outcome = none) :
    ∃ w : Worklist Url, w.seen = s.crawl.data.seen ∧ w.done = s.crawl.data.result.pages.keys ∧
      w.waiting = s.crawl.data.todo.queue ∧ w.active = s.unfinished := by
  obtain ⟨ms, w, -, hR⟩ := h.refines
  exact ⟨w, hR.seen, hR.done, (hR.running hrun).1, (hR.running hrun).2⟩

/-- **The account of a crawl in its loop**: the urls seen are those with an
entry, those queued and those in flight, each once. -/
theorem Run.account (h : Run robots seed es s) (hrun : s.outcome = none) :
    s.crawl.data.result.pages.keys.val + (s.crawl.data.todo.queue : Multiset Url) + s.unfinished
      = s.crawl.data.seen.val := by
  obtain ⟨w, hseen, hdone, hwaiting, hactive⟩ := h.worklist hrun
  rw [← hdone, ← hwaiting, ← hactive, ← hseen]
  exact w.balanced

/-- A crawl whose loop has stopped has an entry for each url seen. -/
theorem Run.stopped (h : Run robots seed es s) (hok : s.outcome = some (.ok ())) :
    s.crawl.data.result.pages.keys = s.crawl.data.seen := by
  obtain ⟨ms, w, -, hR⟩ := h.refines
  obtain ⟨hwaiting, hactive⟩ := hR.stopped hok
  have hbal := w.balanced
  rw [hwaiting, hactive, add_zero, add_zero] at hbal
  rw [← hR.done, ← hR.seen]
  exact Finset.val_injective hbal

/-- An entry is for a url that was seen. -/
lemma Run.keys_subset_seen (h : Run robots seed es s) :
    s.crawl.data.result.pages.keys ⊆ s.crawl.data.seen := by
  obtain ⟨ms, w, -, hR⟩ := h.refines
  rw [← hR.done, ← hR.seen]
  exact w.done_subset_seen

/-- A url in flight has no entry yet. -/
lemma Run.notMem_keys (h : Run robots seed es s) (hrun : s.outcome = none) {url : Url}
    (hmem : url ∈ s.unfinished) : url ∉ s.crawl.data.result.pages.keys := by
  obtain ⟨w, -, hdone, -, hactive⟩ := h.worklist hrun
  rw [← hdone]
  refine Worklist.notMem_done_of_active ?_
  rw [hactive]
  exact Multiset.mem_coe.mpr hmem

/-- A url in flight was seen. -/
lemma Run.unfinished_mem_seen (h : Run robots seed es s) (hrun : s.outcome = none) {url : Url}
    (hmem : url ∈ s.unfinished) : url ∈ s.crawl.data.seen := by
  rw [← Finset.mem_val, ← h.account hrun]
  exact Multiset.mem_add.mpr (Or.inr (Multiset.mem_coe.mpr hmem))

end MikesCrawler
