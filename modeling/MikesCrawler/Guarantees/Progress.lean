/-
The stop test of the loop: what it measures, and that it is reached.

* `work_accounted`: while the loop runs, the urls seen are those with an entry,
  those queued and those in flight, each once; the status counts them, and the
  test for the end holds exactly when nothing is queued or in flight;
* `CrawlInner.Waiting`, `Run.busy_trans`: a crawl waits if nothing is queued, in
  flight or to be consumed, and no transition leads there;
* `never_stuck_iff`: a crawl can only wait forever if its robots.txt excludes
  its seed, since the test is made after a step and then there is none.
-/
import MikesCrawler.Refine.Accounting
import MikesCrawler.Model.ProdCrawler
import MikesCrawler.Model.PlainUrl

open Machine

namespace MikesCrawler

variable {Url : Type} [DecidableEq Url] [Externals Url]
variable {robots : Option String} {seed : Url} {es : List (Event Url)} {s : CrawlInner Url}

/-! ### Accounting -/

lemma Run.card_seen (h : Run robots seed es s) (hrun : s.outcome = none) :
    s.crawl.data.seen.card = s.crawl.data.result.pages.keys.card
      + (s.crawl.data.todo.queue.length + s.unfinished.length) := by
  have hcard := congrArg Multiset.card (h.account hrun)
  simp only [Multiset.card_add, Multiset.coe_card, Finset.card_val] at hcard
  omega

/-- The test for the end holds exactly when nothing is queued or in flight. -/
lemma Run.exhausted_iff (h : Run robots seed es s) (hrun : s.outcome = none) :
    s.crawl.data.result.pages.keys.card = s.crawl.data.seen.card ↔
      s.crawl.data.todo.queue = [] ∧ s.unfinished = [] := by
  rw [h.card_seen hrun, ← List.length_eq_zero_iff, ← List.length_eq_zero_iff]
  omega

lemma Run.status_eq (h : Run robots seed es s) (hrun : s.outcome = none) :
    s.crawl.data.status seed = .ok
      { seed
        done := s.crawl.data.result.pages.keys.card
        todo := s.crawl.data.todo.queue.length + s.unfinished.length } := by
  have hcard := h.card_seen hrun
  rw [Crawl.status, if_neg (by omega), hcard, Nat.add_sub_cancel_left]

/-- The loop stops only on its test. -/
lemma CrawlInner.Trans.exhausted {e : Event Url} {s' : CrawlInner Url}
    (ht : s.Trans e s') (hrun : s.outcome = none) (hok : s'.outcome = some (.ok ())) :
    s.crawl.data.result.pages.keys.card = s.crawl.data.seen.card := by
  cases ht with
  | stop running consumed unpoisoned exhausted => exact exhausted
  | abort => cases hok
  | start | suspend | settle | fail | resume | poison => cases hrun.symm.trans hok

/-- **Work accounting is exact**: while the loop runs, the urls seen are those
with an entry, those queued and those in flight, each once; the status counts
them; and the loop's test holds, and the loop ends with it, only if nothing is
queued or in flight. -/
theorem work_accounted (h : Run robots seed es s) (hrun : s.outcome = none) :
    (∀ url, url ∈ s.crawl.data.seen ↔ url ∈ s.crawl.data.result.pages ∨
      url ∈ s.crawl.data.todo.queue ∨ url ∈ s.unfinished) ∧
    (∀ url ∈ s.crawl.data.result.pages, url ∉ s.crawl.data.todo.queue ∧ url ∉ s.unfinished) ∧
    (∀ url ∈ s.crawl.data.todo.queue, url ∉ s.unfinished) ∧
    s.crawl.data.todo.queue.Nodup ∧ s.unfinished.Nodup ∧
    s.crawl.data.status seed = .ok
      { seed
        done := s.crawl.data.result.pages.keys.card
        todo := s.crawl.data.todo.queue.length + s.unfinished.length } ∧
    (s.crawl.data.result.pages.keys.card = s.crawl.data.seen.card ↔
      s.crawl.data.todo.queue = [] ∧ s.unfinished = []) ∧
    ∀ s', s.step .next = some s' → s'.outcome = some (.ok ()) →
      s.crawl.data.todo.queue = [] ∧ s.unfinished = [] := by
  obtain ⟨w, hseen, hdone, hwaiting, hactive⟩ := h.worklist hrun
  have hpages : ∀ url, url ∈ s.crawl.data.result.pages ↔ url ∈ w.done := fun url => by
    rw [hdone, Finmap.mem_keys]
  have hqueue : ∀ url, url ∈ s.crawl.data.todo.queue ↔ url ∈ w.waiting := fun url => by
    rw [hwaiting, Multiset.mem_coe]
  have hflight : ∀ url, url ∈ s.unfinished ↔ url ∈ w.active := fun url => by
    rw [hactive, Multiset.mem_coe]
  have hqueueNodup : s.crawl.data.todo.queue.Nodup := by
    rw [← Multiset.coe_nodup, ← hwaiting]
    exact w.waiting_nodup
  have hflightNodup : s.unfinished.Nodup := by
    rw [← Multiset.coe_nodup, ← hactive]
    exact w.active_nodup
  refine ⟨fun url => ?_, fun url hu => ⟨fun hq => ?_, fun hf => ?_⟩, fun url hq hf => ?_,
    hqueueNodup, hflightNodup, h.status_eq hrun, h.exhausted_iff hrun, fun s' hstep hok => ?_⟩
  · rw [← hseen, hpages, hqueue, hflight]
    exact Worklist.mem_seen
  · exact Worklist.notMem_done_of_waiting ((hqueue url).mp hq) ((hpages url).mp hu)
  · exact Worklist.notMem_done_of_active ((hflight url).mp hf) ((hpages url).mp hu)
  · exact Worklist.notMem_waiting_of_active ((hflight url).mp hf) ((hqueue url).mp hq)
  · have ht := CrawlInner.trans_of_step h.receiver hstep
    exact (h.exhausted_iff hrun).mp (ht.exhausted hrun hok)

/-- The account while one page has its entry and another is fetched. -/
theorem work_accounted_fetching :
    ∃ s, Run (some PlainUrl.robotsTxt) (PlainUrl.site "/") (PlainUrl.events.take 5) s ∧
      s.crawl.data.status (PlainUrl.site "/")
        = .ok { seed := PlainUrl.site "/", done := 1, todo := 1 } := by
  refine ⟨_, rfl, ?_⟩
  have h := @work_accounted PlainUrl _ _ (some PlainUrl.robotsTxt) (PlainUrl.site "/")
    (PlainUrl.events.take 5) _ rfl rfl
  exact h.2.2.2.2.2.1

/-! ### Progress -/

/-- A crawl that can only wait: nothing is queued, in flight or to be
consumed. -/
def CrawlInner.Waiting (s : CrawlInner Url) : Prop :=
  s.crawl.data.todo.queue = [] ∧ s.inFlight = [] ∧ s.completed = []

/-- A crawl that was not waiting is not after any transition. -/
lemma Run.busy_trans (h : Run robots seed es s) {e : Event Url} {s' : CrawlInner Url}
    (ht : s.Trans e s') (hrun' : s'.outcome = none) (hbusy : ¬ s.Waiting) : ¬ s'.Waiting := by
  rintro ⟨hqueue, hflight, hcompleted⟩
  cases ht with
  | start | suspend => exact List.append_ne_nil_of_right_ne_nil _ (by simp) hflight
  | settle | fail => exact List.append_ne_nil_of_right_ne_nil _ (by simp) hcompleted
  | @resume url completed running consumed more =>
      -- the loop goes on only if some work is left
      refine more ((h.exhausted_iff running).mpr ⟨hqueue, ?_⟩)
      change completed = [] at hcompleted
      change s.inFlight = [] at hflight
      rw [CrawlInner.unfinished, hflight, consumed, hcompleted]
      rfl
  | stop | abort => cases hrun'
  | poison => exact hbusy ⟨hqueue, hflight, hcompleted⟩

/-- A crawl whose loop runs was running before. -/
lemma CrawlInner.Trans.running {e : Event Url} {s' : CrawlInner Url} (ht : s.Trans e s')
    (hrun : s'.outcome = none) : s.outcome = none := by
  cases ht with
  | stop | abort => cases hrun
  | start | suspend | settle | fail | resume | poison => exact hrun

/-- A crawl begins with its seed queued, unless robots.txt excludes it. -/
lemma begin_queue (robots : Option String) (seed : Url) :
    (CrawlInner.begin robots seed).crawl.data.todo.queue
      = if robotsAllow robots seed then [seed] else [] := by
  rw [begin_crawl]
  obtain ⟨hs, -⟩ | ⟨-, ha, heq⟩ | ⟨-, ha, heq⟩ := ({ robots } : Crawl Url).discover_cases seed
  · exact absurd hs (Finset.notMem_empty seed)
  · rw [Crawl.allowedByRobots] at ha
    rw [heq, if_pos ha]
    rfl
  · rw [Crawl.allowedByRobots] at ha
    rw [heq, ha]
    rfl

/-- **A crawl is never stuck exactly if robots.txt allows its seed**: in every
state in which the loop has not returned, something is queued, in flight or to
be consumed. -/
theorem never_stuck_iff (robots : Option String) (seed : Url) :
    (∀ es s, Run robots seed es s → s.outcome = none →
      s.crawl.data.todo.queue ≠ [] ∨ s.inFlight ≠ [] ∨ s.completed ≠ []) ↔
      robotsAllow robots seed = true := by
  have hwaiting : ∀ s : CrawlInner Url,
      (s.crawl.data.todo.queue ≠ [] ∨ s.inFlight ≠ [] ∨ s.completed ≠ []) ↔ ¬ s.Waiting :=
    fun s => by rw [CrawlInner.Waiting, not_and_or, not_and_or]
  simp only [hwaiting]
  constructor
  · intro h
    by_contra hexcl
    -- the crawl of an excluded seed waits from its start
    refine h [] _ rfl rfl ⟨?_, rfl, rfl⟩
    rw [begin_queue, if_neg hexcl]
  · intro hallowed es s h
    refine Run.induction (P := fun _ s => s.outcome = none → ¬ s.Waiting) ?_ ?_ h
    · rintro - ⟨hqueue, -, -⟩
      rw [begin_queue, if_pos hallowed] at hqueue
      cases hqueue
    · intro es e s s' hs _ ih ht hrun'
      exact hs.busy_trans ht hrun' (ih (ht.running hrun'))

/-- A robots.txt that excludes everything leaves the crawl waiting from its
start. -/
theorem stuck_of_excluded_seed :
    ∃ s, Run (some "User-agent: *\nDisallow: /") (PlainUrl.site "/") [] s ∧ s.outcome = none ∧
      ¬ (s.crawl.data.todo.queue ≠ [] ∨ s.inFlight ≠ [] ∨ s.completed ≠ []) := by
  refine ⟨_, rfl, rfl, ?_⟩
  decide

end MikesCrawler
