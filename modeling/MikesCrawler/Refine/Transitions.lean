/-
What one event does to a crawl in its loop, said once, and the induction rule
for the runs of a crawl.

* `Event.ends`, `Event.visit`: the step an event ends, and the visit it ends it
  with;
* `CrawlInner.Trans`: the transitions as rules, one for each thing that can
  happen; `CrawlInner.trans_of_step`: every event is one of them;
* `Run`: a run of the loop from the state `crawl` calls it in;
* `Run.induction`, `Run.persists`: what holds at the start and is kept by every
  transition holds of every run, and what holds in the middle holds on.
-/
import MikesCrawler.Refine.Visit

open Machine

namespace MikesCrawler

variable {Url : Type} [DecidableEq Url] [Externals Url]

/-- The step that an event ends, with the state it was in. -/
def Event.ends : Event Url → Option (Url × StepState)
  | .got _ (.ok (.html _)) => none
  | .got url _ => some (url, .fetching)
  | .parsed url body _ => some (url, .parsing body)
  | _ => none

/-- The visit that an event ends its step with, `none` if it makes it fail. -/
def Event.visit : Event Url → Option (Visit Url)
  | .got _ (.ok (.html _)) => none
  | .got url response => visitOf url response
  | .parsed url body (.ok ()) => visitOf url (.ok (.html body))
  | _ => none

omit [DecidableEq Url] [Externals Url] in
lemma Event.ends_got {url : Url} {response : Except Error (HttpResponse Url)}
    (h : ∀ body, response ≠ .ok (.html body)) :
    (Event.got url response).ends = some (url, .fetching) := by
  match response with
  | .ok (.html body) => exact absurd rfl (h body)
  | .ok (.serverFailure _ _) | .ok (.redirect _ _) | .ok (.otherContent _) | .error _ => rfl

omit [DecidableEq Url] in
lemma Event.visit_got {url : Url} {response : Except Error (HttpResponse Url)}
    (h : ∀ body, response ≠ .ok (.html body)) :
    (Event.got url response).visit = visitOf url response := by
  match response with
  | .ok (.html body) => exact absurd rfl (h body)
  | .ok (.serverFailure _ _) | .ok (.redirect _ _) | .ok (.otherContent _) | .error _ => rfl

omit [DecidableEq Url] [Externals Url] in
/-- What ends a step fetches nothing. -/
lemma Event.fetched?_of_ends {event : Event Url} {step : Url × StepState}
    (h : event.ends = some step) : event.fetched? = none := by
  cases event with
  | start | next | poison => cases h
  | got | parsed => rfl

omit [DecidableEq Url] [Externals Url] in
lemma fetched_concat_of_none {e : Event Url} (h : e.fetched? = none) (es : List (Event Url)) :
    fetched (es ++ [e]) = fetched es := filterMap_concat_of_none h es

namespace CrawlInner

/-! ### The transitions as rules -/

/-- A queued url is received and its step begins. -/
def started (s : CrawlInner Url) (url : Url) : CrawlInner Url :=
  { s with
    crawl := { s.crawl with data := { s.crawl.data with todo :=
      { s.crawl.data.todo with queue := s.crawl.data.todo.queue.erase url } } }
    inFlight := s.inFlight ++ [(url, .fetching)] }

/-- The body of a page goes to its parse task. -/
def suspended (s : CrawlInner Url) (url : Url) (body : String) : CrawlInner Url :=
  { s with inFlight := s.inFlight.erase (url, .fetching) ++ [(url, .parsing body)] }

/-- A step ends with a visit. -/
def settled (s : CrawlInner Url) (url : Url) (state : StepState) (v : Visit Url) :
    CrawlInner Url :=
  { s with
    crawl := visited s.crawl url v
    inFlight := s.inFlight.erase (url, state)
    completed := s.completed ++ [(url, .ok ())] }

/-- A step ends with an error. -/
def failed (s : CrawlInner Url) (url : Url) (state : StepState) (e : Error) : CrawlInner Url :=
  { s with
    inFlight := s.inFlight.erase (url, state)
    completed := s.completed ++ [(url, .error e)] }

/-- The transitions of a crawl in its loop. -/
inductive Trans (s : CrawlInner Url) : Event Url → CrawlInner Url → Prop
  | start {url : Url} (running : s.outcome = none) (queued : url ∈ s.crawl.data.todo.queue)
      (room : s.inFlight.length < 20) : Trans s (.start url) (s.started url)
  | suspend {url : Url} {body : String} (running : s.outcome = none)
      (mem : (url, .fetching) ∈ s.inFlight) :
      Trans s (.got url (.ok (.html body))) (s.suspended url body)
  | settle {event : Event Url} {url : Url} {state : StepState} {v : Visit Url}
      (running : s.outcome = none) (ends : event.ends = some (url, state))
      (visit : event.visit = some v) (mem : (url, state) ∈ s.inFlight)
      (unpoisoned : s.crawl.poisoned = false) : Trans s event (s.settled url state v)
  | fail {event : Event Url} {url : Url} {state : StepState} {e : Error}
      (running : s.outcome = none) (ends : event.ends = some (url, state))
      (why : s.crawl.poisoned = true ∨ event.visit = none) (mem : (url, state) ∈ s.inFlight) :
      Trans s event (s.failed url state e)
  | resume {url : Url} {completed : List (Url × Except Error Unit)} (running : s.outcome = none)
      (consumed : s.completed = (url, .ok ()) :: completed)
      (more : s.crawl.data.result.pages.keys.card ≠ s.crawl.data.seen.card) :
      Trans s .next { s with completed }
  | stop {url : Url} {completed : List (Url × Except Error Unit)} (running : s.outcome = none)
      (consumed : s.completed = (url, .ok ()) :: completed)
      (unpoisoned : s.crawl.poisoned = false)
      (exhausted : s.crawl.data.result.pages.keys.card = s.crawl.data.seen.card) :
      Trans s .next (s.returns (.ok ()))
  | abort {url : Url} {result : Except Error Unit} {completed : List (Url × Except Error Unit)}
      {e : Error} (running : s.outcome = none) (consumed : s.completed = (url, result) :: completed)
      (why : s.crawl.poisoned = true ∨ result = .error e) : Trans s .next (s.returns (.error e))
  | poison : Trans s .poison { s with crawl := { s.crawl with poisoned := true } }

/-- Every event is one of the transitions, while the receiver lives. -/
theorem trans_of_step {s s' : CrawlInner Url} {event : Event Url}
    (hrx : s.outcome = none → s.crawl.data.todo.receiver = true) (h : s.step event = some s') :
    s.Trans event s' := by
  cases event with
  | start url =>
      rw [step] at h
      split at h
      · next hc =>
          cases h
          exact .start hc.1 hc.2.1 hc.2.2
      · cases h
  | got url response =>
      rw [step] at h
      split at h
      · next hc =>
          cases h
          obtain ⟨body, rfl, hg⟩ | ⟨v, hr, hv, hp, hg⟩ | ⟨e, hr, hp, hg⟩ :=
            stepGot_cases (hrx hc.1) url response
          · rw [hg]
            exact .suspend hc.1 hc.2
          · rw [hg]
            exact .settle hc.1 (Event.ends_got hr) ((Event.visit_got hr).trans hv) hc.2 hp
          · rw [hg]
            exact .fail hc.1 (Event.ends_got hr) (Or.inl hp) hc.2
      · cases h
  | parsed url body joined =>
      rw [step] at h
      split at h
      · next hc =>
          obtain ⟨v, rfl, hv, hp, hg⟩ | ⟨e, hwhy, hg⟩ :=
            stepParsed_cases (hrx hc.1) url body joined
          · rw [hg] at h
            cases h
            exact .settle hc.1 rfl hv hc.2 hp
          · rw [hg] at h
            cases h
            refine .fail hc.1 rfl ?_ hc.2
            rcases hwhy with hp | hj | hv
            · exact Or.inl hp
            · cases joined with
              | error e => exact Or.inr rfl
              | ok _ => exact absurd rfl hj
            · cases joined with
              | error e => exact Or.inr rfl
              | ok _ => exact Or.inr hv
      · cases h
  | next =>
      rw [step] at h
      split at h
      · next hrun hcons =>
          cases h
          exact .abort hrun hcons (Or.inr rfl)
      · next hrun hcons =>
          cases hp : s.crawl.poisoned with
          | true =>
              simp only [lockMapErr, hp, if_true] at h
              cases h
              exact .abort hrun hcons (Or.inl hp)
          | false =>
              simp only [lockMapErr, hp, Bool.false_eq_true, if_false] at h
              split at h
              · next hcard =>
                  cases h
                  exact .stop hrun hcons hp hcard
              · next hcard =>
                  cases h
                  exact .resume hrun hcons hcard
      · cases h
  | poison =>
      cases h
      exact .poison

end CrawlInner

/-! ### Runs -/

/-- A run of the loop from the state `crawl` calls it in. -/
def Run (robots : Option String) (seed : Url) (es : List (Event Url)) (s : CrawlInner Url) : Prop :=
  exec CrawlInner.step (CrawlInner.begin robots seed) es = some s

variable {robots : Option String} {seed : Url} {es : List (Event Url)} {s : CrawlInner Url}

/-- The crawl of a call that begins: a new one that has noted its seed. -/
lemma begin_crawl (robots : Option String) (seed : Url) :
    (CrawlInner.begin robots seed).crawl
      = { data := ({ robots } : Crawl Url).discover seed } := by
  rw [CrawlInner.begin, withLock_of_ok rfl (Crawl.addLink_eq rfl seed)]
  rfl

lemma begin_receiver (robots : Option String) (seed : Url) :
    (CrawlInner.begin robots seed).crawl.data.todo.receiver = true := by
  rw [begin_crawl, Crawl.discover_receiver]

namespace CrawlInner

/-- The receiver lives as long as the loop. -/
lemma Trans.receiver {s s' : CrawlInner Url} {event : Event Url} (h : s.Trans event s')
    (hrx : s.outcome = none → s.crawl.data.todo.receiver = true) :
    s'.outcome = none → s'.crawl.data.todo.receiver = true := by
  intro hrun
  cases h with
  | settle running _ _ _ _ =>
      rw [settled, visited, Crawl.visit_receiver]
      exact hrx running
  | stop | abort => cases hrun
  | start | suspend | fail | resume | poison => exact hrx hrun

end CrawlInner

lemma Run.receiver (h : Run robots seed es s) :
    s.outcome = none → s.crawl.data.todo.receiver = true :=
  exec_invariant (P := fun s => s.outcome = none → s.crawl.data.todo.receiver = true)
    (fun _ _ _ hs hstep => (CrawlInner.trans_of_step hs hstep).receiver hs)
    (fun _ => begin_receiver robots seed) h

/-- **The induction rule for the runs of a crawl**: what holds at the start and
is kept by every transition holds of every run. -/
theorem Run.induction {P : List (Event Url) → CrawlInner Url → Prop}
    (start : P [] (CrawlInner.begin robots seed))
    (next : ∀ es e s s', Run robots seed es s → Run robots seed (es ++ [e]) s' → P es s →
      s.Trans e s' → P (es ++ [e]) s')
    (h : Run robots seed es s) : P es s := by
  refine exec_trace_induction start ?_ h
  intro es e s s' hrun hs hstep
  have hrun' : Run robots seed (es ++ [e]) s' := exec_concat_eq_some.mpr ⟨s, hrun, hstep⟩
  exact next es e s s' hrun hrun' hs (CrawlInner.trans_of_step (Run.receiver hrun) hstep)

/-- What every transition of a run keeps holds on once it holds. -/
theorem Run.persists {P : CrawlInner Url → Prop}
    (keep : ∀ es e s s', Run robots seed es s → s.Trans e s' → P s → P s')
    (h : Run robots seed es s) (hs : P s) {fs : List (Event Url)} {s' : CrawlInner Url}
    (h' : exec CrawlInner.step s fs = some s') : P s' := by
  refine exec_trace_induction (P := fun _ => P) hs ?_ h'
  intro gs e t u hgs ht hstep
  have hrun : Run robots seed (es ++ gs) t := by
    rw [Run, exec_append, h]
    exact hgs
  exact keep _ e t u hrun (CrawlInner.trans_of_step hrun.receiver hstep) ht

/-- The robots.txt of a crawl never changes. -/
lemma Run.robots_eq (h : Run robots seed es s) : s.crawl.data.robots = robots := by
  refine Run.induction (P := fun _ s => s.crawl.data.robots = robots) ?_ ?_ h
  · rw [begin_crawl, Crawl.discover_robots]
  · intro es e s s' _ _ hs ht
    cases ht with
    | settle =>
        rw [CrawlInner.settled, visited, Crawl.visit_robots]
        exact hs
    | start | suspend | fail | resume | stop | abort | poison => exact hs

end MikesCrawler
