/-
What one event does to a call of `crawl` and to the registry, and how the calls
of a crawler relate to the runs of their loops.

* `Call.Trans`, `Call.trans_of_step`: the transitions of a call as rules;
* `ServerRun`: a run of a crawler from its creation;
  `ProdCrawler.step_cases`, `ProdCrawler.call_cases`: what one of its events
  does, and where a call that is there after it was before;
* `ownEvents`, `innerEvents`: the events of one call in a run;
* `Call.Follows`, `ServerRun.follows`: the loop of a call makes a run of its
  own, whatever the other calls do, and a result the call returns is that run's;
* `ServerRun.call_induction`: the rule for what the steps of a call itself keep.
-/
import MikesCrawler.Refine.Transitions
import MikesCrawler.Model.ProdCrawler

open Machine

namespace MikesCrawler

variable {Url : Type} [DecidableEq Url] [Externals Url]

/-! ### The transitions of a call as rules -/

namespace Call

/-- The transitions of a call against the registry. -/
inductive Trans (i : CallId) :
    Call Url → Mutex (Registry Url) → CallEvent Url → Call Url → Mutex (Registry Url) → Prop
  | robotsFailed {seed robotsUrl : Url} {crawls : Mutex (Registry Url)} {e : Error} :
      Trans i (.fetchingRobots seed robotsUrl) crawls (.robots (.error e))
        (.returned seed none (.error e)) crawls
  | make {seed robotsUrl : Url} {crawls : Mutex (Registry Url)} {robots : Option String} :
      Trans i (.fetchingRobots seed robotsUrl) crawls (.robots (.ok robots))
        (.made seed (CrawlInner.begin robots seed)) crawls
  | abort {seed robotsUrl : Url} {crawls : Mutex (Registry Url)} {robots : Option String} :
      Trans i (.fetchingRobots seed robotsUrl) crawls (.abort robots) (.unmade seed) crawls
  | register {seed : Url} {inner : CrawlInner Url} {crawls : Mutex (Registry Url)}
      (unpoisoned : crawls.poisoned = false) :
      Trans i (.made seed inner) crawls .register (.registered seed inner)
        { crawls with data := crawls.data.insert seed i }
  | inner {seed : Url} {inner inner' : CrawlInner Url} {crawls : Mutex (Registry Url)}
      {event : Event Url} (next : inner.step event = some inner') :
      Trans i (.registered seed inner) crawls (.inner event) (.registered seed inner') crawls
  | panic {seed : Url} {inner : CrawlInner Url} {crawls : Mutex (Registry Url)} {locked : Bool}
      (running : inner.outcome = none) :
      Trans i (.registered seed inner) crawls (.panic locked)
        (.unwound seed { inner.crawl with poisoned := inner.crawl.poisoned || locked }) crawls
  | remove {seed : Url} {inner : CrawlInner Url} {crawls : Mutex (Registry Url)}
      (ended : inner.outcome ≠ none) (unpoisoned : crawls.poisoned = false) :
      Trans i (.registered seed inner) crawls .remove (.removed seed inner)
        { crawls with data := crawls.data.erase seed }
  | poisoned {call : Call Url} {seed : Url} {inner : CrawlInner Url} {event : CallEvent Url}
      {crawls : Mutex (Registry Url)} {e : Error}
      (stage : (call = .made seed inner ∧ event = .register) ∨
        (call = .registered seed inner ∧ event = .remove))
      (poisoned : crawls.poisoned = true) :
      Trans i call crawls event (.returned seed (some inner.crawl) (.error e)) crawls
  | fail {seed : Url} {inner : CrawlInner Url} {crawls : Mutex (Registry Url)} {e : Error}
      (failed : inner.outcome = some (.error e)) :
      Trans i (.removed seed inner) crawls .finish
        (.returned seed (some inner.crawl) (.error e)) crawls
  | unwrap {seed : Url} {inner : CrawlInner Url} {crawls : Mutex (Registry Url)}
      (ended : inner.outcome = some (.ok ())) :
      Trans i (.removed seed inner) crawls .finish
        (.returned seed (some inner.crawl) (unwrap inner (1 + slots i crawls.data))) crawls

/-- Every event of a call is one of the transitions. -/
theorem trans_of_step {i : CallId} {call call' : Call Url} {crawls crawls' : Mutex (Registry Url)}
    {event : CallEvent Url} (h : call.step i crawls event = some (call', crawls')) :
    Trans i call crawls event call' crawls' := by
  cases event with
  | robots answer =>
      cases call with
      | fetchingRobots seed robotsUrl =>
          cases answer with
          | error e =>
              cases h
              exact .robotsFailed
          | ok robots =>
              rw [step, withLock_of_ok rfl (Crawl.addLink_eq rfl seed)] at h
              cases h
              exact .make
      | _ => cases answer <;> cases h
  | abort robots =>
      cases call with
      | fetchingRobots seed robotsUrl =>
          cases h
          exact .abort
      | _ => cases h
  | register =>
      cases call with
      | made seed inner =>
          cases hp : crawls.poisoned with
          | true =>
              simp only [step, lockMapErr, hp, if_true] at h
              cases h
              exact .poisoned (Or.inl ⟨rfl, rfl⟩) hp
          | false =>
              simp only [step, lockMapErr, hp, Bool.false_eq_true, if_false] at h
              cases h
              exact hp ▸ .register hp
      | _ => cases h
  | inner event =>
      cases call with
      | registered seed inner =>
          obtain ⟨inner', hnext, heq⟩ := Option.map_eq_some_iff.mp h
          cases heq
          exact .inner hnext
      | _ => cases h
  | panic locked =>
      cases call with
      | registered seed inner =>
          rw [step] at h
          split at h
          · next hc =>
              cases h
              exact .panic hc.1
          · cases h
      | _ => cases h
  | remove =>
      cases call with
      | registered seed inner =>
          rw [step] at h
          split at h
          · cases h
          · next hended =>
              cases hp : crawls.poisoned with
              | true =>
                  simp only [lockMapErr, hp, if_true] at h
                  cases h
                  exact .poisoned (Or.inr ⟨rfl, rfl⟩) hp
              | false =>
                  simp only [lockMapErr, hp, Bool.false_eq_true, if_false] at h
                  cases h
                  exact hp ▸ .remove hended hp
      | _ => cases h
  | finish =>
      cases call with
      | removed seed inner =>
          rw [step] at h
          split at h
          · cases h
          · next hout =>
              cases h
              exact .fail hout
          · next hout =>
              cases h
              exact .unwrap hout
      | _ => cases h

omit [DecidableEq Url] [Externals Url] in
/-- What `Arc::try_unwrap` hands out. -/
lemma unwrap_eq_ok {inner : CrawlInner Url} {count : ℕ} {result : CrawlResult Url}
    (h : unwrap inner count = .ok result) :
    count = 1 ∧ inner.crawl.poisoned = false ∧ result = inner.crawl.data.result := by
  rw [unwrap] at h
  split at h
  · next hcount =>
      cases hp : inner.crawl.poisoned with
      | true =>
          simp only [lockMapErr, hp, if_true] at h
          cases h
      | false =>
          simp only [lockMapErr, hp, Bool.false_eq_true, if_false] at h
          exact ⟨hcount, rfl, (Except.ok.inj h).symm⟩
  · cases h

end Call

/-! ### Runs of a crawler -/

/-- A run of a crawler from its creation. -/
def ServerRun (es : List (ServerEvent Url)) (s : ProdCrawler Url) : Prop :=
  exec ProdCrawler.step ({} : ProdCrawler Url) es = some s

/-- What one event does to a crawler. -/
lemma ProdCrawler.step_cases {s s' : ProdCrawler Url} {e : ServerEvent Url}
    (h : s.step e = some s') :
    (∃ i seed, e = .crawl i seed ∧ s.calls i = none ∧
      s' = { s with calls := Function.update s.calls i (some (Call.begin seed)) }) ∨
    (∃ i event call call' crawls, e = .call i event ∧ s.calls i = some call ∧
      call.step i s.crawls event = some (call', crawls) ∧
      s' = { crawls, calls := Function.update s.calls i (some call') }) ∨
    (e = .status ∧ s' = s) := by
  cases e with
  | crawl i seed =>
      rw [step] at h
      split at h
      · next hi => exact Or.inl ⟨i, seed, rfl, hi, (Option.some.inj h).symm⟩
      · cases h
  | call i event =>
      rw [step] at h
      split at h
      · cases h
      · next call hi =>
          obtain ⟨⟨call', crawls⟩, hstep, heq⟩ := Option.map_eq_some_iff.mp h
          exact Or.inr (Or.inl ⟨i, event, call, call', crawls, rfl, hi, hstep, heq.symm⟩)
  | status => exact Or.inr (Or.inr ⟨rfl, (Option.some.inj h).symm⟩)

lemma ProdCrawler.step_crawl {s : ProdCrawler Url} {i : CallId} (h : s.calls i = none)
    (seed : Url) : s.step (.crawl i seed)
      = some { s with calls := Function.update s.calls i (some (Call.begin seed)) } := by
  rw [step, h]

lemma ProdCrawler.step_call {s : ProdCrawler Url} {i : CallId} {call call' : Call Url}
    {event : CallEvent Url} {crawls : Mutex (Registry Url)} (h : s.calls i = some call)
    (hstep : call.step i s.crawls event = some (call', crawls)) : s.step (.call i event)
      = some { crawls, calls := Function.update s.calls i (some call') } := by
  rw [step, h]
  simp only [hstep, Option.map_some]

/-! ### The calls of a run -/

omit [DecidableEq Url] in
lemma Call.begin_seed (seed : Url) : (Call.begin seed).seed = seed := by
  rw [begin]
  split <;> rfl

/-- A call keeps its seed. -/
lemma Call.Trans.seed_eq {i : CallId} {call call' : Call Url}
    {crawls crawls' : Mutex (Registry Url)} {event : CallEvent Url}
    (ht : Trans i call crawls event call' crawls') : call'.seed = call.seed := by
  cases ht with
  | poisoned stage => obtain ⟨rfl, -⟩ | ⟨rfl, -⟩ := stage <;> rfl
  | robotsFailed | make | abort | register | inner | panic | remove | fail | unwrap => rfl

/-- Where a call that is there after an event was before it: as it is, with the
registry left alone or changed by another call; or not made yet; or at the
beginning of a transition. -/
lemma ProdCrawler.call_cases {s s' : ProdCrawler Url} {e : ServerEvent Url}
    (h : s.step e = some s') {i : CallId} {call : Call Url} (hi : s'.calls i = some call) :
    (s.calls i = some call ∧ (s'.crawls = s.crawls ∨ ∃ j event old new, j ≠ i ∧
      s.calls j = some old ∧ Call.Trans j old s.crawls event new s'.crawls)) ∨
    (∃ seed, e = .crawl i seed ∧ call = Call.begin seed) ∨
    (∃ event old, e = .call i event ∧ s.calls i = some old ∧
      Call.Trans i old s.crawls event call s'.crawls) := by
  obtain ⟨j, seed, rfl, -, rfl⟩ | ⟨j, event, old, new, crawls, rfl, hj, hstep, rfl⟩ | ⟨-, rfl⟩ :=
    step_cases h
  · by_cases hij : i = j
    · subst hij
      cases (Function.update_self i _ s.calls).symm.trans hi
      exact Or.inr (Or.inl ⟨seed, rfl, rfl⟩)
    · exact Or.inl ⟨(Function.update_of_ne hij _ _).symm.trans hi, Or.inl rfl⟩
  · have ht := Call.trans_of_step hstep
    by_cases hij : i = j
    · subst hij
      cases (Function.update_self i _ s.calls).symm.trans hi
      exact Or.inr (Or.inr ⟨event, old, rfl, hj, ht⟩)
    · exact Or.inl ⟨(Function.update_of_ne hij _ _).symm.trans hi,
        Or.inr ⟨j, event, old, new, Ne.symm hij, hj, ht⟩⟩
  · exact Or.inl ⟨hi, Or.inl rfl⟩

/-- A call has been made with its seed. -/
lemma ServerRun.crawl_mem {es : List (ServerEvent Url)} {s : ProdCrawler Url}
    (h : ServerRun es s) {i : CallId} {call : Call Url} (hi : s.calls i = some call) :
    .crawl i call.seed ∈ es := by
  revert i call
  refine exec_trace_induction (P := fun es s => ∀ {i call}, s.calls i = some call →
    ServerEvent.crawl i call.seed ∈ es) ?_ ?_ h
  · intro i call hi
    cases hi
  · rintro es e s s' - ih hstep i call hi
    obtain ⟨hold, -⟩ | ⟨seed, rfl, rfl⟩ | ⟨event, old, rfl, hold, ht⟩ :=
      ProdCrawler.call_cases hstep hi
    · exact List.mem_append_left _ (ih hold)
    · rw [Call.begin_seed]
      exact List.mem_append_right _ (List.mem_singleton_self _)
    · rw [ht.seed_eq]
      exact List.mem_append_left _ (ih hold)

/-! ### The events of one call -/

/-- The event of a call that an event of the crawler is. -/
def ServerEvent.own? (i : CallId) : ServerEvent Url → Option (CallEvent Url)
  | .call j event => if j = i then some event else none
  | .crawl _ _ | .status => none

/-- The events of one call in a run. -/
def ownEvents (i : CallId) (es : List (ServerEvent Url)) : List (CallEvent Url) :=
  es.filterMap (ServerEvent.own? i)

/-- The event of the loop that an event of a call is. -/
def CallEvent.inner? : CallEvent Url → Option (Event Url)
  | .inner event => some event
  | _ => none

/-- The robots.txt that an event of a call brings. -/
def CallEvent.robots? : CallEvent Url → Option (Option String)
  | .robots (.ok text) => some text
  | _ => none

/-- The events of the loop of one call in a run. -/
def innerEvents (i : CallId) (es : List (ServerEvent Url)) : List (Event Url) :=
  (ownEvents i es).filterMap CallEvent.inner?

omit [DecidableEq Url] [Externals Url] in
@[simp] lemma own?_self (i : CallId) (event : CallEvent Url) :
    (ServerEvent.call i event).own? i = some event := if_pos rfl

omit [DecidableEq Url] [Externals Url] in
lemma own?_of_ne {i j : CallId} (h : i ≠ j) (event : CallEvent Url) :
    (ServerEvent.call j event).own? i = none := if_neg h.symm

omit [DecidableEq Url] [Externals Url] in
lemma ownEvents_concat_self (i : CallId) (es : List (ServerEvent Url)) (event : CallEvent Url) :
    ownEvents i (es ++ [.call i event]) = ownEvents i es ++ [event] :=
  filterMap_concat_of_some (own?_self i event) es

omit [DecidableEq Url] [Externals Url] in
lemma ownEvents_concat_of_none {i : CallId} {e : ServerEvent Url} (h : e.own? i = none)
    (es : List (ServerEvent Url)) : ownEvents i (es ++ [e]) = ownEvents i es :=
  filterMap_concat_of_none h es

omit [DecidableEq Url] [Externals Url] in
lemma mem_ownEvents {i : CallId} {es : List (ServerEvent Url)} {event : CallEvent Url} :
    event ∈ ownEvents i es ↔ .call i event ∈ es := by
  rw [ownEvents, List.mem_filterMap]
  constructor
  · rintro ⟨e, hmem, he⟩
    cases e with
    | call j event' =>
        rw [ServerEvent.own?] at he
        split at he
        · next hj =>
            cases he
            exact hj ▸ hmem
        · cases he
    | crawl | status => cases he
  · intro hmem
    exact ⟨_, hmem, if_pos rfl⟩

omit [DecidableEq Url] [Externals Url] in
lemma mem_innerEvents {i : CallId} {es : List (ServerEvent Url)} {event : Event Url} :
    event ∈ innerEvents i es ↔ .call i (.inner event) ∈ es := by
  rw [innerEvents, List.mem_filterMap, ← mem_ownEvents]
  constructor
  · rintro ⟨e, hmem, he⟩
    cases e with
    | inner event' =>
        cases he
        exact hmem
    | robots | abort | register | panic | remove | finish => cases he
  · intro hmem
    exact ⟨_, hmem, rfl⟩

/-! ### The loop of a call -/

/-- The loop of a call has made a run of its own. -/
def Call.Loops (es : List (CallEvent Url)) (seed : Url) (inner : CrawlInner Url) : Prop :=
  ∃ robots, es.filterMap CallEvent.robots? = [robots] ∧
    Run robots seed (es.filterMap CallEvent.inner?) inner

omit [DecidableEq Url] [Externals Url] in
/-- The one robots.txt of a loop is among the events of its call. -/
lemma mem_of_robots {es : List (CallEvent Url)} {robots : Option String}
    (h : es.filterMap CallEvent.robots? = [robots]) : .robots (.ok robots) ∈ es := by
  have hmem : robots ∈ es.filterMap CallEvent.robots? := by simp [h]
  obtain ⟨event, hevent, heq⟩ := List.mem_filterMap.mp hmem
  cases event with
  | robots answer =>
      cases answer with
      | ok text =>
          cases heq
          exact hevent
      | error => cases heq
  | abort | register | inner | panic | remove | finish => cases heq

/-- How a call and its events match. -/
def Call.Follows (es : List (CallEvent Url)) : Call Url → Prop
  | .fetchingRobots _ _ => es = []
  | .made seed inner | .registered seed inner => Loops es seed inner
  | .removed seed inner => Loops es seed inner ∧ inner.outcome ≠ none
  | .returned seed _ (.ok result) =>
      ∃ inner, Loops es seed inner ∧ inner.outcome = some (.ok ()) ∧
        inner.crawl.poisoned = false ∧ result = inner.crawl.data.result
  | .returned _ _ (.error _) | .unwound _ _ | .unmade _ => True

/-- An event that is not of the loop and brings no robots.txt leaves the run of
the loop alone. -/
lemma Call.Loops.concat {es : List (CallEvent Url)} {seed : Url} {inner : CrawlInner Url}
    (h : Loops es seed inner) {event : CallEvent Url} (hrobots : event.robots? = none)
    (hinner : event.inner? = none) : Loops (es ++ [event]) seed inner := by
  obtain ⟨robots, hr, hrun⟩ := h
  refine ⟨robots, ?_, ?_⟩
  · rw [filterMap_concat_of_none hrobots, hr]
  · rw [filterMap_concat_of_none hinner]
    exact hrun

/-- A transition keeps a call and its events matched. -/
lemma Call.Follows.trans {i : CallId} {es : List (CallEvent Url)} {call call' : Call Url}
    {crawls crawls' : Mutex (Registry Url)} {event : CallEvent Url} (h : call.Follows es)
    (ht : Trans i call crawls event call' crawls') : call'.Follows (es ++ [event]) := by
  cases ht with
  | make =>
      have hes : es = [] := h
      rw [hes]
      exact ⟨_, rfl, rfl⟩
  | register => exact Loops.concat h rfl rfl
  | @inner seed inner inner' _ event next =>
      obtain ⟨robots, hr, hrun⟩ := h
      refine ⟨robots, ?_, ?_⟩
      · rw [filterMap_concat_of_none (f := CallEvent.robots?) rfl, hr]
      · rw [filterMap_concat_of_some (f := CallEvent.inner?) rfl]
        exact exec_concat_eq_some.mpr ⟨inner, hrun, next⟩
  | remove ended => exact ⟨Loops.concat h rfl rfl, ended⟩
  | @unwrap seed inner _ ended =>
      cases hres : unwrap inner (1 + slots i crawls.data) with
      | error e => trivial
      | ok result =>
          obtain ⟨-, hp, heq⟩ := unwrap_eq_ok hres
          exact ⟨inner, h.1.concat rfl rfl, ended, hp, heq⟩
  | robotsFailed | abort | panic | poisoned | fail => trivial

/-- **The calls of a crawler follow their events**: each call's loop makes a
run of its own, whatever the other calls do. -/
theorem ServerRun.follows {es : List (ServerEvent Url)} {s : ProdCrawler Url}
    (h : ServerRun es s) (i : CallId) :
    (s.calls i = none → ownEvents i es = []) ∧
      ∀ call, s.calls i = some call → call.Follows (ownEvents i es) := by
  refine exec_trace_induction (P := fun es s => (s.calls i = none → ownEvents i es = []) ∧
    ∀ call, s.calls i = some call → call.Follows (ownEvents i es)) ?_ ?_ h
  · exact ⟨fun _ => rfl, fun call hcall => by cases hcall⟩
  · rintro es e s s' - ⟨hnone, hsome⟩ hstep
    obtain ⟨j, seed, rfl, hj, rfl⟩ | ⟨j, event, call, call', crawls, rfl, hj, hcall', rfl⟩ |
      ⟨rfl, rfl⟩ := ProdCrawler.step_cases hstep
    · rw [ownEvents_concat_of_none rfl]
      by_cases hij : i = j
      · subst hij
        refine ⟨fun _ => hnone hj, fun call hcall => ?_⟩
        cases (Function.update_self i _ s.calls).symm.trans hcall
        rw [hnone hj, Call.begin]
        split
        · trivial
        · rfl
      · simp only [Function.update_of_ne hij]
        exact ⟨hnone, hsome⟩
    · by_cases hij : i = j
      · subst hij
        rw [ownEvents_concat_self]
        have hself := Function.update_self i (some call') s.calls
        refine ⟨fun hcall => ?_, fun call'' hcall => ?_⟩
        · cases hself.symm.trans hcall
        · cases hself.symm.trans hcall
          exact (hsome call hj).trans (Call.trans_of_step hcall')
      · rw [ownEvents_concat_of_none (own?_of_ne hij event)]
        simp only [Function.update_of_ne hij]
        exact ⟨hnone, hsome⟩
    · rw [ownEvents_concat_of_none rfl]
      exact ⟨hnone, hsome⟩

/-- **Induction along a call**: what holds of a call that begins, and is kept by
the steps of the call itself, holds of it and its events in every run. -/
theorem ServerRun.call_induction {i : CallId} {P : List (CallEvent Url) → Call Url → Prop}
    (start : ∀ seed, P [] (Call.begin seed))
    (next : ∀ es s call event call' crawls, ServerRun es s → s.calls i = some call →
      P (ownEvents i es) call → call.step i s.crawls event = some (call', crawls) →
      P (ownEvents i es ++ [event]) call')
    {es : List (ServerEvent Url)} {s : ProdCrawler Url} (h : ServerRun es s) {call : Call Url}
    (hi : s.calls i = some call) : P (ownEvents i es) call := by
  revert call
  refine exec_trace_induction
    (P := fun es s => ∀ {call}, s.calls i = some call → P (ownEvents i es) call) ?_ ?_ h
  · intro call hi
    cases hi
  · intro es e s s' hs ih hstep call hi
    obtain ⟨j, seed, rfl, hj, rfl⟩ | ⟨j, event, old, new, crawls, rfl, hj, hmoved, rfl⟩ |
      ⟨rfl, rfl⟩ := ProdCrawler.step_cases hstep
    · rw [ownEvents_concat_of_none rfl]
      by_cases hij : i = j
      · subst hij
        cases (Function.update_self i _ s.calls).symm.trans hi
        rw [(ServerRun.follows hs i).1 hj]
        exact start seed
      · exact ih ((Function.update_of_ne hij _ _).symm.trans hi)
    · by_cases hij : i = j
      · subst hij
        cases (Function.update_self i _ s.calls).symm.trans hi
        rw [ownEvents_concat_self]
        exact next es s old event call crawls hs hj (ih hj) hmoved
      · rw [ownEvents_concat_of_none (own?_of_ne hij event)]
        exact ih ((Function.update_of_ne hij _ _).symm.trans hi)
    · rw [ownEvents_concat_of_none rfl]
      exact ih hi

/-- The loop behind a result that a call has returned. -/
theorem ServerRun.returned {es : List (ServerEvent Url)} {s : ProdCrawler Url}
    (h : ServerRun es s) {i : CallId} {seed : Url} {crawl : Option (Mutex (Crawl Url))}
    {result : CrawlResult Url} (hcall : s.calls i = some (.returned seed crawl (.ok result)))
    {robots : Option String} (hrobots : .call i (.robots (.ok robots)) ∈ es) :
    ∃ inner, Run robots seed (innerEvents i es) inner ∧ inner.outcome = some (.ok ()) ∧
      inner.crawl.poisoned = false ∧ result = inner.crawl.data.result := by
  obtain ⟨inner, ⟨robots', hr, hrun⟩, hok, hp, hres⟩ := (h.follows i).2 _ hcall
  have hmem : robots ∈ (ownEvents i es).filterMap CallEvent.robots? :=
    List.mem_filterMap.mpr ⟨_, mem_ownEvents.mpr hrobots, rfl⟩
  rw [hr, List.mem_singleton] at hmem
  rw [hmem]
  exact ⟨inner, hrun, hok, hp, hres⟩

end MikesCrawler
