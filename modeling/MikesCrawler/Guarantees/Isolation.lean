/-
The calls of a crawler do not influence each other.

* `Call.step_congr`: a call reads of the registry only its poison flag and, when
  it unwraps its crawl, the number of its own slots;
* `ServerEvent.of`, `ServerRun.alone`: the events of one call in a run form a
  run of that call alone, in which it ends as it does among the others;
* `call_isolated`: so it is, and a result it returns is the one it returns on
  its own.
-/
import MikesCrawler.Machine.Simulation
import MikesCrawler.Refine.Registry
import MikesCrawler.Guarantees.Reach

open Machine

namespace MikesCrawler

variable {Url : Type} [DecidableEq Url] [Externals Url]

/-- A call moves alike against two registries that are free of poison and, when
it unwraps its crawl, hold as many of its slots. -/
lemma Call.step_congr {i : CallId} {call call' : Call Url}
    {crawls crawls' crawls₂ : Mutex (Registry Url)} {event : CallEvent Url}
    (hlock : crawls.poisoned = false) (hlock₂ : crawls₂.poisoned = false)
    (hslots : (∃ seed inner, call = .removed seed inner) →
      slots i crawls.data = slots i crawls₂.data)
    (h : call.step i crawls event = some (call', crawls')) :
    ∃ crawls₂', call.step i crawls₂ event = some (call', crawls₂') := by
  cases trans_of_step h with
  | robotsFailed | abort => exact ⟨_, rfl⟩
  | make =>
      rw [step, withLock_of_ok rfl (Crawl.addLink_eq rfl _)]
      exact ⟨_, rfl⟩
  | register =>
      simp only [step, lockMapErr, hlock₂, Bool.false_eq_true, if_false]
      exact ⟨_, rfl⟩
  | inner next =>
      rw [step, next]
      exact ⟨_, rfl⟩
  | panic =>
      rw [step] at h ⊢
      split at h
      · next hc =>
          rw [if_pos hc]
          exact ⟨_, rfl⟩
      · cases h
  | remove ended =>
      simp only [step, if_neg ended, lockMapErr, hlock₂, Bool.false_eq_true, if_false]
      exact ⟨_, rfl⟩
  | poisoned _ hp => cases hlock.symm.trans hp
  | fail failed =>
      simp only [step, failed]
      exact ⟨_, rfl⟩
  | unwrap ended =>
      simp only [step, ended]
      rw [hslots ⟨_, _, rfl⟩]
      exact ⟨_, rfl⟩

/-! ### The events of one call alone -/

/-- Whether an event is of a call. -/
def ServerEvent.of (i : CallId) : ServerEvent Url → Bool
  | .crawl j _ | .call j _ => j = i
  | .status => false

variable {es : List (ServerEvent Url)} {s : ProdCrawler Url}

/-- The events of a call in a run without panics form a run of that call alone,
in which it ends as it does among the others. -/
theorem ServerRun.alone (h : ServerRun es s) (hpanic : Unpanicked es) (i : CallId) :
    ∃ t, ServerRun (es.filter (ServerEvent.of i)) t ∧
      t.calls i = s.calls i ∧ ∀ j, j ≠ i → t.calls j = none := by
  refine exec_filter (ServerEvent.of i)
    (G := fun e => ∀ j locked, e ≠ ServerEvent.call j (.panic locked))
    (R := fun s t : ProdCrawler Url => t.calls i = s.calls i ∧ ∀ j, j ≠ i → t.calls j = none)
    ⟨rfl, fun _ _ => rfl⟩ ?_ ?_ h fun e hmem j locked he => hpanic j locked (he ▸ hmem)
  · rintro es s t e s' hgood - hs ht ⟨hcall, hothers⟩ hp hstep
    have hpre : Unpanicked es := fun j locked hmem => hgood _ hmem j locked rfl
    have hpre' : Unpanicked (es.filter (ServerEvent.of i)) := fun j locked hmem =>
      hpre j locked (List.mem_of_mem_filter hmem)
    have hupdate : ∀ {call : Call Url},
        Function.update t.calls i (some call) i = Function.update s.calls i (some call) i ∧
          ∀ j, j ≠ i → Function.update t.calls i (some call) j = none := by
      intro call
      refine ⟨by rw [Function.update_self, Function.update_self], fun j hj => ?_⟩
      rw [Function.update_of_ne hj]
      exact hothers j hj
    obtain ⟨j, seed, rfl, hj, rfl⟩ | ⟨j, event, call, call', crawls, rfl, hj, hstep', rfl⟩ |
      ⟨rfl, rfl⟩ := ProdCrawler.step_cases hstep
    · have hij : j = i := of_decide_eq_true hp
      subst hij
      exact ⟨_, ProdCrawler.step_crawl (hcall.trans hj) seed, hupdate⟩
    · have hij : j = i := of_decide_eq_true hp
      subst hij
      have hslots : (∃ seed inner, call = .removed seed inner) →
          Call.slots j s.crawls.data = Call.slots j t.crawls.data := by
        rintro ⟨seed, inner, rfl⟩
        have hzero := ServerRun.slots_removed hs hpre hj
        have hzero' := ServerRun.slots_removed ht hpre' (hcall.trans hj)
        rw [hzero, hzero']
      obtain ⟨crawls₂, hstep₂⟩ := Call.step_congr (ServerRun.unpoisoned hs)
        (ServerRun.unpoisoned ht) hslots hstep'
      exact ⟨_, ProdCrawler.step_call (hcall.trans hj) hstep₂, hupdate⟩
    · cases hp
  · rintro s t e s' ⟨hcall, hothers⟩ hp hstep
    obtain ⟨j, seed, rfl, hj, rfl⟩ | ⟨j, event, call, call', crawls, rfl, hj, -, rfl⟩ |
      ⟨rfl, rfl⟩ := ProdCrawler.step_cases hstep
    · have hij : i ≠ j := fun hij => of_decide_eq_false hp hij.symm
      exact ⟨hcall.trans (Function.update_of_ne hij _ _).symm, hothers⟩
    · have hij : i ≠ j := fun hij => of_decide_eq_false hp hij.symm
      exact ⟨hcall.trans (Function.update_of_ne hij _ _).symm, hothers⟩
    · exact ⟨hcall, hothers⟩

/-- **Concurrent crawls do not influence each other**: the events of one call
form a run of that call alone, which takes it through the same state to the
same result; and a result it returns is the one it returns on its own, however
it is scheduled there. -/
theorem call_isolated (h : ServerRun es s) (hpanic : Unpanicked es) (i : CallId) :
    (∃ t, ServerRun (es.filter (ServerEvent.of i)) t ∧
      t.calls i = s.calls i ∧ ∀ j, j ≠ i → t.calls j = none) ∧
    ∀ (seed : Url) (robots : Option String) (get : Url → Except Error (HttpResponse Url))
      (crawl : Option (Mutex (Crawl Url))) (result : CrawlResult Url),
      s.calls i = some (.returned seed crawl (.ok result)) →
      .call i (.robots (.ok robots)) ∈ es →
      (∀ url response, .call i (.inner (.got url response)) ∈ es → response = get url) →
      ∀ (fs : List (ServerEvent Url)) (t : ProdCrawler Url)
        (crawl' : Option (Mutex (Crawl Url))) (result' : CrawlResult Url),
        (∀ e ∈ fs, e.of i = true) → ServerRun fs t →
        t.calls i = some (.returned seed crawl' (.ok result')) →
        .call i (.robots (.ok robots)) ∈ fs →
        (∀ url response, .call i (.inner (.got url response)) ∈ fs → response = get url) →
        result' = result := by
  refine ⟨h.alone hpanic i, ?_⟩
  intro seed robots get crawl result hcall hrobots hget fs t crawl' result' _ ht hcall' hrobots'
    hget'
  obtain ⟨inner, hrun, hok, -, rfl⟩ := h.returned hcall hrobots
  obtain ⟨inner', hrun', hok', -, rfl⟩ := ht.returned hcall' hrobots'
  exact hrun.result_unique hrun' hok hok' (innerEvents_got hget) (innerEvents_got hget')

/-- A call whose slot another call with its seed has taken returns as it does
alone. -/
theorem call_isolated_twin :
    ∃ s t, ServerRun PlainUrl.twinEvents s ∧
      ServerRun (PlainUrl.twinEvents.filter (ServerEvent.of 0)) t ∧ t.calls 0 = s.calls 0 ∧
      t.calls 1 = none := by
  have hpanic : Unpanicked PlainUrl.twinEvents := by
    intro i locked hmem
    simp [PlainUrl.twinEvents, PlainUrl.events] at hmem
  obtain ⟨t, ht, hcall, hothers⟩ :=
    (call_isolated (rfl : ServerRun PlainUrl.twinEvents _) hpanic 0).1
  exact ⟨_, t, rfl, ht, hcall, hothers 1 (by decide)⟩

end MikesCrawler
