/-
What the calls that have ended leave in the registry.

* `Call.Ended`, `Call.Ended.persists`: a call that has returned, or whose future
  is gone, stays that way;
* `ProdCrawler.shown`: the calls whose crawls `status` reads;
* `no_ghosts`: if no step panics those are live, so that a call that has returned
  is never shown again and the registry is empty when no call runs;
* `Call.Holds`, `ServerRun.lookup_of_holds`: a call that has registered and not
  removed its seed keeps the slot of it, also once a panic has ended it;
* `status_recovers_iff`: so `status` reports the live calls exactly if no step
  has panicked.
-/
import MikesCrawler.Guarantees.Registry

open Machine

namespace MikesCrawler

variable {Url : Type} [DecidableEq Url] [Externals Url]
variable {es : List (ServerEvent Url)} {s : ProdCrawler Url}

/-! ### Calls that have ended -/

/-- The call has returned, or its future is gone. -/
def Call.Ended : Call Url → Prop
  | .returned _ _ _ | .unwound _ _ | .unmade _ => True
  | .fetchingRobots _ _ | .made _ _ | .registered _ _ | .removed _ _ => False

/-- A call that has ended makes no transition. -/
lemma Call.Ended.not_trans {i : CallId} {call call' : Call Url}
    {crawls crawls' : Mutex (Registry Url)} {event : CallEvent Url} (h : call.Ended) :
    ¬ Trans i call crawls event call' crawls' := by
  intro ht
  cases ht with
  | poisoned stage =>
      obtain ⟨rfl, -⟩ | ⟨rfl, -⟩ := stage
      · exact h
      · exact h
  | robotsFailed | make | abort | register | inner | panic | remove | fail | unwrap => exact h

/-- A call that has ended stays as it is. -/
lemma Call.Ended.persists {i : CallId} {call : Call Url} (h : call.Ended)
    {fs : List (ServerEvent Url)} {t : ProdCrawler Url} (hi : s.calls i = some call)
    (hrun : exec ProdCrawler.step s fs = some t) : t.calls i = some call := by
  refine exec_invariant (P := fun s : ProdCrawler Url => s.calls i = some call) ?_ hi hrun
  intro s e s' hi hstep
  obtain ⟨j, seed, -, hj, rfl⟩ | ⟨j, event, call', call'', crawls, -, hj, hcall, rfl⟩ |
    ⟨-, rfl⟩ := ProdCrawler.step_cases hstep
  · have hij : i ≠ j := by
      rintro rfl
      cases hj.symm.trans hi
    exact (Function.update_of_ne hij _ _).trans hi
  · have hij : i ≠ j := by
      rintro rfl
      cases hi.symm.trans hj
      exact h.not_trans (Call.trans_of_step hcall)
    exact (Function.update_of_ne hij _ _).trans hi
  · exact hi

/-! ### What `status` reads -/

/-- The call has returned. -/
def ProdCrawler.Returned (s : ProdCrawler Url) (i : CallId) : Prop :=
  ∃ seed crawl result, s.calls i = some (.returned seed crawl result)

/-- The calls whose crawls `status` reads, in its order. -/
def ProdCrawler.shown (s : ProdCrawler Url) : List CallId := s.crawls.data.entries.map Sigma.snd

omit [DecidableEq Url] [Externals Url] in
lemma ProdCrawler.Returned.not_live {i : CallId} (h : s.Returned i) (seed : Url) :
    ¬ s.Live i seed := by
  obtain ⟨_, _, _, hi⟩ := h
  rintro ⟨inner, hi'⟩
  cases hi.symm.trans hi'

omit [DecidableEq Url] [Externals Url] in
/-- The status of a slot that holds a live call is that of its call. -/
lemma ProdCrawler.reported_of_slotStatus {slot : (_ : Url) × CallId} {status : CrawlStatus Url}
    (hlive : s.Live slot.2 slot.1) (h : s.slotStatus slot = .ok status) :
    ∃ call, s.calls slot.2 = some call ∧ call.Reported status := by
  obtain ⟨inner, hi⟩ := hlive
  refine ⟨_, hi, ?_⟩
  rw [slotStatus, hi] at h
  simp only [Option.bind_some, Call.crawl?, lockMapErr, Crawl.status] at h
  split at h
  · cases h
  · next hlock =>
      split at hlock
      · cases hlock
      · cases hlock
        split at h
        · cases h
        · cases h
          exact ⟨inner, rfl, rfl, rfl⟩

/-- Without panics `status` shows live calls only. -/
lemma ServerRun.shown_live (h : ServerRun es s) (hpanic : Unpanicked es) {i : CallId}
    (hi : i ∈ s.shown) : ∃ seed, s.Live i seed := by
  obtain ⟨slot, hslot, rfl⟩ := List.mem_map.mp hi
  exact ⟨slot.1, h.slot_live hpanic (AList.mem_lookup_iff.mpr hslot)⟩

omit [DecidableEq Url] [Externals Url] in
lemma Unpanicked.append {es fs : List (ServerEvent Url)} (h : Unpanicked es) (h' : Unpanicked fs) :
    Unpanicked (es ++ fs) := fun i locked hmem =>
  (List.mem_append.mp hmem).elim (h i locked) (h' i locked)

/-- **No ghosts in the registry**: if no step panics each slot belongs to a call
that has registered and not removed its seed, and `status` reports those; so a
call that has returned is not shown again, whatever the other calls do; and when
every call has ended the registry is empty. -/
theorem no_ghosts (h : ServerRun es s) (hpanic : Unpanicked es) :
    (∀ seed i, s.crawls.data.lookup seed = some i → s.Live i seed) ∧
    (∀ statuses, s.status = .ok statuses →
      List.Forall₂ (fun i status => ∃ call, s.calls i = some call ∧ call.Reported status)
        s.shown statuses) ∧
    (∀ i, s.Returned i → ∀ fs t, ServerRun (es ++ fs) t → Unpanicked fs →
      t.Returned i ∧ i ∉ t.shown) ∧
    ((∀ i call, s.calls i = some call → call.Ended) → s.crawls.data = ∅) := by
  refine ⟨fun seed i => h.slot_live hpanic, fun statuses hstatus => ?_, ?_, fun hall => ?_⟩
  · rw [ProdCrawler.shown, List.forall₂_map_left_iff]
    have hlive : ∀ slot ∈ s.crawls.data.entries, s.Live slot.2 slot.1 := fun slot hslot =>
      h.slot_live hpanic (AList.mem_lookup_iff.mpr hslot)
    have hboth := (List.forall₂_and_left _ _).mpr ⟨hlive, h.status_eq_ok_iff.mp hstatus⟩
    exact hboth.imp fun slot status hslot => ProdCrawler.reported_of_slotStatus hslot.1 hslot.2
  · rintro i ⟨seed, crawl, result, hi⟩ fs t ht hpanic'
    obtain ⟨s', hs', hfs⟩ := exec_split ht
    cases h.symm.trans hs'
    have hended : (Call.returned seed crawl result).Ended := trivial
    have hreturned : t.Returned i := ⟨seed, crawl, result, hended.persists hi hfs⟩
    refine ⟨hreturned, fun hshown => ?_⟩
    obtain ⟨seed', hlive⟩ := ServerRun.shown_live ht (hpanic.append hpanic') hshown
    exact hreturned.not_live seed' hlive
  · refine AList.ext (List.eq_nil_iff_forall_not_mem.mpr fun slot hslot => ?_)
    have hlive := h.slot_live hpanic (AList.mem_lookup_iff.mpr hslot)
    obtain ⟨inner, hi⟩ := hlive
    exact hall slot.2 _ hi

/-- A call that has returned while another with its seed runs on is not
shown. -/
theorem no_ghosts_twin :
    ∃ s, ServerRun (PlainUrl.twinEvents ++ [.status]) s ∧ s.Returned 0 ∧ 0 ∉ s.shown := by
  have hpanic : Unpanicked PlainUrl.twinEvents := by
    intro i locked hmem
    simp [PlainUrl.twinEvents, PlainUrl.events] at hmem
  have hpanic' : Unpanicked ([.status] : List (ServerEvent PlainUrl)) := by
    intro i locked hmem
    simp at hmem
  exact ⟨_, rfl, (no_ghosts (rfl : ServerRun PlainUrl.twinEvents _) hpanic).2.2.1 0
    ⟨_, _, _, rfl⟩ [.status] _ rfl hpanic'⟩

/-! ### Calls that hold a slot -/

/-- The call has registered its seed and will not have removed it: it is live,
or a panic has ended it while it was. -/
def Call.Holds (call : Call Url) (seed : Url) : Prop :=
  call.Registered seed ∨ ∃ crawl, call = .unwound seed crawl

omit [DecidableEq Url] [Externals Url] in
lemma Call.Holds.seed_eq {call : Call Url} {seed : Url} (h : call.Holds seed) :
    call.seed = seed := by
  obtain ⟨inner, rfl⟩ | ⟨crawl, rfl⟩ := h <;> rfl

omit [DecidableEq Url] in
lemma Call.not_holds_begin (seed seed' : Url) : ¬ (Call.begin seed).Holds seed' := by
  rw [begin]
  rintro (⟨inner, h⟩ | ⟨crawl, h⟩)
  · split at h <;> cases h
  · split at h <;> cases h

/-- What a transition does to the slot of a call that holds it afterwards. -/
lemma Call.Trans.lookup_of_holds {i : CallId} {call call' : Call Url}
    {crawls crawls' : Mutex (Registry Url)} {event : CallEvent Url} {seed : Url}
    (ht : Trans i call crawls event call' crawls')
    (hold : call.Holds seed → crawls.data.lookup seed = some i) (h : call'.Holds seed) :
    crawls'.data.lookup seed = some i := by
  cases ht with
  | robotsFailed | make | abort | remove | poisoned | fail | unwrap =>
      obtain ⟨_, h⟩ | ⟨_, h⟩ := h <;> cases h
  | register =>
      obtain ⟨_, h⟩ | ⟨_, h⟩ := h
      · cases h
        exact AList.lookup_insert _
      · cases h
  | inner =>
      obtain ⟨_, h⟩ | ⟨_, h⟩ := h
      · cases h
        exact hold (Or.inl ⟨_, rfl⟩)
      · cases h
  | panic =>
      obtain ⟨_, h⟩ | ⟨_, h⟩ := h
      · cases h
      · cases h
        exact hold (Or.inl ⟨_, rfl⟩)

/-- A transition leaves the slots of other seeds alone. -/
lemma Call.Trans.lookup_of_ne {i : CallId} {call call' : Call Url}
    {crawls crawls' : Mutex (Registry Url)} {event : CallEvent Url} {seed : Url}
    (ht : Trans i call crawls event call' crawls') (hne : seed ≠ call.seed) :
    crawls'.data.lookup seed = crawls.data.lookup seed := by
  cases ht with
  | register => exact AList.lookup_insert_ne hne
  | remove => exact AList.lookup_erase_ne hne
  | robotsFailed | make | abort | inner | panic | poisoned | fail | unwrap => rfl

/-- If no two calls are made with one seed, a call keeps the slot of its seed
until it removes it. -/
lemma ServerRun.lookup_of_holds (h : ServerRun es s) (hseeds : SeedsApart es) {i : CallId}
    {call : Call Url} {seed : Url} (hi : s.calls i = some call) (hholds : call.Holds seed) :
    s.crawls.data.lookup seed = some i := by
  revert i call seed hseeds
  refine exec_trace_induction (P := fun es s => SeedsApart es → ∀ {i call seed},
    s.calls i = some call → call.Holds seed → s.crawls.data.lookup seed = some i) ?_ ?_ h
  · intro _ i call seed hi
    cases hi
  · intro es e s s' hs ih hstep hseeds i call seed hi hholds
    have hold := fun {i call seed} => @ih hseeds.of_append i call seed
    obtain ⟨hi', hcrawls | ⟨j, event, old, new, hji, hj, ht⟩⟩ | ⟨seed', rfl, rfl⟩ |
      ⟨event, old, rfl, hi', ht⟩ := ProdCrawler.call_cases hstep hi
    · rw [hcrawls]
      exact hold hi' hholds
    · have hne : seed ≠ old.seed := by
        rintro rfl
        have hmem := ServerRun.crawl_mem hs hi'
        rw [hholds.seed_eq] at hmem
        exact hji (hseeds.of_append j i _ (ServerRun.crawl_mem hs hj) hmem)
      exact (ht.lookup_of_ne hne).trans (hold hi' hholds)
    · exact absurd hholds (Call.not_holds_begin seed' seed)
    · exact ht.lookup_of_holds (hold hi') hholds

/-! ### After a panic -/

/-- A panic leaves its call unwound for good. -/
lemma ServerRun.unwound_of_panic (h : ServerRun es s) {i : CallId} {locked : Bool}
    (hmem : .call i (.panic locked) ∈ es) :
    ∃ seed crawl, s.calls i = some (.unwound seed crawl) := by
  obtain ⟨fs, gs, rfl⟩ := List.append_of_mem hmem
  obtain ⟨t, -, hgs⟩ := exec_split h
  obtain ⟨u, hstep, hgs⟩ := exec_cons_eq_some.mp hgs
  obtain ⟨_, _, heq, -⟩ | ⟨j, event, call, call', crawls, heq, hj, hcall, rfl⟩ | ⟨heq, -⟩ :=
    ProdCrawler.step_cases hstep
  · cases heq
  · cases heq
    cases Call.trans_of_step hcall with
    | panic =>
        refine ⟨_, _, Call.Ended.persists ?_ (Function.update_self i _ t.calls) hgs⟩
        trivial
    | poisoned stage => obtain ⟨-, h⟩ | ⟨-, h⟩ := stage <;> cases h
  · cases heq

/-- **Where `status` recovers from panics**: with no two calls made with one
seed, `status` reports the live calls exactly if no step has panicked so far. -/
theorem status_recovers_iff (h : ServerRun es s) (hseeds : SeedsApart es)
    (hpoison : Unpoisoned es) : s.Reports ↔ Unpanicked es := by
  constructor
  · intro hreports i locked hmem
    -- the slot of the call is still there, so its seed is listed
    obtain ⟨seed, crawl, hi⟩ := h.unwound_of_panic hmem
    obtain ⟨ids, statuses, -, -, hstatus, hall⟩ := hreports
    have hkey : seed ∈ s.crawls.data.keys := by
      have hlookup := h.lookup_of_holds hseeds hi (Or.inr ⟨crawl, rfl⟩)
      rw [← AList.mem_keys, ← AList.lookup_isSome, hlookup]
      rfl
    rw [← h.seeds_eq_keys hstatus] at hkey
    obtain ⟨status, hmem', rfl⟩ := List.mem_map.mp hkey
    obtain ⟨j, -, call, hj, inner, rfl, -, -⟩ := exists_of_forall₂ hall hmem'
    have hij : i = j := hseeds i j status.seed (h.crawl_mem hi) (h.crawl_mem hj)
    subst hij
    cases hi.symm.trans hj
  · intro hpanic
    refine h.reports_of_lookup hpanic hpoison fun i seed hlive => ?_
    obtain ⟨inner, hi⟩ := hlive
    exact h.lookup_of_holds hseeds hi (Or.inl ⟨inner, rfl⟩)

/-- Two calls without a panic: `status` reports both. -/
theorem status_recovers_pair :
    ∃ s, ServerRun PlainUrl.pairEvents s ∧ s.Live 0 (PlainUrl.site "/") ∧
      s.Live 1 (PlainUrl.site "/a") ∧ s.Reports := by
  have hpoison : Unpoisoned PlainUrl.pairEvents := by
    intro i hmem
    simp [PlainUrl.pairEvents] at hmem
  refine ⟨_, rfl, ⟨_, rfl⟩, ⟨_, rfl⟩, ?_⟩
  refine (status_recovers_iff (rfl : ServerRun PlainUrl.pairEvents _)
    seedsApart_pairEvents hpoison).mpr ?_
  intro i locked hmem
  simp [PlainUrl.pairEvents] at hmem

/-- The events of two calls up to where the client panics on the start page of the
first. -/
def PlainUrl.panicEvents : List (ServerEvent PlainUrl) :=
  pairEvents.take 7 ++ [.call 0 (.panic false)]

lemma seedsApart_panicEvents : SeedsApart PlainUrl.panicEvents := by
  intro i j seed hi hj
  refine seedsApart_pairEvents i j seed (List.mem_of_mem_take (i := 7) ?_)
    (List.mem_of_mem_take (i := 7) ?_)
  · simpa [PlainUrl.panicEvents] using hi
  · simpa [PlainUrl.panicEvents] using hj

/-- The client panics in a step of the first call, and the call is gone: `status`
goes on to list it beside the second, which is the only one to run. -/
theorem status_lost_to_panic :
    ∃ s, ServerRun PlainUrl.panicEvents s ∧ SeedsApart PlainUrl.panicEvents ∧
      Unpoisoned PlainUrl.panicEvents ∧
      (∃ crawl, s.calls 0 = some (.unwound (PlainUrl.site "/") crawl)) ∧
      s.Live 1 (PlainUrl.site "/a") ∧
      (∃ statuses, s.status = .ok statuses ∧
        PlainUrl.site "/" ∈ statuses.map CrawlStatus.seed) ∧ ¬ s.Reports := by
  obtain ⟨s, hrun, ⟨crawl, hgone⟩, hlive, statuses, hstatus, hlisted⟩ : ∃ s,
      ServerRun PlainUrl.panicEvents s ∧
      (∃ crawl, s.calls 0 = some (.unwound (PlainUrl.site "/") crawl)) ∧
      s.Live 1 (PlainUrl.site "/a") ∧
      ∃ statuses, s.status = .ok statuses ∧
        PlainUrl.site "/" ∈ statuses.map CrawlStatus.seed :=
    ⟨_, rfl, ⟨_, rfl⟩, ⟨_, rfl⟩, _, rfl, by decide⟩
  refine ⟨s, hrun, seedsApart_panicEvents, ?_, ⟨crawl, hgone⟩, hlive,
    ⟨statuses, hstatus, hlisted⟩, ?_⟩
  · intro i hmem
    simp [PlainUrl.panicEvents, PlainUrl.pairEvents] at hmem
  · rintro ⟨ids, statuses', -, -, hok, hall⟩
    cases hstatus.symm.trans hok
    -- the only call with the listed seed is not live
    obtain ⟨status, hmem, hseed⟩ := List.mem_map.mp hlisted
    obtain ⟨j, -, call, hj, inner, rfl, -, -⟩ := exists_of_forall₂ hall hmem
    rw [hseed] at hj
    have hzero : 0 = j := seedsApart_panicEvents 0 j (PlainUrl.site "/")
      (hrun.crawl_mem hgone) (hrun.crawl_mem hj)
    subst hzero
    cases hgone.symm.trans hj

end MikesCrawler
