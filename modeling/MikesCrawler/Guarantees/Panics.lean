/-
The calls of a crawler and the panics of other calls.

* `ServerRun.holds_of_slot`, `ServerRun.slots_of_removed`: also after panics a
  slot belongs to a call that has registered its seed and not removed it;
* `ServerRun.own_step`: so what a call can do, and where that takes it, depends
  on the call alone;
* `panics_contained`: whatever the other calls do, panics included, a call runs
  as it does alone, can go on as it can alone, and unwraps its crawl with its own
  reference only.
-/
import MikesCrawler.Guarantees.Ghosts
import MikesCrawler.Guarantees.Isolation
import MikesCrawler.Guarantees.References

open Machine

namespace MikesCrawler

variable {Url : Type} [DecidableEq Url] [Externals Url]
variable {es fs : List (ServerEvent Url)} {s s' t : ProdCrawler Url}

/-! ### The slots of the registry -/

/-- What a transition of a call makes of the slot of a seed: it leaves it alone,
clears it, or takes it for the call, which then holds it. -/
lemma Call.Trans.slot_cases {i : CallId} {call call' : Call Url}
    {crawls crawls' : Mutex (Registry Url)} {event : CallEvent Url}
    (ht : Trans i call crawls event call' crawls') (hlock : crawls.poisoned = false) {seed : Url}
    {j : CallId} (hslot : crawls'.data.lookup seed = some j) :
    (j = i ∧ call'.Holds seed) ∨
      (crawls.data.lookup seed = some j ∧ (call.Holds seed → call'.Holds seed)) := by
  cases ht with
  | @register seed' inner =>
      by_cases hseed : seed = seed'
      · subst hseed
        rw [AList.lookup_insert] at hslot
        exact Or.inl ⟨(Option.some.inj hslot).symm, Or.inl ⟨inner, rfl⟩⟩
      · rw [AList.lookup_insert_ne hseed] at hslot
        refine Or.inr ⟨hslot, ?_⟩
        rintro (⟨_, h⟩ | ⟨_, h⟩) <;> cases h
  | @remove seed' inner =>
      by_cases hseed : seed = seed'
      · subst hseed
        rw [AList.lookup_erase] at hslot
        cases hslot
      · rw [AList.lookup_erase_ne hseed] at hslot
        refine Or.inr ⟨hslot, fun h => absurd h.seed_eq (Ne.symm hseed)⟩
  | @inner seed' _ inner' =>
      refine Or.inr ⟨hslot, ?_⟩
      rintro (⟨_, h⟩ | ⟨_, h⟩)
      · cases h
        exact Or.inl ⟨inner', rfl⟩
      · cases h
  | panic =>
      refine Or.inr ⟨hslot, ?_⟩
      rintro (⟨_, h⟩ | ⟨_, h⟩)
      · cases h
        exact Or.inr ⟨_, rfl⟩
      · cases h
  | robotsFailed | make | abort | fail | unwrap =>
      refine Or.inr ⟨hslot, ?_⟩
      rintro (⟨_, h⟩ | ⟨_, h⟩) <;> cases h
  | poisoned _ hp => cases hlock.symm.trans hp

/-- **Each slot of the registry belongs to a call that holds it**, also after
panics. -/
theorem ServerRun.holds_of_slot (h : ServerRun es s) {seed : Url} {i : CallId}
    (hslot : s.crawls.data.lookup seed = some i) :
    ∃ call, s.calls i = some call ∧ call.Holds seed := by
  revert seed i
  refine exec_trace_induction (P := fun _ s => ∀ {seed i}, s.crawls.data.lookup seed = some i →
    ∃ call, s.calls i = some call ∧ call.Holds seed) ?_ ?_ h
  · intro seed i hslot
    rw [AList.lookup_empty] at hslot
    cases hslot
  · intro es e s s' hs ih hstep seed i hslot
    obtain ⟨j, seed', -, hj, rfl⟩ | ⟨j, event, call, call', crawls, -, hj, hcall, rfl⟩ |
      ⟨-, rfl⟩ := ProdCrawler.step_cases hstep
    · obtain ⟨call, hi, hholds⟩ := ih hslot
      have hij : i ≠ j := by
        rintro rfl
        cases hj.symm.trans hi
      exact ⟨call, (Function.update_of_ne hij _ _).trans hi, hholds⟩
    · rcases (Call.trans_of_step hcall).slot_cases (ServerRun.unpoisoned hs) hslot with
        ⟨rfl, hholds⟩ | ⟨hslot', hkeep⟩
      · exact ⟨call', Function.update_self i _ _, hholds⟩
      · obtain ⟨old, hi, hholds⟩ := ih hslot'
        by_cases hij : i = j
        · subst hij
          cases hi.symm.trans hj
          exact ⟨call', Function.update_self i _ _, hkeep hholds⟩
        · exact ⟨old, (Function.update_of_ne hij _ _).trans hi, hholds⟩
    · exact ih hslot

/-- A call that has removed its seed holds no slot. -/
lemma ServerRun.slots_of_removed (h : ServerRun es s) {i : CallId} {seed : Url}
    {inner : CrawlInner Url} (hi : s.calls i = some (.removed seed inner)) :
    Call.slots i s.crawls.data = 0 := by
  rw [Call.slots, List.length_eq_zero_iff, List.filter_eq_nil_iff]
  intro slot hmem hslot
  have hid : slot.2 = i := of_decide_eq_true hslot
  obtain ⟨call, hcall, hholds⟩ := h.holds_of_slot (AList.mem_lookup_iff.mpr hmem)
  rw [hid, hi] at hcall
  cases hcall
  rcases hholds with ⟨_, hreg⟩ | ⟨_, hreg⟩ <;> cases hreg

/-! ### What a call can do -/

/-- What a call can do depends on the call alone: in any two states of crawlers
in which it is alike, the same events take it the same way. -/
lemma ServerRun.own_step (h : ServerRun es s) (h' : ServerRun fs t) {i : CallId}
    (hsame : t.calls i = s.calls i) {event : CallEvent Url}
    (hstep : s.step (.call i event) = some s') :
    ∃ t', t.step (.call i event) = some t' ∧ t'.calls i = s'.calls i ∧
      ∀ j, j ≠ i → t'.calls j = t.calls j := by
  obtain ⟨_, _, heq, -⟩ | ⟨j, event', call, call', crawls, heq, hi, hcall, rfl⟩ | ⟨heq, -⟩ :=
    ProdCrawler.step_cases hstep
  · cases heq
  · cases heq
    have hslots : (∃ seed inner, call = .removed seed inner) →
        Call.slots i s.crawls.data = Call.slots i t.crawls.data := by
      rintro ⟨seed, inner, rfl⟩
      rw [h.slots_of_removed hi, h'.slots_of_removed (hsame.trans hi)]
    obtain ⟨crawls', hcall'⟩ := Call.step_congr h.unpoisoned h'.unpoisoned hslots hcall
    refine ⟨_, ProdCrawler.step_call (hsame.trans hi) hcall', ?_, fun j hj => ?_⟩
    · exact (Function.update_self i _ _).trans (Function.update_self i _ s.calls).symm
    · exact Function.update_of_ne hj _ _
  · cases heq

/-- An event that is not of a call leaves the call as it is. -/
lemma ProdCrawler.other_step {e : ServerEvent Url} {i : CallId} (hother : e.of i = false)
    (hstep : s.step e = some s') : s'.calls i = s.calls i := by
  obtain ⟨j, _, rfl, -, rfl⟩ | ⟨j, _, _, _, _, rfl, -, -, rfl⟩ | ⟨-, rfl⟩ :=
    step_cases hstep
  · exact Function.update_of_ne (fun hij => of_decide_eq_false hother hij.symm) _ _
  · exact Function.update_of_ne (fun hij => of_decide_eq_false hother hij.symm) _ _
  · rfl

/-- The events of a call in any run form a run of that call alone, in which it
ends as it does among the others. -/
lemma ServerRun.projects (h : ServerRun es s) (i : CallId) :
    ∃ t, ServerRun (es.filter (ServerEvent.of i)) t ∧ t.calls i = s.calls i ∧
      ∀ j, j ≠ i → t.calls j = none := by
  refine exec_filter (ServerEvent.of i) (G := fun _ => True)
    (R := fun s t : ProdCrawler Url => t.calls i = s.calls i ∧ ∀ j, j ≠ i → t.calls j = none)
    ⟨rfl, fun _ _ => rfl⟩ ?_ ?_ h fun _ _ => trivial
  · rintro es s t e s' - - hs ht ⟨hsame, hothers⟩ hown hstep
    cases e with
    | crawl j seed =>
        cases (of_decide_eq_true hown : j = i)
        obtain ⟨_, _, heq, hi, rfl⟩ | ⟨_, _, _, _, _, heq, -⟩ | ⟨heq, -⟩ :=
          ProdCrawler.step_cases hstep
        · cases heq
          refine ⟨_, ProdCrawler.step_crawl (hsame.trans hi) seed, ?_, fun k hk => ?_⟩
          · exact (Function.update_self i _ _).trans (Function.update_self i _ s.calls).symm
          · exact (Function.update_of_ne hk _ _).trans (hothers k hk)
        · cases heq
        · cases heq
    | call j event =>
        cases (of_decide_eq_true hown : j = i)
        obtain ⟨t', hstep', hsame', hkeep⟩ := ServerRun.own_step hs ht hsame hstep
        exact ⟨t', hstep', hsame', fun k hk => (hkeep k hk).trans (hothers k hk)⟩
    | status => cases hown
  · rintro s t e s' ⟨hsame, hothers⟩ hother hstep
    exact ⟨hsame.trans (ProdCrawler.other_step hother hstep).symm, hothers⟩

/-- **Panics stay in their call.**  Whatever the other calls do, also if they
panic: the events of a call form a run of that call alone, which takes it to the
same state; there the same events are possible next, with the same outcome; and
a call that comes to unwrap its crawl holds the only reference to it. -/
theorem panics_contained (h : ServerRun es s) (i : CallId) :
    (∃ t, ServerRun (es.filter (ServerEvent.of i)) t ∧ t.calls i = s.calls i ∧
      (∀ j, j ≠ i → t.calls j = none) ∧
      ∀ event call, (∃ s', s.step (.call i event) = some s' ∧ s'.calls i = some call) ↔
        ∃ t', t.step (.call i event) = some t' ∧ t'.calls i = some call) ∧
    ∀ seed inner, s.calls i = some (.removed seed inner) →
      s.referencesTo i = [.crawl] ∧ s.strongCount i = 1 := by
  refine ⟨?_, fun seed inner hi => ?_⟩
  · obtain ⟨t, ht, hsame, hothers⟩ := h.projects i
    refine ⟨t, ht, hsame, hothers, fun event call => ⟨?_, ?_⟩⟩
    · rintro ⟨s', hstep, hcall⟩
      obtain ⟨t', hstep', hsame', -⟩ := h.own_step ht hsame hstep
      exact ⟨t', hstep', hsame'.trans hcall⟩
    · rintro ⟨t', hstep, hcall⟩
      obtain ⟨s', hstep', hsame', -⟩ := ht.own_step h hsame.symm hstep
      exact ⟨s', hstep', hsame'.trans hcall⟩
  · have href : s.referencesTo i = [.crawl] := by
      rw [ProdCrawler.referencesTo_of_slots_eq_zero (h.slots_of_removed hi), hi, Option.elim_some,
        h.held_removed hi]
    refine ⟨href, ?_⟩
    rw [h.strongCount_eq, href, List.length_singleton]

/-- A call runs as it does alone although another has panicked with the lock of
its crawl. -/
theorem panics_contained_pair :
    ∃ s t, ServerRun (PlainUrl.pairEvents ++ [ServerEvent.call 0 (.panic true)]) s ∧
      ServerRun ((PlainUrl.pairEvents ++ [ServerEvent.call 0 (.panic true)]).filter
        (ServerEvent.of 1)) t ∧
      t.calls 1 = s.calls 1 ∧ t.calls 0 = none := by
  obtain ⟨t, ht, hsame, hothers, -⟩ :=
    (panics_contained (rfl : ServerRun
      (PlainUrl.pairEvents ++ [ServerEvent.call 0 (.panic true)]) _) 1).1
  exact ⟨_, t, rfl, ht, hsame, hothers 0 (by decide)⟩

end MikesCrawler
