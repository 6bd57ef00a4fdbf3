/-
The strong references to the crawl of a call, one by one.

* `Reference`, `CrawlInner.held`, `Call.held`, `ProdCrawler.referencesTo`: what
  refers to a crawl;
* `ServerRun.removed`: a loop that has returned has left no step behind;
* `ServerRun.strongCount_eq`: the count of an `Arc` is that of the references
  to it;
* `result_handed_out`: without panics a call whose loop has stopped unwraps its
  crawl with its own reference only, and hands out the result.
-/
import MikesCrawler.Refine.Registry
import MikesCrawler.Guarantees.Fetches

open Machine

namespace MikesCrawler

variable {Url : Type} [DecidableEq Url] [Externals Url]
variable {es : List (ServerEvent Url)} {s : ProdCrawler Url}

/-! ### References -/

/-- A strong reference to the crawl of a call. -/
inductive Reference (Url : Type) where
  /-- The local variable of `crawl`. -/
  | crawl
  /-- The argument of `crawl_inner`. -/
  | crawlInner
  /-- The argument of a step that was started and has neither completed nor been
  dropped. -/
  | step (url : Url) (state : StepState)
  /-- A slot of the registry. -/
  | slot (seed : Url)
  deriving DecidableEq

/-- The references that `crawl_inner` and its steps hold. -/
def CrawlInner.held (inner : CrawlInner Url) : List (Reference Url) :=
  (if inner.outcome = none then [.crawlInner] else []) ++
    inner.inFlight.map fun (url, state) => .step url state

/-- The references that a call holds to its crawl. -/
def Call.held : Call Url → List (Reference Url)
  | .made _ _ => [.crawl]
  | .registered _ inner | .removed _ inner => .crawl :: inner.held
  | .fetchingRobots _ _ | .returned _ _ _ | .unwound _ _ | .unmade _ => []

/-- All references to the crawl of a call, with the slots of the registry that
hold it. -/
def ProdCrawler.referencesTo (s : ProdCrawler Url) (i : CallId) : List (Reference Url) :=
  (s.calls i).elim [] Call.held ++
    (s.crawls.data.entries.filter fun slot => slot.2 = i).map fun slot => .slot slot.1

omit [DecidableEq Url] [Externals Url] in
lemma CrawlInner.length_held (inner : CrawlInner Url) :
    inner.held.length = (if inner.outcome = none then 1 else 0) + inner.inFlight.length := by
  rw [held, List.length_append, List.length_map]
  split <;> rfl

omit [DecidableEq Url] [Externals Url] in
/-- The slots that hold the crawl of a call, as references. -/
lemma ProdCrawler.referencesTo_of_slots_eq_zero {i : CallId}
    (h : Call.slots i s.crawls.data = 0) : s.referencesTo i = (s.calls i).elim [] Call.held := by
  rw [Call.slots, List.length_eq_zero_iff] at h
  rw [referencesTo, h, List.map_nil, List.append_nil]

/-! ### What is left of a loop -/

/-- A call that has removed its seed is past its loop, which has left no step
behind. -/
lemma ServerRun.removed (h : ServerRun es s) {i : CallId} {seed : Url} {inner : CrawlInner Url}
    (hi : s.calls i = some (.removed seed inner)) :
    inner.outcome ≠ none ∧ inner.inFlight = [] := by
  obtain ⟨⟨robots, -, hrun⟩, hended⟩ := (h.follows i).2 _ hi
  exact ⟨hended, (hrun.drained hended).2⟩

/-- A call that has removed its seed holds its own reference only. -/
lemma ServerRun.held_removed (h : ServerRun es s) {i : CallId} {seed : Url}
    {inner : CrawlInner Url} (hi : s.calls i = some (.removed seed inner)) :
    (Call.removed seed inner).held = [.crawl] := by
  obtain ⟨hended, hflight⟩ := h.removed hi
  rw [Call.held, CrawlInner.held, if_neg hended, hflight]
  rfl

lemma ServerRun.references_eq (h : ServerRun es s) {i : CallId} {call : Call Url}
    (hi : s.calls i = some call) : call.references = call.held.length := by
  cases call with
  | registered seed inner =>
      rw [Call.references, Call.held, List.length_cons, CrawlInner.length_held]
      omega
  | removed seed inner =>
      rw [h.held_removed hi]
      rfl
  | fetchingRobots | made | returned | unwound | unmade => rfl

/-- **The count of an `Arc` is that of the references to it.** -/
theorem ServerRun.strongCount_eq (h : ServerRun es s) (i : CallId) :
    s.strongCount i = (s.referencesTo i).length := by
  rw [ProdCrawler.strongCount, ProdCrawler.referencesTo, List.length_append, List.length_map,
    Call.slots]
  cases hi : s.calls i with
  | none => rfl
  | some call => rw [Option.elim_some, Option.elim_some, h.references_eq hi]

/-! ### Unwrapping -/

/-- **A finished crawl can always hand out its result**: without panics, when a
call whose loop has stopped comes to unwrap its crawl, its own reference is the
only one; it unwraps with a count of one, and returns the result of its crawl if
the crawl's lock was not poisoned. -/
theorem result_handed_out (h : ServerRun es s) (hpanic : Unpanicked es) :
    (∀ i, s.strongCount i = (s.referencesTo i).length) ∧
    ∀ i seed inner, s.calls i = some (.removed seed inner) → inner.outcome = some (.ok ()) →
      s.referencesTo i = [.crawl] ∧ s.strongCount i = 1 ∧
      ∃ s', s.step (.call i .finish) = some s' ∧
        s'.calls i = some (.returned seed (some inner.crawl) (Call.unwrap inner 1)) ∧
        (.call i (.inner .poison) ∉ es → Call.unwrap inner 1 = .ok inner.crawl.data.result) := by
  refine ⟨h.strongCount_eq, fun i seed inner hi hok => ?_⟩
  have hslots : Call.slots i s.crawls.data = 0 := h.slots_removed hpanic hi
  have href : s.referencesTo i = [.crawl] := by
    rw [ProdCrawler.referencesTo_of_slots_eq_zero hslots, hi, Option.elim_some, h.held_removed hi]
  have hcount : s.strongCount i = 1 := by
    rw [h.strongCount_eq, href, List.length_singleton]
  refine ⟨href, hcount, ?_⟩
  have hstep : (Call.removed seed inner).step i s.crawls .finish = some
      (.returned seed (some inner.crawl) (Call.unwrap inner 1), s.crawls) := by
    rw [ProdCrawler.strongCount, hi, Option.elim_some] at hcount
    simp only [Call.step, hok, hcount]
  refine ⟨_, ProdCrawler.step_call hi hstep, Function.update_self i _ s.calls, fun hpoison => ?_⟩
  obtain ⟨⟨robots, -, hrun⟩, -⟩ := (h.follows i).2 _ hi
  have hlock : inner.crawl.poisoned = false :=
    hrun.unpoisoned fun hmem => hpoison (mem_innerEvents.mp hmem)
  simp [Call.unwrap, lockMapErr, hlock]

/-- A call hands out its result although another with its seed, whose crawl has
taken its slot, runs on. -/
theorem result_handed_out_twin :
    ∃ s seed inner s', ServerRun (PlainUrl.twinEvents.take 14) s ∧
      s.calls 0 = some (.removed seed inner) ∧ s.referencesTo 0 = [.crawl] ∧
      s.step (.call 0 .finish) = some s' ∧
      s'.calls 0 = some (.returned seed (some inner.crawl) (.ok inner.crawl.data.result)) := by
  have hpanic : Unpanicked (PlainUrl.twinEvents.take 14) := by
    intro i locked hmem
    simp [PlainUrl.twinEvents, PlainUrl.events] at hmem
  have hpoison : .call 0 (.inner .poison) ∉ PlainUrl.twinEvents.take 14 := by decide
  obtain ⟨href, -, s', hstep, hcall, hresult⟩ :=
    (result_handed_out (rfl : ServerRun (PlainUrl.twinEvents.take 14) _) hpanic).2 0 _ _ rfl rfl
  rw [hresult hpoison] at hcall
  exact ⟨_, _, _, s', rfl, rfl, href, hstep, hcall⟩

end MikesCrawler
