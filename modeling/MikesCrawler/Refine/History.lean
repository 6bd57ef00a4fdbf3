/-
What the events of a run say about the state it reaches.

* `Run.fetched_nodup`, `Run.answered_nodup`: a url is fetched at most once, and
  its fetch answered at most once;
* `Run.fetched_eq`, `Run.fetched_eq_of_stopped`: which urls a run has fetched,
  while the loop runs and after it has stopped;
* `Run.allowed`: whatever is queued, in flight or ever fetched is allowed by
  robots.txt;
* `Answered`, `Run.answered_of_visit`: the visits of a run are those that the
  answers of the client determine;
* `Run.seen_subset`, `Run.seen_eq_reach`: the urls seen are bounded by what the
  answers let a crawl find, and are all of that once the loop has stopped.
-/
import MikesCrawler.Refine.Accounting

open Machine

namespace MikesCrawler

variable {Url : Type} [DecidableEq Url] [Externals Url]
variable {robots : Option String} {seed : Url} {es : List (Event Url)} {s : CrawlInner Url}

/-! ### Fetches -/

/-- No url is fetched twice. -/
theorem Run.fetched_nodup (h : Run robots seed es s) : (fetched es).Nodup := by
  obtain ⟨ms, w, hms, hR⟩ := h.refines
  rw [← hR.started]
  exact Worklist.started_nodup (Allowed robots) hms

/-- While the loop runs, the urls fetched are those in flight and the allowed
ones with an entry. -/
theorem Run.fetched_eq (h : Run robots seed es s) (hrun : s.outcome = none) :
    (fetched es : Multiset Url)
      = s.unfinished + (s.crawl.data.result.pages.keys.filter (Allowed robots)).val := by
  obtain ⟨ms, w, hms, hR⟩ := h.refines
  rw [← hR.started, Worklist.started_eq (Allowed robots) hms, (hR.running hrun).2, hR.done]

/-- When the loop has stopped, the urls fetched are the allowed ones seen. -/
theorem Run.fetched_eq_of_stopped (h : Run robots seed es s) (hok : s.outcome = some (.ok ())) :
    (fetched es : Multiset Url) = (s.crawl.data.seen.filter (Allowed robots)).val := by
  obtain ⟨ms, w, hms, hR⟩ := h.refines
  rw [← hR.started, Worklist.started_eq (Allowed robots) hms, (hR.stopped hok).2, zero_add,
    hR.done, h.stopped hok]

/-- **robots.txt is respected**: what is queued, in flight or was ever fetched
is allowed. -/
theorem Run.allowed (h : Run robots seed es s) :
    (s.outcome = none → ∀ url, url ∈ s.crawl.data.todo.queue ∨ url ∈ s.unfinished →
      Allowed robots url) ∧ ∀ url ∈ fetched es, Allowed robots url := by
  obtain ⟨ms, w, hms, hR⟩ := h.refines
  have hok := Worklist.ok_of_mem (Allowed robots) hms
  refine ⟨fun hrun url hmem => hok url ?_, fun url hmem => ?_⟩
  · obtain ⟨hwaiting, hactive⟩ := hR.running hrun
    rw [hwaiting, hactive]
    exact hmem
  · rw [← hR.started, ← Multiset.mem_coe, Worklist.started_eq (Allowed robots) hms,
      Multiset.mem_add] at hmem
    rcases hmem with hmem | hmem
    · exact hok url (Or.inr hmem)
    · exact (Finset.mem_filter.mp hmem).2

/-! ### Answers -/

/-- The url whose fetch an event answers. -/
def Event.answered? : Event Url → Option Url
  | .got url _ => some url
  | _ => none

/-- The urls whose fetch was answered in a run, in order. -/
def answered (es : List (Event Url)) : List Url := es.filterMap Event.answered?

/-- The url of a step that waits for its answer. -/
def fetching? : Url × StepState → Option Url
  | (url, .fetching) => some url
  | (_, .parsing _) => none

/-- The urls whose steps wait for their answer. -/
def CrawlInner.fetching (s : CrawlInner Url) : List Url := s.inFlight.filterMap fetching?

omit [DecidableEq Url] [Externals Url] in
lemma filterMap_cons_toList {α β : Type*} (f : α → Option β) (a : α) (l : List α) :
    (a :: l).filterMap f = (f a).toList ++ l.filterMap f := by
  rw [List.filterMap_cons]
  cases f a <;> rfl

omit [Externals Url] in
/-- The steps that wait, one step in flight apart. -/
lemma CrawlInner.coe_fetching {s : CrawlInner Url} {url : Url} {state : StepState}
    (h : (url, state) ∈ s.inFlight) :
    (s.fetching : Multiset Url) = ((fetching? (url, state)).toList : Multiset Url)
      + ((s.inFlight.erase (url, state)).filterMap fetching? : Multiset Url) := by
  rw [Multiset.coe_add, ← filterMap_cons_toList, Multiset.coe_eq_coe]
  exact (List.perm_cons_erase h).filterMap fetching?

omit [DecidableEq Url] [Externals Url] in
lemma coe_answered_concat (es : List (Event Url)) (e : Event Url) :
    (answered (es ++ [e]) : Multiset Url)
      = (answered es : Multiset Url) + (e.answered?.toList : Multiset Url) := by
  rw [answered, List.filterMap_append, filterMap_cons_toList, List.filterMap_nil,
    List.append_nil, ← Multiset.coe_add]
  rfl

omit [DecidableEq Url] [Externals Url] in
/-- What ends a step answers its fetch if the step waited for that. -/
lemma Event.answered?_of_ends {event : Event Url} {step : Url × StepState}
    (h : event.ends = some step) : event.answered? = fetching? step := by
  match event with
  | .got _ (.ok (.html _)) | .start _ | .next | .poison => cases h
  | .got _ (.ok (.serverFailure _ _)) | .got _ (.ok (.redirect _ _))
  | .got _ (.ok (.otherContent _)) | .got _ (.error _) | .parsed _ _ _ =>
      cases h
      rfl

omit [DecidableEq Url] [Externals Url] in
lemma answered_concat_of_none {e : Event Url} (h : e.answered? = none) (es : List (Event Url)) :
    answered (es ++ [e]) = answered es := filterMap_concat_of_none h es

/-- What was answered and what waits for its answer was fetched. -/
lemma Run.answered_add_fetching_le (h : Run robots seed es s) :
    (answered es : Multiset Url) + (s.fetching : Multiset Url) ≤ (fetched es : Multiset Url) := by
  refine Run.induction (P := fun es s =>
    (answered es : Multiset Url) + (s.fetching : Multiset Url) ≤ (fetched es : Multiset Url))
    (le_refl 0) ?_ h
  intro es e s s' _ _ ih ht
  -- what ends a step takes its url from those that wait, if it was there
  have hends : ∀ {url state}, e.ends = some (url, state) → (url, state) ∈ s.inFlight →
      (answered (es ++ [e]) : Multiset Url)
        + ((s.inFlight.erase (url, state)).filterMap fetching? : Multiset Url)
        ≤ (fetched (es ++ [e]) : Multiset Url) := by
    intro url state he hmem
    rw [fetched_concat_of_none (Event.fetched?_of_ends he), coe_answered_concat,
      Event.answered?_of_ends he, add_assoc, ← CrawlInner.coe_fetching hmem]
    exact ih
  cases ht with
  | @start url =>
      rw [answered_concat_of_none rfl, CrawlInner.fetching, CrawlInner.started,
        List.filterMap_append, fetched, List.filterMap_append, ← Multiset.coe_add,
        ← Multiset.coe_add, ← add_assoc]
      exact add_le_add ih (le_refl _)
  | @suspend url body _ mem =>
      have hsusp : (s.suspended url body).fetching
          = (s.inFlight.erase (url, .fetching)).filterMap fetching? := by
        rw [CrawlInner.fetching, CrawlInner.suspended]
        exact filterMap_concat_of_none rfl _
      rw [CrawlInner.coe_fetching mem, ← add_assoc] at ih
      rw [fetched_concat_of_none rfl, coe_answered_concat, hsusp]
      exact ih
  | settle _ ends _ mem _ => exact hends ends mem
  | fail _ ends _ mem => exact hends ends mem
  | resume | poison =>
      rw [fetched_concat_of_none rfl, answered_concat_of_none rfl]
      exact ih
  | stop | abort =>
      rw [fetched_concat_of_none rfl, answered_concat_of_none rfl]
      exact (add_le_add_right (Multiset.zero_le _) _).trans ih

/-- No fetch is answered twice. -/
theorem Run.answered_nodup (h : Run robots seed es s) : (answered es).Nodup := by
  rw [← Multiset.coe_nodup]
  refine Multiset.nodup_of_le ?_ (Multiset.coe_nodup.mpr h.fetched_nodup)
  exact (Multiset.le_add_right _ _).trans h.answered_add_fetching_le

/-- A url has one answer. -/
lemma Run.got_unique (h : Run robots seed es s) {url : Url}
    {response response' : Except Error (HttpResponse Url)} (hmem : .got url response ∈ es)
    (hmem' : .got url response' ∈ es) : response' = response := by
  have hnodup := List.pairwise_filterMap.mp h.answered_nodup
  have hsymm : Std.Symm fun e e' : Event Url =>
      ∀ b, e.answered? = some b → ∀ b', e'.answered? = some b' → b ≠ b' :=
    ⟨fun e e' hne b hb b' hb' => (hne b' hb' b hb).symm⟩
  by_contra hne
  have hevents : (Event.got url response : Event Url) ≠ .got url response' := by
    intro heq
    cases heq
    exact hne rfl
  exact hnodup.forall hmem hmem' hevents url rfl url rfl rfl

/-- What was answered was fetched. -/
lemma Run.fetched_of_got (h : Run robots seed es s) {url : Url}
    {response : Except Error (HttpResponse Url)} (hmem : .got url response ∈ es) :
    url ∈ fetched es := by
  have hanswered : url ∈ (answered es : Multiset Url) + (s.fetching : Multiset Url) :=
    Multiset.mem_add.mpr (Or.inl (List.mem_filterMap.mpr ⟨_, hmem, rfl⟩))
  exact Multiset.mem_coe.mp (Multiset.mem_of_le h.answered_add_fetching_le hanswered)

/-- A lock is poisoned by an event. -/
lemma Run.poison_mem (h : Run robots seed es s) : s.crawl.poisoned = true → .poison ∈ es := by
  refine Run.induction (P := fun es s => s.crawl.poisoned = true → .poison ∈ es) ?_ ?_ h
  · intro hp
    rw [begin_crawl] at hp
    cases hp
  · intro es e s s' _ _ ih ht hp
    cases ht with
    | poison => simp
    | start | suspend | settle | fail | resume | stop | abort =>
        exact List.mem_append_left _ (ih hp)

/-- A lock that no event has poisoned is free of poison. -/
lemma Run.unpoisoned (h : Run robots seed es s) (hpoison : .poison ∉ es) :
    s.crawl.poisoned = false :=
  Bool.eq_false_iff.mpr fun hp => hpoison (h.poison_mem hp)

/-! ### Visits and answers -/

/-- A visit of a run: an answer of the client determines it. -/
def Answered (es : List (Event Url)) (url : Url) (v : Visit Url) : Prop :=
  ∃ response, .got url response ∈ es ∧ visitOf url response = some v

/-- A page that is being parsed is the answer of its fetch. -/
lemma Run.got_of_parsing (h : Run robots seed es s) :
    ∀ url body, (url, .parsing body) ∈ s.inFlight → .got url (.ok (.html body)) ∈ es := by
  refine Run.induction (P := fun es s =>
    ∀ url body, (url, .parsing body) ∈ s.inFlight → .got url (.ok (.html body)) ∈ es) ?_ ?_ h
  · intro url body hmem
    simp [CrawlInner.begin] at hmem
  · intro es e s s' _ _ ih ht url body hmem
    have hold : (url, .parsing body) ∈ s.inFlight → .got url (.ok (.html body)) ∈ es ++ [e] :=
      fun hmem => List.mem_append_left _ (ih url body hmem)
    cases ht with
    | start =>
        rcases List.mem_append.mp hmem with hmem | hmem
        · exact hold hmem
        · cases List.mem_singleton.mp hmem
    | suspend =>
        rcases List.mem_append.mp hmem with hmem | hmem
        · exact hold (List.mem_of_mem_erase hmem)
        · cases List.mem_singleton.mp hmem
          simp
    | settle | fail => exact hold (List.mem_of_mem_erase hmem)
    | resume | poison => exact hold hmem
    | stop | abort => simp [CrawlInner.returns] at hmem

/-- A page that was parsed is the answer of its fetch. -/
lemma Run.got_of_parsed (h : Run robots seed es s) {url : Url} {body : String}
    {joined : Except Error Unit} (hmem : .parsed url body joined ∈ es) :
    .got url (.ok (.html body)) ∈ es := by
  obtain ⟨fs, gs, rfl⟩ := List.append_of_mem hmem
  obtain ⟨t, ht, hrest⟩ := exec_split h
  obtain ⟨u, hu, -⟩ := exec_cons_eq_some.mp hrest
  rw [CrawlInner.step] at hu
  split at hu
  · next hc => exact List.mem_append_left _ (Run.got_of_parsing ht url body hc.2)
  · cases hu

/-- The visits that end the steps of a run are those its answers determine. -/
theorem Run.answered_of_visit (h : Run robots seed es s) {e : Event Url} (hmem : e ∈ es)
    {url : Url} {state : StepState} {v : Visit Url} (hends : e.ends = some (url, state))
    (hvisit : e.visit = some v) : Answered es url v := by
  match e with
  | .got _ (.ok (.html _)) | .start _ | .next | .poison => cases hends
  | .got url' (.ok (.serverFailure status msg)) | .got url' (.ok (.redirect status target))
  | .got url' (.ok (.otherContent contentType)) | .got url' (.error err) =>
      cases hends
      exact ⟨_, hmem, hvisit⟩
  | .parsed url' body (.error err) => cases hvisit
  | .parsed url' body (.ok ()) =>
      cases hends
      exact ⟨_, h.got_of_parsed hmem, hvisit⟩

/-- The worklist run of a crawl finds what the answers let it find. -/
lemma Run.explores (h : Run robots seed es s) :
    ∃ ms w, exec (Worklist.step (Allowed robots)) (Worklist.init (Allowed robots) seed) ms
      = some w ∧ Refines es s ms w ∧
      ∀ url found, .finish url found ∈ ms → ∃ v, Answered es url v ∧ v.found = found := by
  obtain ⟨ms, w, hms, hR⟩ := h.refines
  refine ⟨ms, w, hms, hR, fun url found hmem => ?_⟩
  obtain ⟨e, he, state, v, hends, hvisit, hfound⟩ := hR.finished url found hmem
  exact ⟨v, h.answered_of_visit he hends hvisit, hfound⟩

/-- A set with the seed that is closed under what the allowed urls in it find
has every url seen. -/
theorem Run.seen_subset {S : Set Url} (h : Run robots seed es s) (hseed : seed ∈ S)
    (hfound : ∀ url v, Answered es url v → url ∈ S → Allowed robots url →
      ∀ found ∈ v.found, found ∈ S) : ∀ url ∈ s.crawl.data.seen, url ∈ S := by
  obtain ⟨ms, w, hms, hR, hfinish⟩ := h.explores
  rw [← hR.seen]
  refine Worklist.seen_subset hseed hms fun url found hmem hurl hok b hb => ?_
  obtain ⟨v, hv, rfl⟩ := hfinish url found hmem
  exact hfound url v hv hurl hok b hb

/-- A url has one visit. -/
lemma Run.answered_unique (h : Run robots seed es s) {url : Url} {v v' : Visit Url}
    (hv : Answered es url v) (hv' : Answered es url v') : v' = v := by
  obtain ⟨response, hmem, hvisit⟩ := hv
  obtain ⟨response', hmem', hvisit'⟩ := hv'
  rw [h.got_unique hmem hmem'] at hvisit'
  exact Option.some.inj (hvisit'.symm.trans hvisit)

/-- What an allowed url with an entry has found was seen. -/
lemma Run.found_mem_seen (h : Run robots seed es s) {url found : Url} {v : Visit Url}
    (hkey : url ∈ s.crawl.data.result.pages.keys) (hallowed : Allowed robots url)
    (hv : Answered es url v) (hfound : found ∈ v.found) : found ∈ s.crawl.data.seen := by
  obtain ⟨ms, w, hms, hR, hfinish⟩ := h.explores
  rw [← hR.done] at hkey
  rw [← hR.seen]
  have hsucc : ∀ a finds, .finish a finds ∈ ms →
      ∀ b, (∃ v, Answered es a v ∧ b ∈ v.found) → b ∈ finds := by
    rintro a finds hmem b ⟨v', hv', hb⟩
    obtain ⟨v'', hv'', rfl⟩ := hfinish a finds hmem
    rw [← h.answered_unique hv'' hv']
    exact hb
  exact Worklist.succ_mem_seen hms hsucc url hkey hallowed found ⟨v, hv, hfound⟩

/-- What was fetched was seen. -/
lemma Run.fetched_mem_seen (h : Run robots seed es s) {url : Url} (hmem : url ∈ fetched es) :
    url ∈ s.crawl.data.seen := by
  obtain ⟨ms, w, hms, hR⟩ := h.refines
  rw [← hR.started, ← Multiset.mem_coe, Worklist.started_eq (Allowed robots) hms,
    Multiset.mem_add] at hmem
  rw [← hR.seen, Worklist.mem_seen]
  rcases hmem with hactive | hdone
  · exact Or.inr (Or.inr hactive)
  · exact Or.inl (Finset.mem_of_mem_filter url hdone)

/-- What a crawl that stopped saw is what can be reached, if the answers
determine what each url finds. -/
theorem Run.seen_eq_reach {succ : Url → Url → Prop} (h : Run robots seed es s)
    (hok : s.outcome = some (.ok ()))
    (hfound : ∀ url v, Answered es url v → ∀ b, b ∈ v.found ↔ succ url b) :
    ∀ url, url ∈ s.crawl.data.seen ↔ url ∈ Worklist.Reach (Allowed robots) succ seed := by
  obtain ⟨ms, w, hms, hR, hfinish⟩ := h.explores
  obtain ⟨hwaiting, hactive⟩ := hR.stopped hok
  rw [← hR.seen]
  refine Worklist.seen_eq_reach hms (fun url found hmem b => ?_) hwaiting hactive
  obtain ⟨v, hv, rfl⟩ := hfinish url found hmem
  exact hfound url v hv b

end MikesCrawler
