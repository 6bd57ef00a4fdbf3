/-
The registry of a crawler and its live calls.

* `ProdCrawler.Live`: a call has registered its seed and not removed it;
* `RegistryStep`, `ProdCrawler.registryStep`: what one event does to the
  registry and to the live calls;
* `Unpanicked`, `ServerRun.registry_induction`: the induction rule for runs in
  which no step panics;
* `ServerRun.slot_live`: then each slot of the registry belongs to a live call
  with its seed;
* `ServerRun.slotStatus_of_live`: the status of such a slot is that of its call.
-/
import MikesCrawler.Refine.Calls
import MikesCrawler.Refine.History

open Machine

namespace MikesCrawler

variable {Url : Type} [DecidableEq Url] [Externals Url]

/-! ### Live calls -/

/-- The call has registered its seed and not yet removed it. -/
def ProdCrawler.Live (s : ProdCrawler Url) (i : CallId) (seed : Url) : Prop :=
  ∃ inner, s.calls i = some (.registered seed inner)

omit [DecidableEq Url] [Externals Url] in
lemma ProdCrawler.Live.seed_eq {s : ProdCrawler Url} {i : CallId} {seed seed' : Url}
    (h : s.Live i seed) (h' : s.Live i seed') : seed = seed' := by
  obtain ⟨inner, hi⟩ := h
  obtain ⟨inner', hi'⟩ := h'
  cases hi.symm.trans hi'
  rfl

/-- The call is registered under a seed. -/
def Call.Registered (call : Call Url) (seed : Url) : Prop :=
  ∃ inner, call = .registered seed inner

omit [DecidableEq Url] [Externals Url] in
lemma ProdCrawler.live_iff {s : ProdCrawler Url} {i : CallId} {call : Call Url}
    (h : s.calls i = some call) (seed : Url) : s.Live i seed ↔ call.Registered seed := by
  rw [ProdCrawler.Live, h, Call.Registered]
  simp only [Option.some.injEq]

/-- What a transition of a call does to the registry, if no step panics and the
registry's lock is free of poison. -/
lemma Call.Trans.registry_cases {i : CallId} {call call' : Call Url}
    {crawls crawls' : Mutex (Registry Url)} {event : CallEvent Url}
    (ht : Trans i call crawls event call' crawls') (hlock : crawls.poisoned = false)
    (hpanic : ∀ locked, event ≠ .panic locked) :
    (crawls' = crawls ∧ ∀ seed, call'.Registered seed ↔ call.Registered seed) ∨
    (∃ seed, (∀ seed', ¬ call.Registered seed') ∧ (∀ seed', call'.Registered seed' ↔ seed' = seed) ∧
      crawls' = { crawls with data := crawls.data.insert seed i }) ∨
    (∃ seed, call.Registered seed ∧ (∀ seed', ¬ call'.Registered seed') ∧
      crawls' = { crawls with data := crawls.data.erase seed }) := by
  cases ht with
  | robotsFailed | make | abort | fail | unwrap =>
      refine Or.inl ⟨rfl, fun seed => ⟨?_, ?_⟩⟩
      · rintro ⟨inner, h⟩
        cases h
      · rintro ⟨inner, h⟩
        cases h
  | @register seed inner =>
      refine Or.inr (Or.inl ⟨seed, ?_, fun seed' => ⟨?_, ?_⟩, rfl⟩)
      · rintro seed' ⟨inner, h⟩
        cases h
      · rintro ⟨inner, h⟩
        cases h
        rfl
      · rintro rfl
        exact ⟨inner, rfl⟩
  | @inner seed inner inner' =>
      refine Or.inl ⟨rfl, fun seed' => ⟨?_, ?_⟩⟩
      · rintro ⟨_, h⟩
        cases h
        exact ⟨inner, rfl⟩
      · rintro ⟨_, h⟩
        cases h
        exact ⟨inner', rfl⟩
  | panic => exact absurd rfl (hpanic _)
  | @remove seed inner =>
      refine Or.inr (Or.inr ⟨seed, ⟨inner, rfl⟩, ?_, rfl⟩)
      rintro seed' ⟨_, h⟩
      cases h
  | poisoned _ hp => cases hlock.symm.trans hp

/-- What one event can do to the registry and to the live calls: nothing, or a
call becomes live and takes the slot of its seed, or a live call ends and clears
the slot of its seed. -/
inductive RegistryStep (s s' : ProdCrawler Url) : Prop
  | keep (crawls : s'.crawls = s.crawls) (live : ∀ j seed, s'.Live j seed ↔ s.Live j seed)
  | insert {i : CallId} {seed : Url} (fresh : ∀ seed', ¬ s.Live i seed')
      (crawls : s'.crawls = { s.crawls with data := s.crawls.data.insert seed i })
      (live : ∀ j seed', s'.Live j seed' ↔ (j = i ∧ seed' = seed) ∨ s.Live j seed')
  | erase {i : CallId} {seed : Url} (ending : s.Live i seed)
      (crawls : s'.crawls = { s.crawls with data := s.crawls.data.erase seed })
      (live : ∀ j seed', s'.Live j seed' ↔ j ≠ i ∧ s.Live j seed')

/-- An event without a panic makes such a step. -/
lemma ProdCrawler.registryStep {s s' : ProdCrawler Url} {e : ServerEvent Url}
    (h : s.step e = some s') (hlock : s.crawls.poisoned = false)
    (hpanic : ∀ i locked, e ≠ .call i (.panic locked)) : RegistryStep s s' := by
  have hother : ∀ {i j : CallId} {call : Call Url} {crawls : Mutex (Registry Url)}, j ≠ i →
      ∀ seed, ProdCrawler.Live { crawls, calls := Function.update s.calls i (some call) } j seed ↔
        s.Live j seed := by
    intro i j call crawls hij seed
    simp only [ProdCrawler.Live, Function.update_of_ne hij]
  obtain ⟨i, seed, rfl, hi, rfl⟩ | ⟨i, event, call, call', crawls, rfl, hi, hcall, rfl⟩ |
    ⟨rfl, rfl⟩ := step_cases h
  · refine .keep rfl fun j seed' => ?_
    by_cases hij : j = i
    · subst hij
      rw [live_iff (Function.update_self _ _ _), ProdCrawler.Live, hi]
      constructor
      · rintro ⟨inner, hbegin⟩
        rw [Call.begin] at hbegin
        split at hbegin <;> cases hbegin
      · rintro ⟨inner, hnone⟩
        cases hnone
    · exact hother hij seed'
  · have hself : ∀ seed', ProdCrawler.Live
        { crawls, calls := Function.update s.calls i (some call') } i seed' ↔
          call'.Registered seed' := fun seed' => live_iff (Function.update_self _ _ _) seed'
    have hne : ∀ locked, event ≠ .panic locked := fun locked he => hpanic i locked (he ▸ rfl)
    obtain ⟨rfl, hsame⟩ | ⟨seed, hnot, hnew, rfl⟩ | ⟨seed, hreg, hnot, rfl⟩ :=
      (Call.trans_of_step hcall).registry_cases hlock hne
    · refine .keep rfl fun j seed' => ?_
      by_cases hij : j = i
      · subst hij
        rw [hself, hsame, live_iff hi]
      · exact hother hij seed'
    · refine .insert (fun seed' hl => hnot seed' ((live_iff hi seed').mp hl)) rfl
        fun j seed' => ?_
      by_cases hij : j = i
      · subst hij
        rw [hself, hnew, live_iff hi]
        exact ⟨fun h => Or.inl ⟨rfl, h⟩, fun h => h.elim And.right fun h => absurd h (hnot seed')⟩
      · rw [hother hij seed']
        exact ⟨Or.inr, fun h => h.resolve_left fun h => hij h.1⟩
    · refine .erase ((live_iff hi seed).mpr hreg) rfl fun j seed' => ?_
      by_cases hij : j = i
      · subst hij
        rw [hself]
        exact ⟨fun h => absurd h (hnot seed'), fun h => absurd rfl h.1⟩
      · rw [hother hij seed']
        exact ⟨fun h => ⟨hij, h⟩, And.right⟩
  · exact .keep rfl fun _ _ => Iff.rfl

/-! ### Runs without panics -/

/-- Nothing poisons the lock of the registry. -/
lemma ServerRun.unpoisoned {es : List (ServerEvent Url)} {s : ProdCrawler Url}
    (h : ServerRun es s) : s.crawls.poisoned = false := by
  refine exec_invariant (P := fun s => s.crawls.poisoned = false) ?_ rfl h
  intro s e s' hs hstep
  obtain ⟨i, seed, -, -, rfl⟩ | ⟨i, event, call, call', crawls, -, -, hcall, rfl⟩ | ⟨-, rfl⟩ :=
    ProdCrawler.step_cases hstep
  · exact hs
  · cases Call.trans_of_step hcall <;> exact hs
  · exact hs

/-- No step of the run panics. -/
def Unpanicked (es : List (ServerEvent Url)) : Prop := ∀ i locked, .call i (.panic locked) ∉ es

/-- **The induction rule for runs without panics**: what holds at the start and
is kept by every step of the registry holds of every run. -/
theorem ServerRun.registry_induction {P : List (ServerEvent Url) → ProdCrawler Url → Prop}
    (start : P [] {})
    (next : ∀ es e s s', ServerRun es s → ServerRun (es ++ [e]) s' → P es s → RegistryStep s s' →
      P (es ++ [e]) s')
    {es : List (ServerEvent Url)} {s : ProdCrawler Url} (h : ServerRun es s)
    (hpanic : Unpanicked es) : P es s := by
  refine exec_trace_induction (P := fun es s => Unpanicked es → P es s) (fun _ => start) ?_ h hpanic
  intro es e s s' hes ih hstep hpanic
  have hrun' : ServerRun (es ++ [e]) s' := exec_concat_eq_some.mpr ⟨s, hes, hstep⟩
  refine next es e s s' hes hrun' (ih fun i locked hmem => ?_)
    (ProdCrawler.registryStep hstep (ServerRun.unpoisoned hes) fun i locked he => ?_)
  · exact hpanic i locked (List.mem_append_left _ hmem)
  · exact hpanic i locked (List.mem_append_right _ (List.mem_singleton.mpr he.symm))

/-- **Each slot of the registry belongs to a live call** with its seed. -/
theorem ServerRun.slot_live {es : List (ServerEvent Url)} {s : ProdCrawler Url}
    (h : ServerRun es s) (hpanic : Unpanicked es) {seed : Url} {i : CallId}
    (hslot : s.crawls.data.lookup seed = some i) : s.Live i seed := by
  revert seed i
  refine h.registry_induction (P := fun _ s => ∀ {seed i}, s.crawls.data.lookup seed = some i →
    s.Live i seed) ?_ ?_ hpanic
  · intro seed i hslot
    rw [AList.lookup_empty] at hslot
    cases hslot
  · intro es e s s' _ _ ih hstep seed i hslot
    cases hstep with
    | keep crawls live =>
        rw [crawls] at hslot
        exact (live i seed).mpr (ih hslot)
    | @insert j seed' fresh crawls live =>
        rw [crawls] at hslot
        rw [live]
        by_cases hseed : seed = seed'
        · subst hseed
          rw [AList.lookup_insert] at hslot
          exact Or.inl ⟨(Option.some.inj hslot).symm, rfl⟩
        · rw [AList.lookup_insert_ne hseed] at hslot
          exact Or.inr (ih hslot)
    | @erase j seed' ending crawls live =>
        rw [crawls] at hslot
        rw [live]
        by_cases hseed : seed = seed'
        · subst hseed
          rw [AList.lookup_erase] at hslot
          cases hslot
        · rw [AList.lookup_erase_ne hseed] at hslot
          refine ⟨fun hij => ?_, ih hslot⟩
          subst hij
          exact hseed ((ih hslot).seed_eq ending)

/-- A call that is not live holds no slot. -/
lemma ServerRun.slots_eq_zero {es : List (ServerEvent Url)} {s : ProdCrawler Url}
    (h : ServerRun es s) (hpanic : Unpanicked es) {i : CallId}
    (hdead : ∀ seed, ¬ s.Live i seed) : Call.slots i s.crawls.data = 0 := by
  rw [Call.slots, List.length_eq_zero_iff, List.filter_eq_nil_iff]
  intro slot hmem hslot
  have hi : slot.2 = i := of_decide_eq_true hslot
  exact hdead slot.1 (hi ▸ h.slot_live hpanic (AList.mem_lookup_iff.mpr hmem))

/-- A call that has removed its seed holds no slot. -/
lemma ServerRun.slots_removed {es : List (ServerEvent Url)} {s : ProdCrawler Url}
    (h : ServerRun es s) (hpanic : Unpanicked es) {i : CallId} {seed : Url}
    {inner : CrawlInner Url} (hi : s.calls i = some (.removed seed inner)) :
    Call.slots i s.crawls.data = 0 := by
  refine h.slots_eq_zero hpanic ?_
  rintro seed' ⟨inner', hi'⟩
  cases hi.symm.trans hi'

/-! ### The status of a live call -/

/-- No thread panics with a crawl's lock. -/
def Unpoisoned (es : List (ServerEvent Url)) : Prop := ∀ i, .call i (.inner .poison) ∉ es

/-- The status of a slot that holds a live call: the call's own seed and
counts. -/
theorem ServerRun.slotStatus_of_live {es : List (ServerEvent Url)} {s : ProdCrawler Url}
    (h : ServerRun es s) (hpoison : Unpoisoned es) {i : CallId} {seed : Url}
    {inner : CrawlInner Url} (hi : s.calls i = some (.registered seed inner)) :
    s.slotStatus ⟨seed, i⟩ = .ok
      { seed
        done := inner.crawl.data.result.pages.keys.card
        todo := inner.crawl.data.seen.card - inner.crawl.data.result.pages.keys.card } := by
  obtain ⟨robots, -, hrun⟩ := (h.follows i).2 _ hi
  have hlock : inner.crawl.poisoned = false :=
    hrun.unpoisoned fun hmem => hpoison i (mem_innerEvents.mp hmem)
  have hcard := Finset.card_le_card hrun.keys_subset_seen
  rw [ProdCrawler.slotStatus, hi]
  simp only [Option.bind_some, Call.crawl?, lockMapErr, hlock, Bool.false_eq_true, if_false,
    Crawl.status]
  rw [if_neg (by omega)]

end MikesCrawler
