/-
What `status` can answer, in any state of a crawler, and how its answers
change.

* `ServerRun.crawl_run`: the crawl of a call, also of one that has ended, has
  the data of a run of its loop;
* `status_faults`: so `status` never panics, neither on its subtraction nor on a
  dangling reference, and fails exactly if a crawl in the registry is poisoned;
* `Grows`, `ServerRun.grows`: what a crawl has seen and recorded stays, whatever
  happens to its call;
* `status_progresses`: so the counts that `status` gives of a crawl never go
  down, and a crawl it fails for once it fails for ever after.
-/
import MikesCrawler.Guarantees.Order
import MikesCrawler.Guarantees.Panics

open Machine

namespace MikesCrawler

variable {Url : Type} [DecidableEq Url] [Externals Url]
variable {es fs : List (ServerEvent Url)} {s t : ProdCrawler Url}

/-! ### The crawls of the calls -/

/-- The data of a crawl is that of a run of its loop. -/
def Mutex.OfRun (seed : Url) (lock : Mutex (Crawl Url)) : Prop :=
  ∃ robots es inner, Run robots seed es inner ∧ inner.crawl.data = lock.data

lemma Call.Loops.ofRun {es : List (CallEvent Url)} {seed : Url} {inner : CrawlInner Url}
    (h : Loops es seed inner) (poisoned : Bool) :
    Mutex.OfRun seed { inner.crawl with poisoned } := by
  obtain ⟨robots, -, hrun⟩ := h
  exact ⟨robots, _, inner, hrun, rfl⟩

/-- A transition of a call that follows its events leaves a crawl of a run. -/
lemma Call.Trans.ofRun {i : CallId} {es : List (CallEvent Url)} {call call' : Call Url}
    {crawls crawls' : Mutex (Registry Url)} {event : CallEvent Url}
    (ht : Trans i call crawls event call' crawls') (h : call.Follows es) {lock : Mutex (Crawl Url)}
    (hcrawl : call'.crawl? = some lock) : Mutex.OfRun call'.seed lock := by
  cases ht with
  | robotsFailed | abort => cases hcrawl
  | @make seed _ _ robots =>
      cases hcrawl
      exact ⟨robots, [], _, rfl, rfl⟩
  | register =>
      cases hcrawl
      exact h.ofRun _
  | @inner seed inner inner' _ e next =>
      cases hcrawl
      obtain ⟨robots, -, hrun⟩ := h
      exact ⟨robots, _, inner', exec_concat_eq_some.mpr ⟨inner, hrun, next⟩, rfl⟩
  | panic =>
      cases hcrawl
      exact h.ofRun _
  | remove =>
      cases hcrawl
      exact h.ofRun _
  | poisoned stage =>
      cases hcrawl
      obtain ⟨rfl, -⟩ | ⟨rfl, -⟩ := stage
      · exact h.ofRun _
      · exact h.ofRun _
  | fail | unwrap =>
      cases hcrawl
      exact h.1.ofRun _

/-- **The crawl of a call has the data of a run of its loop**, also when the
call has ended. -/
theorem ServerRun.crawl_run (h : ServerRun es s) {i : CallId} {call : Call Url}
    {lock : Mutex (Crawl Url)} (hi : s.calls i = some call) (hcrawl : call.crawl? = some lock) :
    Mutex.OfRun call.seed lock := by
  refine h.call_induction (P := fun _ call => ∀ {lock}, call.crawl? = some lock →
    Mutex.OfRun call.seed lock) ?_ ?_ hi hcrawl
  · intro seed lock hcrawl
    rw [Call.begin] at hcrawl
    split at hcrawl <;> cases hcrawl
  · rintro es s call event call' crawls hs hi ih hstep lock hcrawl
    exact (Call.trans_of_step hstep).ofRun ((hs.follows i).2 call hi) hcrawl

/-! ### How `status` can fail -/

/-- The status of a crawl of a run. -/
lemma Mutex.OfRun.status_eq {seed : Url} {lock : Mutex (Crawl Url)} (h : OfRun seed lock)
    (seed' : Url) : lock.data.status seed' = .ok
      { seed := seed'
        done := lock.data.result.pages.keys.card
        todo := lock.data.seen.card - lock.data.result.pages.keys.card } := by
  obtain ⟨robots, es, inner, hrun, hdata⟩ := h
  have hcard := Finset.card_le_card hrun.keys_subset_seen
  rw [hdata] at hcard
  rw [Crawl.status, if_neg (by omega)]

/-- The crawl that a slot of the registry holds. -/
def ProdCrawler.slotCrawl (s : ProdCrawler Url) (slot : (_ : Url) × CallId) :
    Option (Mutex (Crawl Url)) := (s.calls slot.2).bind Call.crawl?

/-- What `status` makes of a slot: the counts of its crawl, or an error if the
crawl is poisoned. -/
lemma ServerRun.slotStatus_cases (h : ServerRun es s) {slot : (_ : Url) × CallId}
    (hslot : slot ∈ s.crawls.data.entries) :
    ∃ lock, s.slotCrawl slot = some lock ∧ s.slotStatus slot =
      if lock.poisoned then .error (.err ⟨"poisoned lock: another task failed inside"⟩)
      else .ok { seed := slot.1
                 done := lock.data.result.pages.keys.card
                 todo := lock.data.seen.card - lock.data.result.pages.keys.card } := by
  obtain ⟨call, hi, hholds⟩ := h.holds_of_slot (AList.mem_lookup_iff.mpr hslot)
  have hcrawl : ∃ lock, call.crawl? = some lock := by
    obtain ⟨inner, rfl⟩ | ⟨crawl, rfl⟩ := hholds
    · exact ⟨_, rfl⟩
    · exact ⟨_, rfl⟩
  obtain ⟨lock, hlock⟩ := hcrawl
  refine ⟨lock, by rw [ProdCrawler.slotCrawl, hi, Option.bind_some, hlock], ?_⟩
  rw [ProdCrawler.slotStatus, hi, Option.bind_some, hlock]
  by_cases hp : lock.poisoned = true
  · simp only [lockMapErr, hp, if_true]
  · simp only [lockMapErr, hp, Bool.false_eq_true, if_false]
    exact (h.crawl_run hi hlock).status_eq slot.1

/-- Collecting fails with the one error there is. -/
lemma mapM_eq_error {α β ε : Type} {f : α → Except ε β} {e : ε} {l : List α}
    (h : ∀ a ∈ l, f a = .error e ∨ ∃ b, f a = .ok b) (hbad : ∃ a ∈ l, f a = .error e) :
    l.mapM f = .error e := by
  induction l with
  | nil =>
      obtain ⟨a, hmem, -⟩ := hbad
      cases hmem
  | cons a l ih =>
      rw [List.mapM_cons]
      rcases h a List.mem_cons_self with ha | ⟨b, hb⟩
      · simp [ha, bind, Except.bind]
      · have hrest : ∃ a ∈ l, f a = .error e := by
          obtain ⟨a', hmem, ha'⟩ := hbad
          rcases List.mem_cons.mp hmem with rfl | hmem
          · cases hb.symm.trans ha'
          · exact ⟨a', hmem, ha'⟩
        simp [hb, ih (fun a' ha' => h a' (List.mem_cons_of_mem a ha')) hrest, bind, Except.bind]

/-- The counts of a crawl, as `status` gives them for its seed. -/
def Mutex.counts (seed : Url) (lock : Mutex (Crawl Url)) : CrawlStatus Url where
  seed := seed
  done := lock.data.result.pages.keys.card
  todo := lock.data.seen.card - lock.data.result.pages.keys.card

/-- A crawl in the registry is poisoned. -/
def ProdCrawler.Poisoned (s : ProdCrawler Url) : Prop :=
  ∃ slot ∈ s.crawls.data.entries, ∃ lock, s.slotCrawl slot = some lock ∧ lock.poisoned = true

lemma ServerRun.status_of_poisoned (h : ServerRun es s) (hp : s.Poisoned) :
    s.status = .error (.err ⟨"poisoned lock: another task failed inside"⟩) := by
  obtain ⟨slot, hslot, lock, hcrawl, hp⟩ := hp
  rw [ProdCrawler.status]
  simp only [lockMapErr, h.unpoisoned, Bool.false_eq_true, if_false]
  refine mapM_eq_error (fun slot' hslot' => ?_) ⟨slot, hslot, ?_⟩
  · obtain ⟨lock', -, heq⟩ := h.slotStatus_cases hslot'
    rw [heq]
    by_cases hp' : lock'.poisoned = true
    · exact Or.inl (if_pos hp')
    · exact Or.inr ⟨_, if_neg hp'⟩
  · obtain ⟨lock', hcrawl', heq⟩ := h.slotStatus_cases hslot
    cases hcrawl.symm.trans hcrawl'
    rw [heq, if_pos hp]

/-- The counts of the crawl of a slot add up. -/
lemma ServerRun.counts_add (h : ServerRun es s) {slot : (_ : Url) × CallId}
    {lock : Mutex (Crawl Url)} (hcrawl : s.slotCrawl slot = some lock) (seed : Url) :
    (lock.counts seed).done + (lock.counts seed).todo = lock.data.seen.card := by
  obtain ⟨call, hi, hlock⟩ := Option.bind_eq_some_iff.mp hcrawl
  obtain ⟨robots, es', inner, hrun, hdata⟩ := h.crawl_run hi hlock
  have hcard := Finset.card_le_card hrun.keys_subset_seen
  rw [hdata] at hcard
  show lock.data.result.pages.keys.card
    + (lock.data.seen.card - lock.data.result.pages.keys.card) = lock.data.seen.card
  omega

lemma ServerRun.status_of_not_poisoned (h : ServerRun es s) (hp : ¬ s.Poisoned) :
    ∃ statuses, s.status = .ok statuses ∧ List.Forall₂ (fun slot status =>
      ∃ lock, s.slotCrawl slot = some lock ∧ status = lock.counts slot.1 ∧
        status.done + status.todo = lock.data.seen.card) s.crawls.data.entries statuses := by
  obtain ⟨statuses, hall⟩ : ∃ statuses, List.Forall₂ (fun slot status =>
      s.slotStatus slot = .ok status ∧ ∃ lock, s.slotCrawl slot = some lock ∧
        status = lock.counts slot.1 ∧ status.done + status.todo = lock.data.seen.card)
      s.crawls.data.entries statuses := by
    refine exists_forall₂ fun slot hslot => ?_
    obtain ⟨lock, hcrawl, heq⟩ := h.slotStatus_cases hslot
    rw [if_neg fun hp' => hp ⟨slot, hslot, lock, hcrawl, hp'⟩] at heq
    exact ⟨lock.counts slot.1, heq, lock, hcrawl, rfl, h.counts_add hcrawl slot.1⟩
  exact ⟨statuses, h.status_eq_ok_iff.mpr (hall.imp fun _ _ hs => hs.1),
    hall.imp fun _ _ hs => hs.2⟩

/-- **How `status` can fail**: it never panics, neither on its subtraction nor
on a dangling reference; it fails if a crawl in the registry is poisoned, with
the error of a poisoned lock; and otherwise it lists the counts of the crawls in
the registry, one for each slot, which add up to the urls seen. -/
theorem status_faults (h : ServerRun es s) :
    (∀ msg, s.status ≠ .error (.panic msg)) ∧
    (s.Poisoned → s.status = .error (.err ⟨"poisoned lock: another task failed inside"⟩)) ∧
    (¬ s.Poisoned → ∃ statuses, s.status = .ok statuses ∧ List.Forall₂ (fun slot status =>
      ∃ lock, s.slotCrawl slot = some lock ∧ status = lock.counts slot.1 ∧
        status.done + status.todo = lock.data.seen.card) s.crawls.data.entries statuses) := by
  refine ⟨fun msg hpanic => ?_, h.status_of_poisoned, h.status_of_not_poisoned⟩
  by_cases hp : s.Poisoned
  · cases (h.status_of_poisoned hp).symm.trans hpanic
  · obtain ⟨statuses, hok, -⟩ := h.status_of_not_poisoned hp
    cases hok.symm.trans hpanic

/-- After a panic in the robots matcher `status` fails with an error. -/
theorem status_faults_pair :
    ∃ s, ServerRun (PlainUrl.pairEvents ++ [ServerEvent.call 0 (.panic true)]) s ∧
      s.status = .error (.err ⟨"poisoned lock: another task failed inside"⟩) := by
  obtain ⟨s, hrun, hp⟩ : ∃ s, ServerRun
      (PlainUrl.pairEvents ++ [ServerEvent.call 0 (.panic true)]) s ∧ s.Poisoned := by
    refine ⟨_, rfl, ⟨PlainUrl.site "/", 0⟩, ?_, _, rfl, rfl⟩
    exact AList.mem_lookup_iff.mp rfl
  exact ⟨s, hrun, (status_faults hrun).2.1 hp⟩

/-! ### How the answers of `status` change -/

/-- What a crawl has seen and recorded stays, and so does its poison. -/
structure Grows (lock lock' : Mutex (Crawl Url)) : Prop where
  seen : lock.data.seen ⊆ lock'.data.seen
  entries : ∀ url page, lock.data.entry url = some page → lock'.data.entry url = some page
  poisoned : lock.poisoned = true → lock'.poisoned = true

omit [Externals Url] in
lemma Grows.refl (lock : Mutex (Crawl Url)) : Grows lock lock :=
  ⟨Finset.Subset.refl _, fun _ _ he => he, fun hp => hp⟩

omit [Externals Url] in
lemma Grows.trans {lock lock' lock'' : Mutex (Crawl Url)} (h : Grows lock lock')
    (h' : Grows lock' lock'') : Grows lock lock'' :=
  ⟨h.seen.trans h'.seen, fun url page he => h'.entries url page (h.entries url page he),
    fun hp => h'.poisoned (h.poisoned hp)⟩

omit [Externals Url] in
lemma Grows.keys {lock lock' : Mutex (Crawl Url)} (h : Grows lock lock') :
    lock.data.result.pages.keys ⊆ lock'.data.result.pages.keys := by
  intro url hmem
  obtain ⟨page, hpage⟩ := Crawl.exists_entry hmem
  exact Crawl.mem_keys_of_entry (h.entries url page hpage)

/-- A crawl grows with each event of its loop. -/
lemma Run.grows {robots : Option String} {seed : Url} {es : List (Event Url)}
    {inner inner' : CrawlInner Url} (h : Run robots seed es inner) {e : Event Url}
    (hstep : inner.step e = some inner') : Grows inner.crawl inner'.crawl where
  seen := h.seen_trans (CrawlInner.trans_of_step h.receiver hstep)
  entries _ _ he := h.entry_trans (CrawlInner.trans_of_step h.receiver hstep) he
  poisoned hp := by
    cases CrawlInner.trans_of_step h.receiver hstep with
    | poison => rfl
    | settle _ _ _ _ unpoisoned => cases unpoisoned.symm.trans hp
    | start | suspend | fail | resume | stop | abort => exact hp

/-- A crawl grows with each event of its call. -/
lemma Call.Trans.grows {i : CallId} {es : List (CallEvent Url)} {call call' : Call Url}
    {crawls crawls' : Mutex (Registry Url)} {event : CallEvent Url}
    (ht : Trans i call crawls event call' crawls') (h : call.Follows es) {lock : Mutex (Crawl Url)}
    (hcrawl : call.crawl? = some lock) : ∃ lock', call'.crawl? = some lock' ∧ Grows lock lock' := by
  cases ht with
  | robotsFailed | make | abort => cases hcrawl
  | register | remove | fail | unwrap =>
      cases hcrawl
      exact ⟨_, rfl, Grows.refl _⟩
  | inner next =>
      cases hcrawl
      obtain ⟨robots, -, hrun⟩ := h
      exact ⟨_, rfl, hrun.grows next⟩
  | @panic seed inner _ locked =>
      cases hcrawl
      refine ⟨_, rfl, Finset.Subset.refl _, fun _ _ he => he, fun hp => ?_⟩
      rw [hp, Bool.true_or]
  | poisoned stage =>
      obtain ⟨rfl, -⟩ | ⟨rfl, -⟩ := stage
      · cases hcrawl
        exact ⟨_, rfl, Grows.refl _⟩
      · cases hcrawl
        exact ⟨_, rfl, Grows.refl _⟩

/-- **What a crawl has seen and recorded stays**, whatever happens to its call
and to the others. -/
theorem ServerRun.grows (h : ServerRun es s) (h' : exec ProdCrawler.step s fs = some t)
    {i : CallId} {call : Call Url} {lock : Mutex (Crawl Url)} (hi : s.calls i = some call)
    (hcrawl : call.crawl? = some lock) :
    ∃ call' lock', t.calls i = some call' ∧ call'.crawl? = some lock' ∧ Grows lock lock' ∧
      call'.seed = call.seed := by
  refine exec_trace_induction (P := fun _ t => ∃ call' lock', t.calls i = some call' ∧
    call'.crawl? = some lock' ∧ Grows lock lock' ∧ call'.seed = call.seed)
    ⟨call, lock, hi, hcrawl, Grows.refl lock, rfl⟩ ?_ h'
  rintro gs e u u' hgs ⟨call', lock', hi', hcrawl', hgrows, hseed⟩ hstep
  have hrun : ServerRun (es ++ gs) u := exec_join h hgs
  obtain ⟨j, seed, rfl, hj, rfl⟩ | ⟨j, event, old, new, crawls, rfl, hj, hcall, rfl⟩ | ⟨-, rfl⟩ :=
    ProdCrawler.step_cases hstep
  · have hij : i ≠ j := by
      rintro rfl
      cases hj.symm.trans hi'
    exact ⟨call', lock', (Function.update_of_ne hij _ _).trans hi', hcrawl', hgrows, hseed⟩
  · by_cases hij : i = j
    · subst hij
      cases hi'.symm.trans hj
      have ht := Call.trans_of_step hcall
      obtain ⟨lock'', hcrawl'', hgrows'⟩ := ht.grows ((hrun.follows i).2 _ hi') hcrawl'
      exact ⟨new, lock'', Function.update_self i _ _, hcrawl'', hgrows.trans hgrows',
        ht.seed_eq.trans hseed⟩
    · exact ⟨call', lock', (Function.update_of_ne hij _ _).trans hi', hcrawl', hgrows, hseed⟩
  · exact ⟨call', lock', hi', hcrawl', hgrows, hseed⟩

/-- **The answers of `status` only progress.**  While a call has a slot, which is
always that of its seed, the number of its pages done never goes down, nor does
the number of its pages done or to do; and once `status` fails for it, it fails
for it ever after. -/
theorem status_progresses (h : ServerRun es s) (h' : exec ProdCrawler.step s fs = some t)
    {seed seed' : Url} {i : CallId} (hslot : s.crawls.data.lookup seed = some i)
    (hslot' : t.crawls.data.lookup seed' = some i) :
    seed' = seed ∧
    (∀ status status', s.slotStatus ⟨seed, i⟩ = .ok status →
      t.slotStatus ⟨seed', i⟩ = .ok status' →
      status.done ≤ status'.done ∧ status.done + status.todo ≤ status'.done + status'.todo) ∧
    ∀ fault, s.slotStatus ⟨seed, i⟩ = .error fault → t.slotStatus ⟨seed', i⟩ = .error fault := by
  have htrun : ServerRun (es ++ fs) t := exec_join h h'
  obtain ⟨lock, hcrawl, hstatus⟩ := h.slotStatus_cases (AList.mem_lookup_iff.mp hslot)
  obtain ⟨lock', hcrawl', hstatus'⟩ := htrun.slotStatus_cases (AList.mem_lookup_iff.mp hslot')
  obtain ⟨call, hi, hlock⟩ := Option.bind_eq_some_iff.mp hcrawl
  obtain ⟨call', lock'', hi', hlock', hgrows, hseed⟩ := h.grows h' hi hlock
  have hsame : lock'' = lock' := by
    rw [ProdCrawler.slotCrawl, hi', Option.bind_some, hlock'] at hcrawl'
    exact Option.some.inj hcrawl'
  subst hsame
  refine ⟨?_, fun status status' hok hok' => ?_, fun fault hfault => ?_⟩
  · obtain ⟨held, hheld, hholds⟩ := h.holds_of_slot hslot
    obtain ⟨held', hheld', hholds'⟩ := htrun.holds_of_slot hslot'
    cases hi.symm.trans hheld
    cases hi'.symm.trans hheld'
    rw [← hholds'.seed_eq, hseed, hholds.seed_eq]
  · have hdone := Finset.card_le_card hgrows.keys
    have hseen := Finset.card_le_card hgrows.seen
    have hadd := h.counts_add hcrawl seed
    have hadd' := htrun.counts_add hcrawl' seed'
    have heq : status = lock.counts seed := by
      rw [hstatus] at hok
      split at hok
      · cases hok
      · exact (Except.ok.inj hok).symm
    have heq' : status' = lock''.counts seed' := by
      rw [hstatus'] at hok'
      split at hok'
      · cases hok'
      · exact (Except.ok.inj hok').symm
    rw [heq, heq', hadd, hadd']
    exact ⟨hdone, hseen⟩
  · rw [hstatus] at hfault
    split at hfault
    · next hp =>
        rw [hstatus', if_pos (hgrows.poisoned hp)]
        exact hfault
    · cases hfault

/-- The count of the first of two calls after the page of its seed. -/
theorem status_progresses_pair :
    ∃ s t status status', ServerRun (PlainUrl.pairEvents.take 5) s ∧
      ServerRun PlainUrl.pairEvents t ∧ s.slotStatus ⟨PlainUrl.site "/", 0⟩ = .ok status ∧
      t.slotStatus ⟨PlainUrl.site "/", 0⟩ = .ok status' ∧
      status.done + status.todo ≤ status'.done + status'.todo := by
  obtain ⟨s, t, hs, hfs, hslot, hslot', status, status', hok, hok'⟩ :
      ∃ s t, ServerRun (PlainUrl.pairEvents.take 5) s ∧
        exec ProdCrawler.step s (PlainUrl.pairEvents.drop 5) = some t ∧
        s.crawls.data.lookup (PlainUrl.site "/") = some 0 ∧
        t.crawls.data.lookup (PlainUrl.site "/") = some 0 ∧
        ∃ status status', s.slotStatus ⟨PlainUrl.site "/", 0⟩ = .ok status ∧
          t.slotStatus ⟨PlainUrl.site "/", 0⟩ = .ok status' :=
    ⟨_, _, rfl, rfl, rfl, rfl, _, _, rfl, rfl⟩
  have ht : ServerRun (PlainUrl.pairEvents.take 5 ++ PlainUrl.pairEvents.drop 5) t :=
    exec_join hs hfs
  exact ⟨s, t, status, status', hs, ht, hok, hok',
    ((status_progresses hs hfs hslot hslot').2.1 status status' hok hok').2⟩

end MikesCrawler
