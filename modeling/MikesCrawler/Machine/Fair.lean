/-
Runs without an end, over arbitrary states and events, and what fairness makes
of them.

* `Forever`, `before`, `Forever.run`: an infinite run, and its finite ones;
* `Fair`: weak fairness to a kind of events;
* `Forever.eventually`: what keeps a kind of events enabled as long as it does
  not hold comes to hold, if the run is fair to the kind and has only so many of
  its events;
* `Forever.of_invariant`, `Forever.of_exec`: runs that go on forever in an
  invariant.
-/
import MikesCrawler.Machine.Run

namespace Machine

variable {σ ε : Type*} {step : σ → ε → Option σ} {s : σ}
variable {events : ℕ → ε} {states : ℕ → σ} {own : ε → Bool}

/-- An infinite run from a state. -/
structure Forever (step : σ → ε → Option σ) (s : σ) (events : ℕ → ε) (states : ℕ → σ) :
    Prop where
  start : states 0 = s
  next : ∀ n, step (states n) (events n) = some (states (n + 1))

/-- The first events of an infinite run. -/
def before (events : ℕ → ε) (n : ℕ) : List ε := (List.range n).map events

lemma before_succ (n : ℕ) : before events (n + 1) = before events n ++ [events n] := by
  simp [before, List.range_succ]

lemma mem_before {k n : ℕ} (h : k < n) : events k ∈ before events n :=
  List.mem_map_of_mem (List.mem_range.mpr h)

lemma countP_before_mono (events : ℕ → ε) (own : ε → Bool) {m n : ℕ} (h : m ≤ n) :
    (before events m).countP own ≤ (before events n).countP own :=
  ((List.range_sublist.mpr h).map events).countP_le

/-- What an infinite run has done at a time is a run. -/
theorem Forever.run (h : Forever step s events states) (n : ℕ) :
    exec step s (before events n) = some (states n) := by
  induction n with
  | zero =>
      rw [h.start]
      rfl
  | succ n ih =>
      rw [before_succ]
      exact exec_concat_eq_some.mpr ⟨_, ih, h.next n⟩

/-! ### Fair runs -/

/-- A kind of events is enabled. -/
def Enabled (step : σ → ε → Option σ) (own : ε → Bool) (s : σ) : Prop :=
  ∃ e t, own e = true ∧ step s e = some t

/-- Weak fairness: a kind of events that stays enabled happens. -/
def Fair (step : σ → ε → Option σ) (own : ε → Bool) (events : ℕ → ε) (states : ℕ → σ) : Prop :=
  ∀ n, (∀ m, n ≤ m → Enabled step own (states m)) → ∃ m, n ≤ m ∧ own (events m) = true

/-- **What must happen happens**: in a run that is fair to a kind of events and
has at most so many of them, a property that holds as soon as they are no longer
enabled comes to hold. -/
theorem Forever.eventually {P : σ → Prop} {bound k : ℕ} (fair : Fair step own events states)
    (bounded : ∀ n, (before events n).countP own ≤ bound)
    (enabled : ∀ n, k ≤ n → ¬ P (states n) → Enabled step own (states n)) :
    ∃ n, k ≤ n ∧ P (states n) := by
  by_contra hnever
  have hstays : ∀ n, k ≤ n → Enabled step own (states n) := fun n hn =>
    enabled n hn fun hP => hnever ⟨n, hn, hP⟩
  -- so there is always one more of these events
  have hmany : ∀ count, ∃ n, k ≤ n ∧ count ≤ (before events n).countP own := by
    intro count
    induction count with
    | zero => exact ⟨k, le_rfl, Nat.zero_le _⟩
    | succ count ih =>
        obtain ⟨n, hn, hcount⟩ := ih
        obtain ⟨m, hm, hown⟩ := fair n fun m hm => hstays m (hn.trans hm)
        have hmono := countP_before_mono events own hm
        refine ⟨m + 1, by omega, ?_⟩
        rw [before_succ, List.countP_append, List.countP_singleton, if_pos hown]
        omega
  obtain ⟨n, -, hcount⟩ := hmany (bound + 1)
  have hbounded := bounded n
  omega

/-- A run in which a kind of events is not enabled from some time on is fair to
it. -/
lemma Fair.of_disabled {k : ℕ} (h : ∀ n, k ≤ n → ¬ Enabled step own (states n)) :
    Fair step own events states := fun n hstays =>
  absurd (hstays (max n k) (le_max_left n k)) (h _ (le_max_right n k))

/-! ### Runs that go on forever -/

/-- What can always go on in an invariant goes on forever in it. -/
theorem Forever.of_invariant {I : σ → Prop}
    (next : ∀ u, I u → ∃ e v, step u e = some v ∧ I v) (hs : I s) :
    ∃ events states, Forever step s events states ∧ ∀ n, I (states n) := by
  choose e v hstep hI using next
  let state : ℕ → {u // I u} := fun n => n.rec ⟨s, hs⟩ fun _ u => ⟨v u u.2, hI u u.2⟩
  refine ⟨fun n => e (state n).1 (state n).2, fun n => (state n).1, ⟨rfl, fun n => ?_⟩,
    fun n => (state n).2⟩
  exact hstep (state n).1 (state n).2

/-- An infinite run with one more event at its start. -/
lemma Forever.cons {e : ε} {t : σ} (hstep : step s e = some t)
    (h : Forever step t events states) :
    Forever step s (fun n => n.casesOn e events) (fun n => n.casesOn s states) where
  start := rfl
  next := by
    intro n
    cases n with
    | zero =>
        rw [← h.start] at hstep
        exact hstep
    | succ n => exact h.next n

/-- A run to a state from where it goes on forever in an invariant. -/
theorem Forever.of_exec {I : σ → Prop} (next : ∀ u, I u → ∃ e v, step u e = some v ∧ I v)
    {t : σ} (ht : I t) {es : List ε} (h : exec step s es = some t) :
    ∃ events states, Forever step s events states ∧ before events es.length = es ∧
      ∀ n, es.length ≤ n → I (states n) := by
  induction es generalizing s with
  | nil =>
      cases h
      obtain ⟨events, states, hforever, hI⟩ := Forever.of_invariant next ht
      exact ⟨events, states, hforever, rfl, fun n _ => hI n⟩
  | cons e es ih =>
      obtain ⟨u, hu, hrest⟩ := exec_cons_eq_some.mp h
      obtain ⟨events, states, hforever, hbefore, hI⟩ := ih hrest
      refine ⟨_, _, hforever.cons hu, ?_, fun n hn => ?_⟩
      · rw [List.length_cons, before, List.range_succ_eq_map, List.map_cons, List.map_map]
        exact congrArg (List.cons e) hbefore
      · cases n with
        | zero => simp at hn
        | succ n => exact hI n (Nat.le_of_succ_le_succ hn)

end Machine
