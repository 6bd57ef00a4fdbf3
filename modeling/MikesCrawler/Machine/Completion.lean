/-
Machines in an environment, and runs that come to an end, over arbitrary states
and events.

* `restrict`: the machine of those events that the environment lets happen;
  `exec_of_restrict`, `restrict_forall`: its runs are runs of the machine, and
  of admitted events;
* `Stuck`: no event is enabled;
* `exec_completes`: if the runs from a state have a common bound, one of them
  ends in a stuck state, so that a machine that is only stuck in good states
  can always be brought to one.
-/
import MikesCrawler.Machine.Run

namespace Machine

variable {σ ε : Type*} {step : σ → ε → Option σ}

/-! ### Machines in an environment -/

/-- The events of a machine that its environment lets happen. -/
def restrict (lets : σ → ε → Bool) (step : σ → ε → Option σ) (s : σ) (e : ε) : Option σ :=
  if lets s e then step s e else none

variable {lets : σ → ε → Bool}

lemma restrict_eq_some {s t : σ} {e : ε} :
    restrict lets step s e = some t ↔ lets s e = true ∧ step s e = some t := by
  rw [restrict]
  by_cases h : lets s e = true <;> simp [h]

/-- A run in an environment is a run. -/
theorem exec_of_restrict {s t : σ} {es : List ε} (h : exec (restrict lets step) s es = some t) :
    exec step s es = some t := by
  induction es generalizing s with
  | nil => exact h
  | cons e es ih =>
      obtain ⟨u, hu, ht⟩ := exec_cons_eq_some.mp h
      exact exec_cons_eq_some.mpr ⟨u, (restrict_eq_some.mp hu).2, ih ht⟩

/-- The events of a run in an environment have what it asks of them. -/
theorem restrict_forall {P : ε → Prop} (hP : ∀ s e, lets s e = true → P e) {s t : σ}
    {es : List ε} (h : exec (restrict lets step) s es = some t) : ∀ e ∈ es, P e := by
  induction es generalizing s with
  | nil =>
      intro e he
      cases he
  | cons e es ih =>
      obtain ⟨u, hu, ht⟩ := exec_cons_eq_some.mp h
      intro e' he'
      rcases List.mem_cons.mp he' with rfl | he'
      · exact hP s e' (restrict_eq_some.mp hu).1
      · exact ih ht e' he'

/-! ### Runs that come to an end -/

/-- No event is enabled. -/
def Stuck (step : σ → ε → Option σ) (s : σ) : Prop := ∀ e, step s e = none

lemma not_stuck {s : σ} : ¬ Stuck step s ↔ ∃ e t, step s e = some t := by
  rw [Stuck, not_forall]
  exact exists_congr fun e => Option.ne_none_iff_exists'

/-- **Bounded runs come to an end**: if all runs from a state are bounded, one
of them ends in a stuck state. -/
theorem exec_completes {s : σ} {bound : ℕ}
    (bounded : ∀ es t, exec step s es = some t → es.length ≤ bound) :
    ∃ es t, exec step s es = some t ∧ Stuck step t := by
  induction bound generalizing s with
  | zero =>
      refine ⟨[], s, rfl, ?_⟩
      by_contra hstuck
      obtain ⟨e, t, ht⟩ := not_stuck.mp hstuck
      have hlength := bounded [e] t (exec_cons_eq_some.mpr ⟨t, ht, rfl⟩)
      simp at hlength
  | succ bound ih =>
      by_cases hstuck : Stuck step s
      · exact ⟨[], s, rfl, hstuck⟩
      · obtain ⟨e, t, ht⟩ := not_stuck.mp hstuck
        have hrest : ∀ es u, exec step t es = some u → es.length ≤ bound := by
          intro es u hu
          have hlength := bounded (e :: es) u (exec_cons_eq_some.mpr ⟨t, ht, hu⟩)
          rw [List.length_cons] at hlength
          omega
        obtain ⟨es, u, hu, hend⟩ := ih hrest
        exact ⟨e :: es, u, exec_cons_eq_some.mpr ⟨t, ht, hu⟩, hend⟩

end Machine
