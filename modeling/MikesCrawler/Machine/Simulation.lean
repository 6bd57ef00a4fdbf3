/-
Relating the runs of one machine to the runs of another, over arbitrary
states and events.

* `exec_simulation`: forward simulation with stuttering.  The relation sees the
  events of both runs, so that it can also say how the two traces match;
* `exec_filter`: projection onto a component.  If the events of the component
  move it as they move the whole and the others leave it alone, then its own
  events in a run form a run of the component.
-/
import MikesCrawler.Machine.Run

namespace Machine

variable {σ τ ε : Type*} {step : σ → ε → Option σ}

/-- **Forward simulation**: if every step of the first machine from related
states is matched by a run of the second, and the relation is kept, then every
run of the first is matched by a run of the second. -/
theorem exec_simulation {δ : Type*} {step' : τ → δ → Option τ} {s₀ : σ} {t₀ : τ}
    {R : List ε → σ → List δ → τ → Prop} (start : R [] s₀ [] t₀)
    (next : ∀ es s ds t e s', exec step s₀ es = some s → exec step' t₀ ds = some t →
      R es s ds t → step s e = some s' →
      ∃ fs t', exec step' t fs = some t' ∧ R (es ++ [e]) s' (ds ++ fs) t')
    {es : List ε} {s : σ} (h : exec step s₀ es = some s) :
    ∃ ds t, exec step' t₀ ds = some t ∧ R es s ds t := by
  refine exec_trace_induction
    (P := fun es s => ∃ ds t, exec step' t₀ ds = some t ∧ R es s ds t)
    ⟨[], t₀, rfl, start⟩ ?_ h
  rintro es e s s' hes ⟨ds, t, hds, hR⟩ hstep
  obtain ⟨fs, t', hfs, hR'⟩ := next es s ds t e s' hes hds hR hstep
  have hrun : exec step' t₀ (ds ++ fs) = some t' := by
    rw [exec_append, hds]
    exact hfs
  exact ⟨ds ++ fs, t', hrun, hR'⟩

/-- **Projection** onto a component: if in runs of good events the component's
own events move it as they move the whole, and the others leave it alone, then
its own events in such a run form a run of the component. -/
theorem exec_filter {step' : τ → ε → Option τ} {s₀ : σ} {t₀ : τ} (p : ε → Bool) {G : ε → Prop}
    {R : σ → τ → Prop} (start : R s₀ t₀)
    (keep : ∀ es s t e s', (∀ d ∈ es, G d) → G e → exec step s₀ es = some s →
      exec step' t₀ (es.filter p) = some t → R s t → p e = true → step s e = some s' →
      ∃ t', step' t e = some t' ∧ R s' t')
    (drop : ∀ s t e s', R s t → p e = false → step s e = some s' → R s' t)
    {es : List ε} {s : σ} (h : exec step s₀ es = some s) (hgood : ∀ e ∈ es, G e) :
    ∃ t, exec step' t₀ (es.filter p) = some t ∧ R s t := by
  refine exec_trace_induction
    (P := fun es s => (∀ e ∈ es, G e) → ∃ t, exec step' t₀ (es.filter p) = some t ∧ R s t)
    (fun _ => ⟨t₀, rfl, start⟩) ?_ h hgood
  intro es e s s' hes ih hstep hgood
  have hpre : ∀ d ∈ es, G d := fun d hd => hgood d (by simp [hd])
  obtain ⟨t, ht, hR⟩ := ih hpre
  rw [List.filter_append]
  cases hp : p e with
  | true =>
      have he : G e := hgood e (by simp)
      have hown : [e].filter p = [e] := by simp [hp]
      obtain ⟨t', ht', hR'⟩ := keep es s t e s' hpre he hes ht hR hp hstep
      rw [hown]
      exact ⟨t', exec_concat_eq_some.mpr ⟨t, ht, ht'⟩, hR'⟩
  | false =>
      have hother : [e].filter p = [] := by simp [hp]
      rw [hother, List.append_nil]
      exact ⟨t, ht, drop s t e s' hR hp hstep⟩

end Machine
