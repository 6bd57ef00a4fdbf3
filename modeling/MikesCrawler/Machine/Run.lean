/-
Runs of a partial, event-labelled step function, over arbitrary states and
events: the induction rules every result about whole runs is proved with.

* `exec`: a list of events run through `step`, `none` as soon as an event is
  not enabled; `exec_append`, `exec_concat` and `exec_split` cut and join runs;
* `exec_trace_induction`: the rule for properties of the events so far
  together with the state they reach, one step at a time from the right;
* `exec_invariant`, `exec_rel`: the rules for a property of single states and
  for a preorder that every step respects;
* `filterMap_concat_of_none`, `filterMap_concat_of_some`: what one more event
  adds to what is observed of a run.
-/
import Mathlib.Tactic

namespace Machine

variable {σ ε : Type*} {step : σ → ε → Option σ}

/-- Run a list of events through a partial step function. -/
def exec (step : σ → ε → Option σ) : σ → List ε → Option σ
  | s, [] => some s
  | s, e :: es => (step s e).bind fun s' => exec step s' es

lemma exec_cons (s : σ) (e : ε) (es : List ε) :
    exec step s (e :: es) = (step s e).bind fun s' => exec step s' es := rfl

/-- Runs compose. -/
lemma exec_append (s : σ) (es fs : List ε) :
    exec step s (es ++ fs) = (exec step s es).bind fun s' => exec step s' fs := by
  induction es generalizing s with
  | nil => rfl
  | cons e es ih =>
      rw [List.cons_append, exec_cons, exec_cons, Option.bind_assoc]
      congr 1
      funext s'
      exact ih s'

lemma exec_join {s t u : σ} {es fs : List ε} (h : exec step s es = some t)
    (h' : exec step t fs = some u) : exec step s (es ++ fs) = some u := by
  rw [exec_append, h]
  exact h'

/-- The last step of a run. -/
lemma exec_concat (s : σ) (es : List ε) (e : ε) :
    exec step s (es ++ [e]) = (exec step s es).bind fun s' => step s' e := by
  rw [exec_append]
  congr 1
  funext s'
  rw [exec_cons]
  cases step s' e <;> rfl

lemma exec_concat_eq_some {s u : σ} {es : List ε} {e : ε} :
    exec step s (es ++ [e]) = some u ↔
      ∃ t, exec step s es = some t ∧ step t e = some u := by
  rw [exec_concat, Option.bind_eq_some_iff]

lemma exec_cons_eq_some {s u : σ} {es : List ε} {e : ε} :
    exec step s (e :: es) = some u ↔
      ∃ t, step s e = some t ∧ exec step t es = some u := by
  rw [exec_cons, Option.bind_eq_some_iff]

/-- Every prefix of a run is a run, and the rest runs on from the state it
reaches. -/
lemma exec_split {s u : σ} {es fs : List ε} (h : exec step s (es ++ fs) = some u) :
    ∃ t, exec step s es = some t ∧ exec step t fs = some u := by
  rw [exec_append] at h
  exact Option.bind_eq_some_iff.mp h

/-- The induction rule for runs: a property of the events so far and of the
state they reach holds of every run if it holds at the start and one more
event keeps it. -/
theorem exec_trace_induction {s : σ} {P : List ε → σ → Prop} (start : P [] s)
    (next : ∀ es e t u, exec step s es = some t → P es t → step t e = some u → P (es ++ [e]) u) :
    ∀ {es t}, exec step s es = some t → P es t := by
  intro es
  induction es using List.reverseRecOn with
  | nil =>
      intro t h
      cases h
      exact start
  | append_singleton es e ih =>
      intro u h
      obtain ⟨t, ht, hu⟩ := exec_concat_eq_some.mp h
      exact next es e t u ht (ih ht) hu

/-- A property of states that every step keeps holds at the end of every run
that starts in it. -/
theorem exec_invariant {P : σ → Prop} (next : ∀ s e t, P s → step s e = some t → P t)
    {s t : σ} {es : List ε} (hs : P s) (h : exec step s es = some t) : P t :=
  exec_trace_induction (P := fun _ => P) hs (fun _ e t u _ ht hu => next t e u ht hu) h

/-- A reflexive and transitive relation that every step respects relates the
two ends of every run. -/
theorem exec_rel {R : σ → σ → Prop} (refl : ∀ s, R s s)
    (trans : ∀ {s t u}, R s t → R t u → R s u)
    (next : ∀ s e t, step s e = some t → R s t)
    {s t : σ} {es : List ε} (h : exec step s es = some t) : R s t :=
  exec_trace_induction (P := fun _ => R s) (refl s)
    (fun _ e t u _ ht hu => trans ht (next t e u hu)) h

/-! ### Observations of a run -/

section Observations

variable {δ : Type*} {f : ε → Option δ} {e : ε}

/-- An event that is not observed adds nothing. -/
lemma filterMap_concat_of_none (h : f e = none) (es : List ε) :
    (es ++ [e]).filterMap f = es.filterMap f := by
  simp [h]

/-- An event that is observed adds what is observed of it. -/
lemma filterMap_concat_of_some {d : δ} (h : f e = some d) (es : List ε) :
    (es ++ [e]).filterMap f = es.filterMap f ++ [d] := by
  simp [h]

end Observations

end Machine
