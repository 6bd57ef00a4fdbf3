/-
Machines that serve a queue, over arbitrary states, events and elements: each
step takes at most the first element and adds some at the end.

* `exec_conserves`: over a whole run, what was served and what is left is what
  waited before and then what came in, and what came in is fresh;
* `served_first`: so an element that came in is served after all that waited
  before.
-/
import MikesCrawler.Machine.Run

namespace Machine

variable {σ ε α : Type*} {step : σ → ε → Option σ}

/-- **Conservation**: if each step serves the first of the queue, or none, and
adds fresh elements at the end, so does every run that ends in a live state. -/
theorem exec_conserves (queue : σ → List α) (serves : ε → Option α) (live : σ → Prop)
    (fresh : σ → α → Prop) {s₀ : σ}
    (next : ∀ es s e t, exec step s₀ es = some s → step s e = some t → live t → live s ∧
      ∃ new, (serves e).toList ++ queue t = queue s ++ new ∧ ∀ a ∈ new, fresh s a)
    (mono : ∀ es s e t a, exec step s₀ es = some s → step s e = some t → fresh t a → fresh s a)
    {es fs : List ε} {s t : σ} (hs : exec step s₀ es = some s) (ht : exec step s fs = some t)
    (hlive : live t) : live s ∧
      ∃ new, fs.filterMap serves ++ queue t = queue s ++ new ∧ ∀ a ∈ new, fresh s a := by
  induction fs generalizing es s with
  | nil =>
      cases ht
      exact ⟨hlive, [], by simp, by simp⟩
  | cons e fs ih =>
      obtain ⟨u, hu, hfs⟩ := exec_cons_eq_some.mp ht
      obtain ⟨hliveu, new, hnew, hfresh⟩ := ih (exec_concat_eq_some.mpr ⟨s, hs, hu⟩) hfs
      obtain ⟨hlives, new', hnew', hfresh'⟩ := next es s e u hs hu hliveu
      refine ⟨hlives, new' ++ new, ?_, fun a ha => ?_⟩
      · have hhead : (e :: fs).filterMap serves
            = (serves e).toList ++ fs.filterMap serves := by
          rw [List.filterMap_cons]
          cases serves e <;> rfl
        calc (e :: fs).filterMap serves ++ queue t
            = (serves e).toList ++ (fs.filterMap serves ++ queue t) := by
              rw [hhead, List.append_assoc]
          _ = ((serves e).toList ++ queue u) ++ new := by rw [hnew, List.append_assoc]
          _ = queue s ++ (new' ++ new) := by rw [hnew', List.append_assoc]
      · rcases List.mem_append.mp ha with ha | ha
        · exact hfresh' a ha
        · exact mono es s e u a hs hu (hfresh a ha)

/-- What did not wait before is served after all that did. -/
lemma served_first {served rest waited new : List α} (h : served ++ rest = waited ++ new) {b : α}
    (hb : b ∈ served) (hnot : b ∉ waited) : ∃ after, served = waited ++ after ∧ b ∈ after := by
  rcases List.append_eq_append_iff.mp h with ⟨more, hwaited, -⟩ | ⟨after, hserved, -⟩
  · refine absurd ?_ hnot
    rw [hwaited]
    exact List.mem_append_left more hb
  · refine ⟨after, hserved, ?_⟩
    rw [hserved] at hb
    exact (List.mem_append.mp hb).resolve_left hnot

end Machine
