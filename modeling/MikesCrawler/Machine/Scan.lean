/-
Scanners: machines that read a text symbol by symbol and put out a few items at
each, over arbitrary states, symbols and items.

* `scan`: a text read from a state, with what is put out and the state reached;
* `scan_append`: a text may be cut anywhere;
* `scan_quiet`: a set of states in which a text is read without putting
  anything out.
-/
import Mathlib.Tactic

namespace Machine

variable {σ α β : Type*} {step : σ → α → List β × σ}

/-- Read a text symbol by symbol: the items put out, and the state reached. -/
def scan (step : σ → α → List β × σ) : σ → List α → List β × σ
  | q, [] => ([], q)
  | q, a :: text =>
      ((step q a).1 ++ (scan step (step q a).2 text).1, (scan step (step q a).2 text).2)

@[simp] lemma scan_nil (q : σ) : scan step q [] = ([], q) := rfl

lemma scan_cons (q : σ) (a : α) (text : List α) :
    scan step q (a :: text)
      = ((step q a).1 ++ (scan step (step q a).2 text).1, (scan step (step q a).2 text).2) := rfl

/-- A text may be cut anywhere: the rest is read from the state reached. -/
lemma scan_append (q : σ) (text rest : List α) :
    scan step q (text ++ rest)
      = ((scan step q text).1 ++ (scan step (scan step q text).2 rest).1,
        (scan step (scan step q text).2 rest).2) := by
  induction text generalizing q with
  | nil => simp
  | cons a text ih => simp [scan_cons, ih]

/-- In a set of states that the symbols of a text neither leave nor make put
anything out, the text is read in silence. -/
lemma scan_quiet {S : Set σ} {text : List α}
    (h : ∀ q ∈ S, ∀ a ∈ text, (step q a).1 = [] ∧ (step q a).2 ∈ S) {q : σ} (hq : q ∈ S) :
    (scan step q text).1 = [] ∧ (scan step q text).2 ∈ S := by
  induction text generalizing q with
  | nil => exact ⟨rfl, hq⟩
  | cons a text ih =>
      obtain ⟨hout, hstep⟩ := h q hq a List.mem_cons_self
      have htail := ih (fun q hq b hb => h q hq b (List.mem_cons_of_mem a hb)) hstep
      rw [scan_cons, hout]
      exact htail

end Machine
