/-
Dialogues: a producer that asks questions one at a time and lets the answers
steer what it asks next, over arbitrary questions, answers and results.

* `Dialogue`: the producer, a well-founded tree that branches on the answers;
* `Dialogue.run`: a consumer with a state of its own answers the questions;
* `Dialogue.asked`, `Dialogue.result`: what is asked, and how it ends, when
  every answer is the same;
* `Dialogue.run_of_const`: a consumer that always gives the same answer is a
  fold over the questions that answer provokes.
-/
import Mathlib.Tactic

/-- A producer that ends with a result or asks a question and goes on from its
answer. -/
inductive Dialogue (Q A R : Type) where
  | done (result : R)
  | ask (question : Q) (next : A → Dialogue Q A R)

namespace Dialogue

variable {Q A R σ : Type}

/-- Let a consumer with a state answer the questions. -/
def run (reply : σ → Q → A × σ) : σ → Dialogue Q A R → R × σ
  | s, .done r => (r, s)
  | s, .ask q next => run reply (reply s q).2 (next (reply s q).1)

/-- The questions asked when every answer is `a`. -/
def asked (a : A) : Dialogue Q A R → List Q
  | .done _ => []
  | .ask q next => q :: asked a (next a)

/-- The result when every answer is `a`. -/
def result (a : A) : Dialogue Q A R → R
  | .done r => r
  | .ask _ next => result a (next a)

/-- A consumer that always gives the same answer folds over the questions. -/
theorem run_of_const {reply : σ → Q → A × σ} {a : A} (h : ∀ s q, (reply s q).1 = a)
    (d : Dialogue Q A R) (s : σ) :
    d.run reply s = (d.result a, (d.asked a).foldl (fun s q => (reply s q).2) s) := by
  induction d generalizing s with
  | done r => rfl
  | ask q next ih =>
      rw [run, h, ih a]
      rfl

end Dialogue
