/-
What a worklist exploration finds: the elements reachable from the seed
through admissible ones, whatever the order of its moves.

* `Worklist.Reach`: reachability from the seed, a step leaving an admissible
  element for one of its successors; `Worklist.reach_least`: it is the least
  set with the seed and closed under such steps;
* `Worklist.seen_subset_reach`, **soundness**: a run whose elements find
  nothing but successors sees nothing but reachable elements;
* `Worklist.succ_mem_seen`, **closure**: a run whose elements find all their
  successors has seen every successor of an admissible element done;
* `Worklist.seen_eq_reach`: a run that leaves no work has seen exactly the
  reachable elements.
-/
import MikesCrawler.Worklist.Basic

open Machine

namespace Worklist

variable {α : Type*}

/-! ### Reachability -/

/-- The elements reachable from `seed`: a step leaves an admissible element for
one of its successors. -/
def Reach (ok : α → Prop) (succ : α → α → Prop) (seed : α) : Set α :=
  {a | Relation.ReflTransGen (fun a b => ok a ∧ succ a b) seed a}

variable {ok : α → Prop} {succ : α → α → Prop} {seed : α}

lemma seed_mem_reach : seed ∈ Reach ok succ seed := Relation.ReflTransGen.refl

lemma succ_mem_reach {a b : α} (ha : a ∈ Reach ok succ seed) (hok : ok a) (h : succ a b) :
    b ∈ Reach ok succ seed := Relation.ReflTransGen.tail ha ⟨hok, h⟩

/-- Reachability is the least set with the seed that is closed under the
successors of its admissible members. -/
lemma reach_least {S : Set α} (hseed : seed ∈ S)
    (hstep : ∀ a ∈ S, ok a → ∀ b, succ a b → b ∈ S) : Reach ok succ seed ⊆ S := by
  intro a ha
  induction ha with
  | refl => exact hseed
  | tail _ h ih => exact hstep _ ih h.1 _ h.2

/-! ### Runs -/

variable [DecidableEq α] [DecidablePred ok] {ms : List (Move α)} {w : Worklist α}

/-- A set with the seed that is closed under what its admissible members find
has every element seen. -/
lemma seen_subset {S : Set α} (hseed : seed ∈ S)
    (h : exec (step ok) (init ok seed) ms = some w)
    (hfound : ∀ a found, Move.finish a found ∈ ms → a ∈ S → ok a → ∀ b ∈ found, b ∈ S) :
    ∀ a ∈ w.seen, a ∈ S := by
  refine exec_trace_induction
    (P := fun ms w => (∀ a found, Move.finish a found ∈ ms → a ∈ S → ok a → ∀ b ∈ found, b ∈ S) →
      ∀ a ∈ w.seen, a ∈ S) ?_ ?_ h hfound
  · intro _ a ha
    have ha' : a = seed := by simpa using ha
    rw [ha']
    exact hseed
  · intro ms m w w' hrun ih hstep hfound
    have hw := ih fun a found hm => hfound a found (List.mem_append_left _ hm)
    obtain ⟨a, ha, rfl, rfl⟩ | ⟨a, found, ha, rfl, rfl⟩ := step_cases ok hstep
    · exact hw
    · intro b hb
      rw [settle_seen, discoverAll_seen] at hb
      rw [discoverAll_active] at ha
      have haS : a ∈ S := hw a (mem_seen.mpr (Or.inr (Or.inr ha)))
      have hok : ok a := ok_of_mem ok hrun a (Or.inr ha)
      rcases Finset.mem_union.mp hb with hb' | hb'
      · exact hw b hb'
      · exact hfound a found (by simp) haS hok b (List.mem_toFinset.mp hb')

/-- **Soundness**: an exploration whose elements find nothing but successors
sees nothing but reachable elements. -/
theorem seen_subset_reach (h : exec (step ok) (init ok seed) ms = some w)
    (hfound : ∀ a found, Move.finish a found ∈ ms → ∀ b ∈ found, succ a b) :
    ∀ a ∈ w.seen, a ∈ Reach ok succ seed :=
  seen_subset seed_mem_reach h fun a found hm ha hok b hb =>
    succ_mem_reach ha hok (hfound a found hm b hb)

lemma seen_mono_of_step {w w' : Worklist α} {m : Move α} (h : w.step ok m = some w') :
    w.seen ⊆ w'.seen := by
  obtain ⟨b, hb, rfl, rfl⟩ | ⟨b, found, hb, rfl, rfl⟩ := step_cases ok h
  · exact Finset.Subset.refl _
  · rw [settle_seen, discoverAll_seen]
    exact Finset.subset_union_left

/-- What was seen stays seen. -/
theorem seen_mono {w w' : Worklist α} (h : exec (step ok) w ms = some w') : w.seen ⊆ w'.seen :=
  exec_rel (R := fun w w' : Worklist α => w.seen ⊆ w'.seen) (fun _ => Finset.Subset.refl _)
    Finset.Subset.trans (fun _ _ _ hstep => seen_mono_of_step hstep) h

/-- **Closure**: an exploration whose elements find all their successors has
seen every successor of an admissible element done. -/
theorem succ_mem_seen (h : exec (step ok) (init ok seed) ms = some w)
    (hfound : ∀ a found, Move.finish a found ∈ ms → ∀ b, succ a b → b ∈ found) :
    ∀ a ∈ w.done, ok a → ∀ b, succ a b → b ∈ w.seen := by
  have key : ∀ a ∈ w.done.filter ok, ∀ b, succ a b → b ∈ w.seen := by
    refine exec_trace_induction
      (P := fun ms w => (∀ a found, Move.finish a found ∈ ms → ∀ b, succ a b → b ∈ found) →
        ∀ a ∈ w.done.filter ok, ∀ b, succ a b → b ∈ w.seen) ?_ ?_ h hfound
    · intro _ a ha
      simp at ha
    · intro ms m w w' hrun ih hstep hfound a ha b hab
      have hw := ih fun a found hm => hfound a found (List.mem_append_left _ hm)
      obtain ⟨c, hc, rfl, rfl⟩ | ⟨c, found, hc, rfl, rfl⟩ := step_cases ok hstep
      · exact hw a ha b hab
      · have hmem : a = c ∨ a ∈ w.done.filter ok := by
          rw [settle_done, Finset.filter_insert, discoverAll_filter_done] at ha
          split at ha
          · exact Finset.mem_insert.mp ha
          · exact Or.inr ha
        rw [settle_seen, discoverAll_seen, Finset.mem_union, List.mem_toFinset]
        rcases hmem with rfl | hd
        · exact Or.inr (hfound a found (by simp) b hab)
        · exact Or.inl (hw a hd b hab)
  intro a ha hok
  exact key a (Finset.mem_filter.mpr ⟨ha, hok⟩)

lemma seed_mem_seen (h : exec (step ok) (init ok seed) ms = some w) : seed ∈ w.seen := by
  have hinit : seed ∈ (init ok seed).seen := by simp
  exact seen_mono h hinit

/-- **Completeness**: an exploration that leaves no work, and whose elements
found exactly their successors, has seen exactly the reachable elements. -/
theorem seen_eq_reach (h : exec (step ok) (init ok seed) ms = some w)
    (hfound : ∀ a found, Move.finish a found ∈ ms → ∀ b, b ∈ found ↔ succ a b)
    (hwaiting : w.waiting = 0) (hactive : w.active = 0) :
    ∀ a, a ∈ w.seen ↔ a ∈ Reach ok succ seed := by
  refine fun a => ⟨seen_subset_reach h (fun a found hm b => (hfound a found hm b).mp) a, ?_⟩
  refine fun ha => reach_least (S := {a | a ∈ w.seen}) (seed_mem_seen h) ?_ ha
  intro b hb hok c hbc
  have hd : b ∈ w.done := by
    have hcases := mem_seen.mp hb
    simpa [hwaiting, hactive] using hcases
  exact succ_mem_seen h (fun a found hm b => (hfound a found hm b).mpr) b hd hok c hbc

end Worklist
