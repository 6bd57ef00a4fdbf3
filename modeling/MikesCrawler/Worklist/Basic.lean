/-
Worklist exploration with several elements in progress at once, over an
arbitrary type: what is known of the elements seen so far, with the account of
them carried by the structure.

* `Worklist`: the elements seen, waiting, in progress and done, and the law
  that the last three are together exactly the first, each element once;
* `Worklist.mem_seen`, `Worklist.nodup_all`, `Worklist.card_seen`: the law read
  as membership, as disjointness and as a count, and
  `Worklist.card_done_eq_iff`, the stop test: all elements seen are done
  exactly when nothing waits and nothing is in progress;
* `Worklist.discover`, `Worklist.start`, `Worklist.settle`: the operations, and
  `Worklist.step` the machine of their moves, with a test `ok` that keeps an
  element from being worked on at all;
* `Worklist.started_eq`: in every run each element is started at most once, and
  the started ones are those in progress and the admissible ones done.
-/
import MikesCrawler.Machine.Run

open Machine

/-- The account of an exploration: each element seen is done, waits, or is in
progress, and is so once. -/
@[ext] structure Worklist (α : Type*) where
  seen : Finset α
  waiting : Multiset α
  active : Multiset α
  done : Finset α
  balanced : done.val + waiting + active = seen.val

namespace Worklist

variable {α : Type*}

/-! ### The account -/

lemma nodup_all (w : Worklist α) : (w.done.val + w.waiting + w.active).Nodup := by
  rw [w.balanced]
  exact w.seen.nodup

lemma mem_seen {w : Worklist α} {a : α} :
    a ∈ w.seen ↔ a ∈ w.done ∨ a ∈ w.waiting ∨ a ∈ w.active := by
  rw [← Finset.mem_val, ← w.balanced, Multiset.mem_add, Multiset.mem_add, Finset.mem_val,
    or_assoc]

lemma waiting_nodup (w : Worklist α) : w.waiting.Nodup :=
  (Multiset.nodup_add.mp (Multiset.nodup_add.mp w.nodup_all).1).2.1

lemma active_nodup (w : Worklist α) : w.active.Nodup :=
  (Multiset.nodup_add.mp w.nodup_all).2.1

lemma disjoint_done_waiting (w : Worklist α) : Disjoint w.done.val w.waiting :=
  (Multiset.nodup_add.mp (Multiset.nodup_add.mp w.nodup_all).1).2.2

lemma disjoint_active (w : Worklist α) : Disjoint (w.done.val + w.waiting) w.active :=
  (Multiset.nodup_add.mp w.nodup_all).2.2

lemma notMem_done_of_waiting {w : Worklist α} {a : α} (h : a ∈ w.waiting) : a ∉ w.done :=
  fun hd => Multiset.disjoint_left.mp w.disjoint_done_waiting hd h

lemma notMem_done_of_active {w : Worklist α} {a : α} (h : a ∈ w.active) : a ∉ w.done :=
  fun hd => Multiset.disjoint_left.mp w.disjoint_active (Multiset.mem_add.mpr (Or.inl hd)) h

lemma notMem_waiting_of_active {w : Worklist α} {a : α} (h : a ∈ w.active) : a ∉ w.waiting :=
  fun hw => Multiset.disjoint_left.mp w.disjoint_active (Multiset.mem_add.mpr (Or.inr hw)) h

lemma done_subset_seen (w : Worklist α) : w.done ⊆ w.seen :=
  fun _ h => mem_seen.mpr (Or.inl h)

/-- The account as a count. -/
lemma card_seen (w : Worklist α) :
    w.seen.card = w.done.card + (w.waiting.card + w.active.card) := by
  rw [Finset.card_def, ← w.balanced, Multiset.card_add, Multiset.card_add, ← Finset.card_def,
    Nat.add_assoc]

/-- **The stop test**: comparing two sizes decides whether any work is left. -/
theorem card_done_eq_iff (w : Worklist α) :
    w.done.card = w.seen.card ↔ w.waiting = 0 ∧ w.active = 0 := by
  rw [card_seen, ← Multiset.card_eq_zero, ← Multiset.card_eq_zero]
  omega

/-! ### The operations -/

variable [DecidableEq α]

/-- Nothing seen yet. -/
def empty : Worklist α := ⟨∅, 0, 0, ∅, rfl⟩

/-- A new element waits. -/
def push (w : Worklist α) (a : α) (h : a ∉ w.seen) : Worklist α where
  seen := insert a w.seen
  waiting := a ::ₘ w.waiting
  active := w.active
  done := w.done
  balanced := by
    rw [Finset.insert_val_of_notMem h, ← w.balanced, Multiset.add_cons, Multiset.cons_add]

/-- A new element is done without any work. -/
def exclude (w : Worklist α) (a : α) (h : a ∉ w.seen) : Worklist α where
  seen := insert a w.seen
  waiting := w.waiting
  active := w.active
  done := insert a w.done
  balanced := by
    rw [Finset.insert_val_of_notMem h, ← w.balanced,
      Finset.insert_val_of_notMem fun hd => h (w.done_subset_seen hd), Multiset.cons_add,
      Multiset.cons_add]

/-- A waiting element goes in progress. -/
def start (w : Worklist α) (a : α) (h : a ∈ w.waiting) : Worklist α where
  seen := w.seen
  waiting := w.waiting.erase a
  active := a ::ₘ w.active
  done := w.done
  balanced := by
    rw [Multiset.add_cons, ← Multiset.cons_add, ← Multiset.add_cons, Multiset.cons_erase h,
      w.balanced]

/-- An element in progress is done. -/
def settle (w : Worklist α) (a : α) (h : a ∈ w.active) : Worklist α where
  seen := w.seen
  waiting := w.waiting
  active := w.active.erase a
  done := insert a w.done
  balanced := by
    rw [Finset.insert_val_of_notMem (notMem_done_of_active h), Multiset.cons_add,
      Multiset.cons_add, ← Multiset.add_cons, Multiset.cons_erase h, w.balanced]

@[simp] lemma push_seen (w : Worklist α) {a : α} (h : a ∉ w.seen) :
    (w.push a h).seen = insert a w.seen := rfl

@[simp] lemma push_waiting (w : Worklist α) {a : α} (h : a ∉ w.seen) :
    (w.push a h).waiting = a ::ₘ w.waiting := rfl

@[simp] lemma exclude_seen (w : Worklist α) {a : α} (h : a ∉ w.seen) :
    (w.exclude a h).seen = insert a w.seen := rfl

@[simp] lemma exclude_done (w : Worklist α) {a : α} (h : a ∉ w.seen) :
    (w.exclude a h).done = insert a w.done := rfl

@[simp] lemma start_waiting (w : Worklist α) {a : α} (h : a ∈ w.waiting) :
    (w.start a h).waiting = w.waiting.erase a := rfl

@[simp] lemma start_active (w : Worklist α) {a : α} (h : a ∈ w.waiting) :
    (w.start a h).active = a ::ₘ w.active := rfl

@[simp] lemma settle_seen (w : Worklist α) {a : α} (h : a ∈ w.active) :
    (w.settle a h).seen = w.seen := rfl

@[simp] lemma settle_active (w : Worklist α) {a : α} (h : a ∈ w.active) :
    (w.settle a h).active = w.active.erase a := rfl

@[simp] lemma settle_done (w : Worklist α) {a : α} (h : a ∈ w.active) :
    (w.settle a h).done = insert a w.done := rfl

variable (ok : α → Prop) [DecidablePred ok]

/-- Note an element: one seen before changes nothing, a new one waits, or is
done at once if it is not admissible. -/
def discover (w : Worklist α) (a : α) : Worklist α :=
  if h : a ∈ w.seen then w else if ok a then w.push a h else w.exclude a h

/-- Note a list of elements in turn. -/
def discoverAll (w : Worklist α) (found : List α) : Worklist α := found.foldl (discover ok) w

lemma discoverAll_nil (w : Worklist α) : w.discoverAll ok [] = w := rfl

lemma discoverAll_cons (w : Worklist α) (a : α) (found : List α) :
    w.discoverAll ok (a :: found) = (w.discover ok a).discoverAll ok found := rfl

lemma discover_of_mem {w : Worklist α} {a : α} (h : a ∈ w.seen) : w.discover ok a = w :=
  dif_pos h

lemma discover_of_ok {w : Worklist α} {a : α} (h : a ∉ w.seen) (ha : ok a) :
    w.discover ok a = w.push a h := by
  rw [discover, dif_neg h, if_pos ha]

lemma discover_of_not_ok {w : Worklist α} {a : α} (h : a ∉ w.seen) (ha : ¬ ok a) :
    w.discover ok a = w.exclude a h := by
  rw [discover, dif_neg h, if_neg ha]

@[simp] lemma discover_seen (w : Worklist α) (a : α) :
    (w.discover ok a).seen = insert a w.seen := by
  by_cases h : a ∈ w.seen
  · rw [discover_of_mem ok h, Finset.insert_eq_of_mem h]
  · by_cases ha : ok a
    · rw [discover_of_ok ok h ha, push_seen]
    · rw [discover_of_not_ok ok h ha, exclude_seen]

@[simp] lemma discover_active (w : Worklist α) (a : α) : (w.discover ok a).active = w.active := by
  by_cases h : a ∈ w.seen
  · rw [discover_of_mem ok h]
  · by_cases ha : ok a
    · simp [discover_of_ok ok h ha, push]
    · simp [discover_of_not_ok ok h ha, exclude]

/-- Noting an element does no admissible work. -/
@[simp] lemma discover_filter_done (w : Worklist α) (a : α) :
    (w.discover ok a).done.filter ok = w.done.filter ok := by
  by_cases h : a ∈ w.seen
  · rw [discover_of_mem ok h]
  · by_cases ha : ok a
    · simp [discover_of_ok ok h ha, push]
    · rw [discover_of_not_ok ok h ha, exclude_done, Finset.filter_insert, if_neg ha]

/-- What waits after an element is noted waited before or is that element,
which is then admissible. -/
lemma mem_discover_waiting {w : Worklist α} {a b : α} (h : b ∈ (w.discover ok a).waiting) :
    b ∈ w.waiting ∨ ok b := by
  by_cases hs : a ∈ w.seen
  · rw [discover_of_mem ok hs] at h
    exact Or.inl h
  · by_cases ha : ok a
    · rw [discover_of_ok ok hs ha, push_waiting] at h
      rcases Multiset.mem_cons.mp h with rfl | h'
      · exact Or.inr ha
      · exact Or.inl h'
    · rw [discover_of_not_ok ok hs ha] at h
      exact Or.inl h

@[simp] lemma discoverAll_seen (w : Worklist α) (found : List α) :
    (w.discoverAll ok found).seen = w.seen ∪ found.toFinset := by
  induction found generalizing w with
  | nil => simp [discoverAll_nil]
  | cons a found ih =>
      rw [discoverAll_cons, ih, discover_seen, List.toFinset_cons, Finset.insert_union,
        Finset.union_insert]

@[simp] lemma discoverAll_active (w : Worklist α) (found : List α) :
    (w.discoverAll ok found).active = w.active := by
  induction found generalizing w with
  | nil => rfl
  | cons a found ih => rw [discoverAll_cons, ih, discover_active]

@[simp] lemma discoverAll_filter_done (w : Worklist α) (found : List α) :
    (w.discoverAll ok found).done.filter ok = w.done.filter ok := by
  induction found generalizing w with
  | nil => rfl
  | cons a found ih => rw [discoverAll_cons, ih, discover_filter_done]

lemma mem_discoverAll_waiting {w : Worklist α} {found : List α} {b : α}
    (h : b ∈ (w.discoverAll ok found).waiting) : b ∈ w.waiting ∨ ok b := by
  induction found generalizing w with
  | nil => exact Or.inl h
  | cons a found ih =>
      rcases ih h with h' | h'
      · exact mem_discover_waiting ok h'
      · exact Or.inr h'

/-! ### The machine of the moves -/

/-- One move of an exploration: work on an element begins, or ends having found
some elements. -/
inductive Move (α : Type*) where
  | start (a : α)
  | finish (a : α) (found : List α)

/-- The element a move starts. -/
def Move.started? : Move α → Option α
  | .start a => some a
  | .finish _ _ => none

/-- The elements a run starts, in order. -/
def started (ms : List (Move α)) : List α := ms.filterMap Move.started?

/-- One move, if the element is there to be moved. -/
def step (w : Worklist α) : Move α → Option (Worklist α)
  | .start a => if h : a ∈ w.waiting then some (w.start a h) else none
  | .finish a found =>
      if h : a ∈ w.active then
        some ((w.discoverAll ok found).settle a (by rw [discoverAll_active]; exact h))
      else none

/-- The worklist that starts from one element. -/
def init (seed : α) : Worklist α := empty.discover ok seed

/-- What a move does, its guard included. -/
lemma step_cases {w w' : Worklist α} {m : Move α} (h : w.step ok m = some w') :
    (∃ a, ∃ hw : a ∈ w.waiting, m = .start a ∧ w' = w.start a hw) ∨
    (∃ a found, ∃ hw : a ∈ (w.discoverAll ok found).active, m = .finish a found ∧
      w' = (w.discoverAll ok found).settle a hw) := by
  cases m with
  | start a =>
      rw [step] at h
      split at h
      · next hw => exact Or.inl ⟨a, hw, rfl, (Option.some.inj h).symm⟩
      · cases h
  | finish a found =>
      rw [step] at h
      split at h
      · exact Or.inr ⟨a, found, _, rfl, (Option.some.inj h).symm⟩
      · cases h

lemma step_start {w : Worklist α} {a : α} (h : a ∈ w.waiting) :
    w.step ok (.start a) = some (w.start a h) := dif_pos h

lemma step_finish {w : Worklist α} {a : α} (h : a ∈ w.active) (found : List α) :
    w.step ok (.finish a found)
      = some ((w.discoverAll ok found).settle a (by rw [discoverAll_active]; exact h)) :=
  dif_pos h

@[simp] lemma init_seen (seed : α) : (init ok seed).seen = {seed} := by
  simp [init, empty]

@[simp] lemma init_active (seed : α) : (init ok seed).active = 0 := discover_active ok empty seed

@[simp] lemma init_filter_done (seed : α) : (init ok seed).done.filter ok = ∅ :=
  discover_filter_done ok empty seed

/-- Whatever waits or is in progress is admissible. -/
theorem ok_of_mem {seed : α} {ms : List (Move α)} {w : Worklist α}
    (h : exec (step ok) (init ok seed) ms = some w) :
    ∀ a, a ∈ w.waiting ∨ a ∈ w.active → ok a := by
  refine exec_invariant (P := fun w => ∀ a, a ∈ w.waiting ∨ a ∈ w.active → ok a) ?_ ?_ h
  · intro w m w' ih hstep
    obtain ⟨a, hw, -, rfl⟩ | ⟨a, found, hw, -, rfl⟩ := step_cases ok hstep
    · intro b hb
      rcases hb with hb | hb
      · exact ih b (Or.inl (Multiset.mem_of_mem_erase hb))
      · rcases Multiset.mem_cons.mp hb with rfl | hb'
        · exact ih b (Or.inl hw)
        · exact ih b (Or.inr hb')
    · intro b hb
      rcases hb with hb | hb
      · rcases mem_discoverAll_waiting ok hb with hb' | hb'
        · exact ih b (Or.inl hb')
        · exact hb'
      · have hb' := Multiset.mem_of_mem_erase hb
        rw [discoverAll_active] at hb'
        exact ih b (Or.inr hb')
  · intro a ha
    have ha' : a ∈ (init ok seed).waiting := by simpa using ha
    rcases mem_discover_waiting ok ha' with hempty | hok
    · simp [empty] at hempty
    · exact hok

/-- **Each element is started at most once**: the elements a run has started
are, with multiplicity, those in progress and the admissible ones done. -/
theorem started_eq {seed : α} {ms : List (Move α)} {w : Worklist α}
    (h : exec (step ok) (init ok seed) ms = some w) :
    (started ms : Multiset α) = w.active + (w.done.filter ok).val := by
  refine exec_trace_induction
    (P := fun ms w => (started ms : Multiset α) = w.active + (w.done.filter ok).val) ?_ ?_ h
  · simp [started]
  · intro ms m w w' hrun ih hstep
    rw [started, List.filterMap_append, ← Multiset.coe_add, ← started, ih]
    obtain ⟨a, hw, rfl, rfl⟩ | ⟨a, found, hw, rfl, rfl⟩ := step_cases ok hstep
    · show w.active + (w.done.filter ok).val + {a} = a ::ₘ w.active + (w.done.filter ok).val
      rw [add_comm _ ({a} : Multiset α), Multiset.singleton_add, Multiset.cons_add]
    · have ha : a ∈ w.active := by rwa [discoverAll_active] at hw
      have hok : ok a := ok_of_mem ok hrun a (Or.inr ha)
      have hd : a ∉ w.done.filter ok :=
        fun hd => notMem_done_of_active ha (Finset.mem_of_mem_filter a hd)
      have hdone : ((w.discoverAll ok found).settle a hw).done.filter ok
          = insert a (w.done.filter ok) := by
        rw [settle_done, Finset.filter_insert, if_pos hok, discoverAll_filter_done]
      calc w.active + (w.done.filter ok).val + 0
          = a ::ₘ (w.active.erase a) + (w.done.filter ok).val := by
            rw [add_zero, Multiset.cons_erase ha]
        _ = w.active.erase a + (insert a (w.done.filter ok)).val := by
            rw [Finset.insert_val_of_notMem hd, Multiset.add_cons, Multiset.cons_add]
        _ = ((w.discoverAll ok found).settle a hw).active
            + (((w.discoverAll ok found).settle a hw).done.filter ok).val := by
            rw [hdone, settle_active, discoverAll_active]

/-- No run starts an element twice. -/
theorem started_nodup {seed : α} {ms : List (Move α)} {w : Worklist α}
    (h : exec (step ok) (init ok seed) ms = some w) : (started ms).Nodup := by
  rw [← Multiset.coe_nodup, started_eq ok h]
  refine Multiset.nodup_add.mpr ⟨w.active_nodup, (w.done.filter ok).nodup, ?_⟩
  refine Multiset.disjoint_left.mpr fun ha hd => ?_
  exact notMem_done_of_active ha (Finset.mem_of_mem_filter _ hd)

end Worklist
