/-
What `status` reports of the crawls in progress.

* `mapM_eq_ok_iff`, `map_eq_of_forall₂`: collecting results, element by element;
* `SeedsApart`: no two calls are made with one seed;
* `ProdCrawler.Reports`: `status` has exactly one entry for each live call, with
  the call's own seed and counts;
* `ServerRun.lookup_of_live`: if no two live calls share a seed, each live call
  holds the slot of its seed;
* `status_reports_iff`: `status` reports the live calls throughout a run exactly
  if no two calls with one seed are live at the same time.
-/
import MikesCrawler.Refine.Registry
import MikesCrawler.Model.PlainUrl

open Machine

namespace MikesCrawler

/-! ### Collecting results -/

section Collecting

variable {α β ε : Type} {f : α → Except ε β}

/-- Collecting goes through if the first result and the rest are values. -/
lemma mapM_cons_eq_ok_iff {a : α} {l : List α} {bs : List β} :
    (a :: l).mapM f = .ok bs ↔ ∃ b bs', f a = .ok b ∧ l.mapM f = .ok bs' ∧ bs = b :: bs' := by
  rw [List.mapM_cons]
  cases ha : f a with
  | error e => simp [bind, Except.bind]
  | ok b =>
      cases hl : l.mapM f with
      | error e => simp [bind, Except.bind]
      | ok bs' => simp [bind, Except.bind, pure, Except.pure, eq_comm]

/-- A list of results collects to their values. -/
lemma mapM_eq_ok_iff {l : List α} {bs : List β} :
    l.mapM f = .ok bs ↔ List.Forall₂ (fun a b => f a = .ok b) l bs := by
  induction l generalizing bs with
  | nil =>
      rw [List.mapM_nil, List.forall₂_nil_left_iff]
      exact ⟨fun h => (Except.ok.inj h).symm, fun h => congrArg Except.ok h.symm⟩
  | cons a l ih =>
      rw [mapM_cons_eq_ok_iff, List.forall₂_cons_left_iff]
      simp only [ih]

end Collecting

/-- Lists related by a common value have the same values. -/
lemma map_eq_of_forall₂ {α β γ : Type} {f : α → γ} {g : β → γ} {l : List α} {m : List β}
    (h : List.Forall₂ (fun a b => f a = g b) l m) : l.map f = m.map g := by
  rw [← List.forall₂_eq_eq_eq, List.forall₂_map_left_iff, List.forall₂_map_right_iff]
  exact h

/-- Elements that each relate to something relate to a list. -/
lemma exists_forall₂ {α β : Type} {R : α → β → Prop} {l : List α} (h : ∀ a ∈ l, ∃ b, R a b) :
    ∃ m, List.Forall₂ R l m := by
  induction l with
  | nil => exact ⟨[], .nil⟩
  | cons a l ih =>
      obtain ⟨b, hb⟩ := h a List.mem_cons_self
      obtain ⟨m, hm⟩ := ih fun a' ha' => h a' (List.mem_cons_of_mem a ha')
      exact ⟨b :: m, .cons hb hm⟩

/-- What stands in a list related to another relates to something there. -/
lemma exists_of_forall₂ {α β : Type} {R : α → β → Prop} {l : List α} {m : List β}
    (h : List.Forall₂ R l m) {b : β} (hb : b ∈ m) : ∃ a ∈ l, R a b := by
  induction h with
  | nil => cases hb
  | @cons a b' l m hab _ ih =>
      rcases List.mem_cons.mp hb with rfl | hb
      · exact ⟨a, List.mem_cons_self, hab⟩
      · obtain ⟨a', ha', hR⟩ := ih hb
        exact ⟨a', List.mem_cons_of_mem a ha', hR⟩

variable {Url : Type} [DecidableEq Url] [Externals Url]

/-! ### Calls with different seeds -/

/-- No two calls are made with one seed. -/
def SeedsApart (es : List (ServerEvent Url)) : Prop :=
  ∀ i j seed, .crawl i seed ∈ es → .crawl j seed ∈ es → i = j

omit [DecidableEq Url] [Externals Url] in
lemma SeedsApart.of_append {es fs : List (ServerEvent Url)} (h : SeedsApart (es ++ fs)) :
    SeedsApart es := fun i j seed hi hj =>
  h i j seed (List.mem_append_left _ hi) (List.mem_append_left _ hj)

lemma seedsApart_pairEvents : SeedsApart PlainUrl.pairEvents := by
  have hcall : ∀ i seed, .crawl i seed ∈ PlainUrl.pairEvents →
      i = if seed = PlainUrl.site "/" then 0 else 1 := by
    intro i seed hmem
    simp [PlainUrl.pairEvents] at hmem
    obtain ⟨rfl, rfl⟩ | ⟨rfl, rfl⟩ := hmem <;> rfl
  exact fun i j seed hi hj => (hcall i seed hi).trans (hcall j seed hj).symm

/-! ### What `status` should report -/

omit [DecidableEq Url] [Externals Url] in
/-- The status of a call in its loop: its own seed and counts. -/
def Call.Reported (call : Call Url) (status : CrawlStatus Url) : Prop :=
  ∃ inner, call = .registered status.seed inner ∧
    status.done = inner.crawl.data.result.pages.keys.card ∧
    status.todo = inner.crawl.data.seen.card - inner.crawl.data.result.pages.keys.card

/-- **`status` reports every crawl in progress**: it has exactly one entry for
each live call, with the call's own seed and counts. -/
def ProdCrawler.Reports (s : ProdCrawler Url) : Prop :=
  ∃ ids statuses, ids.Nodup ∧ (∀ i, i ∈ ids ↔ ∃ seed, s.Live i seed) ∧
    s.status = .ok statuses ∧
    List.Forall₂ (fun i status => ∃ call, s.calls i = some call ∧ call.Reported status) ids statuses

/-- No two live calls share a seed. -/
def ProdCrawler.SeedsDistinct (s : ProdCrawler Url) : Prop :=
  ∀ i j seed, s.Live i seed → s.Live j seed → i = j

variable {es : List (ServerEvent Url)} {s : ProdCrawler Url}

omit [DecidableEq Url] [Externals Url] in
lemma ProdCrawler.slotStatus_seed {slot : (_ : Url) × CallId} {status : CrawlStatus Url}
    (h : s.slotStatus slot = .ok status) : status.seed = slot.1 := by
  rw [slotStatus] at h
  split at h
  · cases h
  · split at h
    · cases h
    · rw [Crawl.status] at h
      split at h
      · cases h
      · cases h
        rfl

/-- `status` collects the statuses of the slots. -/
lemma ServerRun.status_eq_ok_iff (h : ServerRun es s) {statuses : List (CrawlStatus Url)} :
    s.status = .ok statuses ↔ List.Forall₂ (fun slot status => s.slotStatus slot = .ok status)
      s.crawls.data.entries statuses := by
  rw [← mapM_eq_ok_iff, ProdCrawler.status]
  simp only [lockMapErr, h.unpoisoned, Bool.false_eq_true, if_false]

/-- The seeds that `status` lists are those of the slots. -/
lemma ServerRun.seeds_eq_keys (h : ServerRun es s) {statuses : List (CrawlStatus Url)}
    (hstatus : s.status = .ok statuses) :
    statuses.map CrawlStatus.seed = s.crawls.data.keys :=
  (map_eq_of_forall₂ ((h.status_eq_ok_iff.mp hstatus).imp
    fun _ _ hslot => (ProdCrawler.slotStatus_seed hslot).symm)).symm

/-- A crawler whose `status` reports the live calls has no two with one seed. -/
lemma ServerRun.seedsDistinct_of_reports (h : ServerRun es s) (hreports : s.Reports) :
    s.SeedsDistinct := by
  obtain ⟨ids, statuses, -, hmem, hstatus, hall⟩ := hreports
  have hkeys := h.seeds_eq_keys hstatus
  have hseeds : ids.map (fun i => (s.calls i).map Call.seed)
      = statuses.map (fun status => some status.seed) := by
    refine map_eq_of_forall₂ (hall.imp ?_)
    rintro i status ⟨call, hi, inner, rfl, -, -⟩
    rw [hi]
    rfl
  have hnodup : (ids.map fun i => (s.calls i).map Call.seed).Nodup := by
    rw [hseeds, ← Function.comp_def some CrawlStatus.seed, ← List.map_map, hkeys]
    exact s.crawls.data.keys_nodup.map (Option.some_injective _)
  rintro i j seed ⟨inner, hi⟩ ⟨inner', hj⟩
  refine List.inj_on_of_nodup_map hnodup ((hmem i).mpr ⟨seed, inner, hi⟩)
    ((hmem j).mpr ⟨seed, inner', hj⟩) ?_
  rw [hi, hj]
  rfl

/-- If no two live calls have shared a seed, each live call holds the slot of
its seed. -/
lemma ServerRun.lookup_of_live (h : ServerRun es s) (hpanic : Unpanicked es)
    (hdistinct : ∀ fs t, fs <+: es → ServerRun fs t → t.SeedsDistinct) {i : CallId} {seed : Url}
    (hlive : s.Live i seed) : s.crawls.data.lookup seed = some i := by
  revert hdistinct i seed
  refine h.registry_induction (P := fun es s =>
    (∀ fs t, fs <+: es → ServerRun fs t → t.SeedsDistinct) →
      ∀ {i seed}, s.Live i seed → s.crawls.data.lookup seed = some i) ?_ ?_ hpanic
  · rintro - i seed ⟨inner, hi⟩
    cases hi
  · intro es e s s' hs hs' ih hstep hdistinct i seed hlive
    have hold : ∀ {i seed}, s.Live i seed → s.crawls.data.lookup seed = some i :=
      ih fun fs t hfs => hdistinct fs t (hfs.trans (List.prefix_append es [e]))
    cases hstep with
    | keep crawls live =>
        rw [crawls]
        exact hold ((live i seed).mp hlive)
    | @insert j seed' fresh crawls live =>
        rw [crawls]
        rcases (live i seed).mp hlive with ⟨rfl, rfl⟩ | hlive'
        · exact AList.lookup_insert _
        · have hne : seed ≠ seed' := by
            rintro rfl
            have hj : s'.Live j seed := (live j seed).mpr (Or.inl ⟨rfl, rfl⟩)
            have hij := hdistinct _ s' (List.prefix_refl _) hs' i j seed hlive hj
            exact fresh seed (hij ▸ hlive')
          rw [AList.lookup_insert_ne hne]
          exact hold hlive'
    | @erase j seed' ending crawls live =>
        rw [crawls]
        obtain ⟨hij, hlive'⟩ := (live i seed).mp hlive
        have hne : seed ≠ seed' := by
          rintro rfl
          exact hij (hdistinct _ s (List.prefix_append es [e]) hs i j seed hlive' ending)
        rw [AList.lookup_erase_ne hne]
        exact hold hlive'

/-- If each live call holds the slot of its seed, `status` reports them. -/
lemma ServerRun.reports_of_lookup (h : ServerRun es s) (hpanic : Unpanicked es)
    (hpoison : Unpoisoned es)
    (hlookup : ∀ i seed, s.Live i seed → s.crawls.data.lookup seed = some i) : s.Reports := by
  have hslot : ∀ slot ∈ s.crawls.data.entries, s.Live slot.2 slot.1 := fun slot hmem =>
    h.slot_live hpanic (AList.mem_lookup_iff.mpr hmem)
  obtain ⟨statuses, hall⟩ : ∃ statuses, List.Forall₂ (fun slot status =>
      s.slotStatus slot = .ok status ∧ ∃ call, s.calls slot.2 = some call ∧ call.Reported status)
      s.crawls.data.entries statuses := by
    refine exists_forall₂ fun slot hmem => ?_
    obtain ⟨inner, hi⟩ := hslot slot hmem
    exact ⟨_, h.slotStatus_of_live hpoison hi, _, hi, inner, rfl, rfl, rfl⟩
  refine ⟨s.crawls.data.entries.map Sigma.snd, statuses, ?_, fun i => ?_, ?_, ?_⟩
  · refine List.Nodup.map_on (fun slot hmem slot' hmem' heq => ?_) s.crawls.data.nodupKeys.nodup
    have hseed := (hslot slot hmem).seed_eq (heq ▸ hslot slot' hmem')
    exact Sigma.ext hseed (heq_of_eq heq)
  · rw [List.mem_map]
    constructor
    · rintro ⟨slot, hmem, rfl⟩
      exact ⟨slot.1, hslot slot hmem⟩
    · rintro ⟨seed, hlive⟩
      exact ⟨⟨seed, i⟩, AList.mem_lookup_iff.mp (hlookup i seed hlive), rfl⟩
  · exact h.status_eq_ok_iff.mpr (hall.imp fun slot status hs => hs.1)
  · rw [List.forall₂_map_left_iff]
    exact hall.imp fun slot status hs => hs.2

/-- **`status` reports every crawl in progress throughout a run exactly if no
two calls with one seed are live at the same time.** -/
theorem status_reports_iff (hpanic : Unpanicked es) (hpoison : Unpoisoned es) :
    (∀ fs s, fs <+: es → ServerRun fs s → s.Reports) ↔
      ∀ fs s, fs <+: es → ServerRun fs s → s.SeedsDistinct := by
  have hpre : ∀ {fs}, fs <+: es → Unpanicked fs ∧ Unpoisoned fs := fun hfs =>
    ⟨fun i locked hmem => hpanic i locked (hfs.subset hmem),
      fun i hmem => hpoison i (hfs.subset hmem)⟩
  constructor
  · intro hreports fs s hfs hrun
    exact hrun.seedsDistinct_of_reports (hreports fs s hfs hrun)
  · intro hdistinct fs s hfs hrun
    obtain ⟨hpanic', hpoison'⟩ := hpre hfs
    refine hrun.reports_of_lookup hpanic' hpoison' fun i seed hlive => ?_
    exact hrun.lookup_of_live hpanic' (fun gs t hgs => hdistinct gs t (hgs.trans hfs)) hlive

/-- Two live calls with different seeds are both reported. -/
theorem status_reports_pair :
    ∃ s, ServerRun PlainUrl.pairEvents s ∧ s.Live 0 (PlainUrl.site "/") ∧
      s.Live 1 (PlainUrl.site "/a") ∧ s.Reports := by
  have hpanic : Unpanicked PlainUrl.pairEvents := by
    intro i locked hmem
    simp [PlainUrl.pairEvents] at hmem
  have hpoison : Unpoisoned PlainUrl.pairEvents := by
    intro i hmem
    simp [PlainUrl.pairEvents] at hmem
  refine ⟨_, rfl, ⟨_, rfl⟩, ⟨_, rfl⟩, ?_⟩
  refine (status_reports_iff hpanic hpoison).mpr ?_ _ _ (List.prefix_refl _) rfl
  rintro fs s hfs hrun i j seed ⟨inner, hi⟩ ⟨inner', hj⟩
  exact seedsApart_pairEvents i j seed (hfs.subset (hrun.crawl_mem hi))
    (hfs.subset (hrun.crawl_mem hj))

/-- Two calls with one seed: the second takes the slot of the first, and
`status` reports one of them only. -/
theorem status_hides_twin :
    ∃ es s, ServerRun es s ∧ Unpanicked es ∧ Unpoisoned es ∧
      s.Live 0 (PlainUrl.site "/") ∧ s.Live 1 (PlainUrl.site "/") ∧
      s.status = .ok [{ seed := PlainUrl.site "/", done := 0, todo := 1 }] ∧ ¬ s.Reports := by
  have hrun : ∃ s, ServerRun (PlainUrl.twinEvents.take 6) s ∧
      s.Live 0 (PlainUrl.site "/") ∧ s.Live 1 (PlainUrl.site "/") ∧
      s.status = .ok [{ seed := PlainUrl.site "/", done := 0, todo := 1 }] :=
    ⟨_, rfl, ⟨_, rfl⟩, ⟨_, rfl⟩, by decide⟩
  obtain ⟨s, hrun, hzero, hone, hstatus⟩ := hrun
  refine ⟨_, s, hrun, ?_, ?_, hzero, hone, hstatus, fun hreports => ?_⟩
  · intro i locked hmem
    simp [PlainUrl.twinEvents] at hmem
  · intro i hmem
    simp [PlainUrl.twinEvents] at hmem
  · exact absurd (hrun.seedsDistinct_of_reports hreports 0 1 _ hzero hone) (by decide)

end MikesCrawler
