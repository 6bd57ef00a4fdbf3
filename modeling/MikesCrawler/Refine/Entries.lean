/-
The entries of a crawl: where one comes from, that it stays, and that it is
written once.

* `CrawlInner.entry`: what a crawl has recorded of a url;
* `Run.entry_cases`: an entry records an exclusion, or the visit that an answer
  of the client determines;
* `Run.entry_persists`: an entry never changes;
* `Crawl.Logged`, `Run.logged`: each key was given to `result.pages.insert` once.
-/
import MikesCrawler.Refine.History

open Machine

namespace MikesCrawler

variable {Url : Type} [DecidableEq Url] [Externals Url]

/-! ### Noting urls and the entries -/

namespace Crawl

/-- The entry of a url, if it has one. -/
abbrev entry (crawl : Crawl Url) (url : Url) : Option (PageResult Url) :=
  crawl.result.pages.lookup url

omit [Externals Url] in
lemma entry_insertPage_self (crawl : Crawl Url) (url : Url) (page : PageResult Url) :
    (crawl.insertPage url page).entry url = some page := Finmap.lookup_insert _

omit [Externals Url] in
lemma entry_insertPage_of_ne (crawl : Crawl Url) {url url' : Url} (h : url' ≠ url)
    (page : PageResult Url) : (crawl.insertPage url page).entry url' = crawl.entry url' :=
  Finmap.lookup_insert_of_ne _ h

omit [Externals Url] in
lemma mem_keys_of_entry {crawl : Crawl Url} {url : Url} {page : PageResult Url}
    (h : crawl.entry url = some page) : url ∈ crawl.result.pages.keys :=
  Finmap.mem_keys.mpr (Finmap.mem_of_lookup_eq_some h)

omit [Externals Url] in
lemma exists_entry {crawl : Crawl Url} {url : Url} (h : url ∈ crawl.result.pages.keys) :
    ∃ page, crawl.entry url = some page :=
  Option.isSome_iff_exists.mp (Finmap.lookup_isSome.mpr (Finmap.mem_keys.mp h))

/-- Noting a url adds no entry but that of an exclusion. -/
lemma entry_discover {crawl : Crawl Url} {url url' : Url} {page : PageResult Url}
    (h : (crawl.discover url).entry url' = some page) :
    crawl.entry url' = some page ∨
      (crawl.allowedByRobots url' = false ∧ page = .excludedByRobotsTxt) := by
  obtain ⟨-, heq⟩ | ⟨-, -, heq⟩ | ⟨-, ha, heq⟩ := crawl.discover_cases url
  · rw [heq] at h
    exact Or.inl h
  · rw [heq] at h
    exact Or.inl h
  · rw [heq, exclude] at h
    by_cases hu : url' = url
    · rw [hu, entry_insertPage_self] at h
      rw [hu]
      exact Or.inr ⟨ha, (Option.some.inj h).symm⟩
    · rw [entry_insertPage_of_ne _ hu] at h
      exact Or.inl h

lemma entry_discoverAll {crawl : Crawl Url} {urls : List Url} {url' : Url}
    {page : PageResult Url} (h : (crawl.discoverAll urls).entry url' = some page) :
    crawl.entry url' = some page ∨
      (crawl.allowedByRobots url' = false ∧ page = .excludedByRobotsTxt) := by
  induction urls generalizing crawl with
  | nil => exact Or.inl h
  | cons url urls ih =>
      rcases ih h with h' | h'
      · exact entry_discover h'
      · rw [allowedByRobots, discover_robots] at h'
        exact Or.inr h'

/-! ### The log of a crawl -/

/-- The crawl has an entry only for what it has seen, and its log has each key
once. -/
structure Logged (crawl : Crawl Url) : Prop where
  keys_subset : crawl.result.pages.keys ⊆ crawl.seen
  inserts_eq : (crawl.inserts : Multiset Url) = crawl.result.pages.keys.val

omit [Externals Url] in
lemma Logged.insertPage {crawl : Crawl Url} (h : crawl.Logged) {url : Url}
    (hseen : url ∈ crawl.seen) (hnew : url ∉ crawl.result.pages.keys) (page : PageResult Url) :
    (crawl.insertPage url page).Logged where
  keys_subset := by
    rw [Crawl.insertPage, keys_insert]
    exact Finset.insert_subset hseen h.keys_subset
  inserts_eq := by
    rw [Crawl.insertPage, keys_insert, Finset.insert_val_of_notMem hnew, ← h.inserts_eq,
      ← Multiset.coe_add, Multiset.add_comm]
    rfl

lemma Logged.discover {crawl : Crawl Url} (h : crawl.Logged) (url : Url) :
    (crawl.discover url).Logged := by
  obtain ⟨-, heq⟩ | ⟨-, -, heq⟩ | ⟨hs, -, heq⟩ := crawl.discover_cases url
  · rw [heq]
    exact h
  · rw [heq]
    exact ⟨h.keys_subset.trans (Finset.subset_insert _ _), h.inserts_eq⟩
  · rw [heq]
    have hseen : ({ crawl with seen := insert url crawl.seen } : Crawl Url).Logged :=
      ⟨h.keys_subset.trans (Finset.subset_insert _ _), h.inserts_eq⟩
    exact hseen.insertPage (Finset.mem_insert_self _ _) (fun hk => hs (h.keys_subset hk)) _

/-- Noting urls changes no entry. -/
lemma entry_discover_of_some {crawl : Crawl Url} (h : crawl.Logged) {url url' : Url}
    {page : PageResult Url} (he : crawl.entry url' = some page) :
    (crawl.discover url).entry url' = some page := by
  obtain ⟨-, heq⟩ | ⟨-, -, heq⟩ | ⟨hs, -, heq⟩ := crawl.discover_cases url
  · rw [heq]
    exact he
  · rw [heq]
    exact he
  · rw [heq, exclude]
    have hne : url' ≠ url := fun hu => hs (hu ▸ h.keys_subset (mem_keys_of_entry he))
    rw [entry_insertPage_of_ne _ hne]
    exact he

lemma discoverAll_keeps {crawl : Crawl Url} (h : crawl.Logged) (urls : List Url) :
    (crawl.discoverAll urls).Logged ∧ crawl.seen ⊆ (crawl.discoverAll urls).seen ∧
      ∀ url page, crawl.entry url = some page →
        (crawl.discoverAll urls).entry url = some page := by
  induction urls generalizing crawl with
  | nil => exact ⟨h, Finset.Subset.refl _, fun _ _ he => he⟩
  | cons url urls ih =>
      obtain ⟨hlog, hseen, hentry⟩ := ih (h.discover url)
      refine ⟨hlog, Finset.Subset.trans ?_ hseen, fun url' page he =>
        hentry url' page (entry_discover_of_some h he)⟩
      obtain ⟨-, heq⟩ | ⟨-, -, heq⟩ | ⟨-, -, heq⟩ := crawl.discover_cases url <;> rw [heq]
      · exact Finset.subset_insert _ _
      · exact Finset.subset_insert _ _

end Crawl

/-! ### The entries of a run -/

variable {robots : Option String} {seed : Url} {es : List (Event Url)} {s : CrawlInner Url}

/-- What a crawl has recorded of a url. -/
abbrev CrawlInner.entry (s : CrawlInner Url) (url : Url) : Option (PageResult Url) :=
  s.crawl.data.entry url

/-- Noting urls gives no entry to a url in flight. -/
lemma Run.notMem_keys_discoverAll (h : Run robots seed es s) (hrun : s.outcome = none)
    {url : Url} {state : StepState} (hmem : (url, state) ∈ s.inFlight) (urls : List Url) :
    url ∉ (s.crawl.data.discoverAll urls).result.pages.keys := by
  have hflight := CrawlInner.mem_unfinished_of_mem hmem
  intro hk
  obtain ⟨page, hpage⟩ := Crawl.exists_entry hk
  rcases Crawl.entry_discoverAll hpage with he | ⟨ha, -⟩
  · exact h.notMem_keys hrun hflight (Crawl.mem_keys_of_entry he)
  · have hallowed := (h.allowed).1 hrun url (Or.inr hflight)
    rw [Crawl.allowedByRobots, h.robots_eq, hallowed] at ha
    cases ha

/-- A crawl has entries only for what it has seen, and its log has each key
once. -/
theorem Run.logged (h : Run robots seed es s) : s.crawl.data.Logged := by
  refine Run.induction (P := fun _ s => s.crawl.data.Logged) ?_ ?_ h
  · rw [begin_crawl]
    exact (⟨Finset.Subset.refl _, rfl⟩ : ({ robots } : Crawl Url).Logged).discover seed
  · intro es e s s' hs _ ih ht
    cases ht with
    | @settle _ url state v running _ _ mem _ =>
        obtain ⟨hlog, hseen, -⟩ := Crawl.discoverAll_keeps ih v.found
        have hmem := CrawlInner.mem_unfinished_of_mem mem
        exact hlog.insertPage (hseen (hs.unfinished_mem_seen running hmem))
          (hs.notMem_keys_discoverAll running mem v.found) v.entry
    | start | suspend | fail | resume | stop | abort | poison =>
        exact ⟨ih.keys_subset, ih.inserts_eq⟩

/-- One event changes no entry. -/
lemma Run.entry_trans (h : Run robots seed es s) {e : Event Url} {s' : CrawlInner Url}
    (ht : s.Trans e s') {url : Url} {page : PageResult Url} (he : s.entry url = some page) :
    s'.entry url = some page := by
  cases ht with
  | @settle _ url' state v running _ _ mem _ =>
      have hne : url ≠ url' := fun hu =>
        h.notMem_keys running (CrawlInner.mem_unfinished_of_mem mem)
          (hu ▸ Crawl.mem_keys_of_entry he)
      obtain ⟨-, -, hkeep⟩ := Crawl.discoverAll_keeps h.logged v.found
      exact (Crawl.entry_insertPage_of_ne _ hne _).trans (hkeep url page he)
  | start | suspend | fail | resume | stop | abort | poison => exact he

/-- **An entry never changes.** -/
theorem Run.entry_persists {fs : List (Event Url)} {s' : CrawlInner Url}
    (h : Run robots seed es s) (h' : exec CrawlInner.step s fs = some s') {url : Url}
    {page : PageResult Url} (he : s.entry url = some page) : s'.entry url = some page :=
  Run.persists (P := fun s => s.entry url = some page)
    (fun _ _ _ _ hrun ht he => hrun.entry_trans ht he) h he h'

/-- The event an entry comes from: an entry records an exclusion, or the visit
that ended the step of its url. -/
lemma Run.entry_event (h : Run robots seed es s) {url : Url} {page : PageResult Url}
    (he : s.entry url = some page) :
    (¬ Allowed robots url ∧ page = .excludedByRobotsTxt) ∨
      (Allowed robots url ∧ ∃ e ∈ es, ∃ state v, e.ends = some (url, state) ∧
        e.visit = some v ∧ page = v.entry) := by
  revert url page
  refine Run.induction (P := fun es s => ∀ {url page}, s.entry url = some page →
    (¬ Allowed robots url ∧ page = .excludedByRobotsTxt) ∨
      (Allowed robots url ∧ ∃ e ∈ es, ∃ state v, e.ends = some (url, state) ∧
        e.visit = some v ∧ page = v.entry)) ?_ ?_ h
  · intro url page he
    rw [CrawlInner.entry, begin_crawl] at he
    rcases Crawl.entry_discover he with he' | ⟨ha, hpage⟩
    · cases he'
    · exact Or.inl ⟨not_allowed ha, hpage⟩
  · intro es e s s' hs _ ih ht url page he
    have hold : s.entry url = some page →
        (¬ Allowed robots url ∧ page = .excludedByRobotsTxt) ∨
          (Allowed robots url ∧ ∃ e' ∈ es ++ [e], ∃ state v, e'.ends = some (url, state) ∧
            e'.visit = some v ∧ page = v.entry) := by
      intro he
      rcases ih he with hexcl | ⟨hok, e', hmem, rest⟩
      · exact Or.inl hexcl
      · exact Or.inr ⟨hok, e', List.mem_append_left _ hmem, rest⟩
    cases ht with
    | @settle _ url' state v running ends visit mem _ =>
        by_cases hu : url = url'
        · subst hu
          have hallowed := hs.allowed.1 running url (Or.inr (CrawlInner.mem_unfinished_of_mem mem))
          have hpage := Crawl.entry_insertPage_self (s.crawl.data.discoverAll v.found) url v.entry
          exact Or.inr ⟨hallowed, e, by simp, state, v, ends, visit,
            Option.some.inj (he.symm.trans hpage)⟩
        · have he' := (Crawl.entry_insertPage_of_ne _ hu _).symm.trans he
          rcases Crawl.entry_discoverAll he' with he' | ⟨ha, hpage⟩
          · exact hold he'
          · rw [Crawl.allowedByRobots, hs.robots_eq] at ha
            exact Or.inl ⟨not_allowed ha, hpage⟩
    | start | suspend | fail | resume | stop | abort | poison => exact hold he

/-- **Where an entry comes from**: it records an exclusion, or the visit that
an answer of the client determines. -/
theorem Run.entry_cases (h : Run robots seed es s) {url : Url} {page : PageResult Url}
    (he : s.entry url = some page) :
    (¬ Allowed robots url ∧ page = .excludedByRobotsTxt) ∨
      (Allowed robots url ∧ ∃ v, Answered es url v ∧ page = v.entry) := by
  rcases h.entry_event he with hexcl | ⟨hallowed, e, hmem, state, v, hends, hvisit, hpage⟩
  · exact Or.inl hexcl
  · exact Or.inr ⟨hallowed, v, h.answered_of_visit hmem hends hvisit, hpage⟩

end MikesCrawler
