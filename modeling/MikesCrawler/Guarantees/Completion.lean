/-
A crawl of a finite site comes to an end, and always to the same one.

* `Run.busy`, `Run.closed_enabled`: with an allowed seed the channel, the client
  and the parse tasks always let something happen until the loop returns;
* `Run.closed_bounded`, `Run.completes`: what they let happen is bounded, so
  that every run goes on to one in which the loop has returned;
* `Verdict`: what a loop that has returned must have come to;
* `crawl_completes`: the closed loop ends, only by returning, and always with
  the same verdict, whatever happens in which order.
-/
import MikesCrawler.Guarantees.Termination
import MikesCrawler.Model.Environment

open Machine

namespace MikesCrawler

variable {Url : Type} [DecidableEq Url] [Externals Url]
variable {get : Url → Except Error (HttpResponse Url)} {parse : Url → Except Error Unit}
variable {robots : Option String} {seed : Url} {es : List (Event Url)} {s : CrawlInner Url}

/-! ### Something always happens -/

/-- The crawl of an allowed seed never waits. -/
lemma Run.busy (h : Run robots seed es s) (hseed : robotsAllow robots seed = true) :
    s.outcome = none → ¬ s.Waiting := by
  refine Run.induction (P := fun _ s => s.outcome = none → ¬ s.Waiting) ?_ ?_ h
  · rintro - ⟨hqueue, -, -⟩
    rw [begin_queue, if_pos hseed] at hqueue
    cases hqueue
  · intro es e s s' hs _ ih ht hrun'
    exact hs.busy_trans ht hrun' (ih (ht.running hrun'))

/-- A completed step can be consumed. -/
lemma CrawlInner.exists_next (hrun : s.outcome = none) (hcompleted : s.completed ≠ []) :
    ∃ s', s.step .next = some s' := by
  obtain ⟨⟨url, result⟩, completed, hcons⟩ := List.exists_cons_of_ne_nil hcompleted
  cases result with
  | error e => exact ⟨_, step_next_error hrun hcons⟩
  | ok _ =>
      rw [step, hrun, hcons]
      simp only [lockMapErr]
      by_cases hp : s.crawl.poisoned = true
      · simp [hp]
      · by_cases hcard : s.crawl.data.result.pages.keys.card = s.crawl.data.seen.card
        · simp [hp, hcard]
        · simp [hp, hcard]

/-- **The closed loop goes on until it returns.** -/
theorem Run.closed_enabled (h : Run robots seed es s) (hseed : robotsAllow robots seed = true)
    (hrun : s.outcome = none) : ∃ e s', s.closedStep get parse e = some s' := by
  have hlets : ∀ e, s.inOrder e = true → e.answers get parse = true →
      (∃ s', s.step e = some s') → ∃ e s', s.closedStep get parse e = some s' := by
    rintro e horder hanswers ⟨s', hstep⟩
    exact ⟨e, s', CrawlInner.closedStep_eq_some.mpr ⟨⟨horder, hanswers⟩, hstep⟩⟩
  by_cases hcompleted : s.completed = []
  · cases hflight : s.inFlight with
    | cons step rest =>
        obtain ⟨url, state⟩ := step
        have hmem : (url, state) ∈ s.inFlight := by simp [hflight]
        cases state with
        | fetching =>
            exact hlets (.got url (get url)) rfl (decide_eq_true rfl) ⟨_, if_pos ⟨hrun, hmem⟩⟩
        | parsing body =>
            exact hlets (.parsed url body (parse url)) rfl (decide_eq_true rfl)
              ⟨_, if_pos ⟨hrun, hmem⟩⟩
    | nil =>
        -- nothing is in flight or to be consumed, so something is queued
        have hqueue : s.crawl.data.todo.queue ≠ [] := fun hqueue =>
          h.busy hseed hrun ⟨hqueue, hflight, hcompleted⟩
        obtain ⟨url, queue, hcons⟩ := List.exists_cons_of_ne_nil hqueue
        refine hlets (.start url) ?_ rfl ⟨_, if_pos ⟨hrun, ?_, ?_⟩⟩
        · simp [CrawlInner.inOrder, hcons]
        · simp [hcons]
        · simp [hflight]
  · exact hlets .next rfl rfl (CrawlInner.exists_next hrun hcompleted)

/-- The closed loop is stuck exactly when it has returned. -/
lemma Run.closed_stuck_iff (h : Run robots seed es s) (hseed : robotsAllow robots seed = true) :
    Stuck (CrawlInner.closedStep get parse) s ↔ s.outcome ≠ none := by
  constructor
  · intro hstuck hrun
    have hmoves : ∃ e s', s.closedStep get parse e = some s' := h.closed_enabled hseed hrun
    obtain ⟨e, s', hstep⟩ := hmoves
    cases (hstuck e).symm.trans hstep
  · intro hended
    by_contra hmoves
    obtain ⟨e, s', hstep⟩ := not_stuck.mp hmoves
    obtain ⟨⟨-, hanswers⟩, hstep⟩ := CrawlInner.closedStep_eq_some.mp hstep
    cases CrawlInner.eq_poison_of_step hended hstep
    cases hanswers

/-! ### It comes to an end -/

omit [Externals Url] in
lemma Answers.work_eq (h : Answers get parse es) : work es = es := by
  rw [work, List.filter_eq_self]
  intro e hmem
  exact decide_eq_true fun he => h.unpoisoned (he ▸ hmem)

/-- The events of a run with the answers of the functions are bounded by the
size of the site. -/
lemma Run.length_le (h : Run robots seed es s) (hanswers : Answers get parse es)
    (hfin : (siteUrls get robots seed).Finite) :
    es.length ≤ 4 * (siteUrls get robots seed).ncard := by
  have hseen : s.crawl.data.seen.card ≤ (siteUrls get robots seed).ncard := by
    rw [← Set.ncard_coe_finset]
    exact Set.ncard_le_ncard (fun url hmem => h.siteReach_of_seen hanswers.got url hmem) hfin
  calc es.length = (work es).length := by rw [hanswers.work_eq]
    _ ≤ 4 * s.crawl.data.seen.card := h.length_work_le.2
    _ ≤ 4 * (siteUrls get robots seed).ncard := Nat.mul_le_mul_left 4 hseen

/-- So is what the closed loop can still do. -/
lemma Run.closed_bounded (h : Run robots seed es s) (hanswers : Answers get parse es)
    (hfin : (siteUrls get robots seed).Finite) {fs : List (Event Url)} {t : CrawlInner Url}
    (ht : exec (CrawlInner.closedStep get parse) s fs = some t) :
    fs.length ≤ 4 * (siteUrls get robots seed).ncard := by
  obtain ⟨hfs, hanswers'⟩ := exec_of_closed ht
  have hrun : Run robots seed (es ++ fs) t := exec_join h hfs
  have hlength := hrun.length_le (hanswers.append hanswers') hfin
  rw [List.length_append] at hlength
  omega

/-- **Every crawl of a finite site with an allowed seed can go on to its
return**, and does so in the order of the channel. -/
theorem Run.completes (h : Run robots seed es s) (hanswers : Answers get parse es)
    (hseed : robotsAllow robots seed = true) (hfin : (siteUrls get robots seed).Finite) :
    ∃ fs t, exec (CrawlInner.closedStep get parse) s fs = some t ∧ Run robots seed (es ++ fs) t ∧
      Answers get parse (es ++ fs) ∧ t.outcome ≠ none := by
  obtain ⟨fs, t, ht, hstuck⟩ := exec_completes fun fs t => h.closed_bounded hanswers hfin
  obtain ⟨hfs, hanswers'⟩ := exec_of_closed ht
  have hrun : Run robots seed (es ++ fs) t := exec_join h hfs
  exact ⟨fs, t, ht, hrun, hanswers.append hanswers', (hrun.closed_stuck_iff hseed).mp hstuck⟩

/-! ### It always comes to the same end -/

/-- What a loop that has returned must have come to: success exactly if the
pages that can be reached parse, and then the entries of the site. -/
structure Verdict (get : Url → Except Error (HttpResponse Url)) (parse : Url → Except Error Unit)
    (robots : Option String) (seed : Url) (s : CrawlInner Url) : Prop where
  returned : s.outcome ≠ none
  ok_iff : s.outcome = some (.ok ()) ↔ PagesParse get parse robots seed
  reached : s.outcome = some (.ok ()) →
    ∀ url, url ∈ s.crawl.data.result.pages ↔ SiteReach get robots seed url
  entries : s.outcome = some (.ok ()) → ∀ url, SiteReach get robots seed url → s.entry url =
    if robotsAllow robots url then pageResult url (get url) else some .excludedByRobotsTxt

lemma Run.verdict (h : Run robots seed es s) (hanswers : Answers get parse es)
    (hended : s.outcome ≠ none) : Verdict get parse robots seed s where
  returned := hended
  ok_iff := ⟨fun hok => h.pagesParse_of_returns hok hanswers.got hanswers.parsed,
    h.returns_of_pagesParse hended hanswers.unpoisoned hanswers.got hanswers.parsed⟩
  reached hok := (h.reaches hok hanswers.got).1
  entries hok := (h.reaches hok hanswers.got).2

/-- **A crawl of a finite site with an allowed seed comes to an end**: no
schedule takes more than four events for each url of the site; as long as the
loop has not returned, the channel, the client or the parse tasks let something
happen; every schedule goes on to the return of the loop; and wherever it
returns, it succeeds exactly if the pages that can be reached parse, with the
entries of the site. -/
theorem crawl_completes (hseed : robotsAllow robots seed = true)
    (hfin : (siteUrls get robots seed).Finite) (h : ClosedRun get parse robots seed es s) :
    es.length ≤ 4 * (siteUrls get robots seed).ncard ∧
    (Stuck (CrawlInner.closedStep get parse) s ↔ s.outcome ≠ none) ∧
    (∃ fs t, exec (CrawlInner.closedStep get parse) s fs = some t ∧
      Verdict get parse robots seed t) ∧
    ∀ fs t, exec (CrawlInner.closedStep get parse) s fs = some t → t.outcome ≠ none →
      Verdict get parse robots seed t := by
  refine ⟨h.run.length_le h.answers hfin, h.run.closed_stuck_iff hseed, ?_, ?_⟩
  · obtain ⟨fs, t, ht, hrun, hanswers, hended⟩ := h.run.completes h.answers hseed hfin
    exact ⟨fs, t, ht, hrun.verdict hanswers hended⟩
  · intro fs t ht hended
    have hclosed : ClosedRun get parse robots seed (es ++ fs) t := exec_join h ht
    exact hclosed.run.verdict hclosed.answers hended

/-- A crawl of the site with a link, a redirect and an excluded page, stopped
before its second fetch, goes on to its return. -/
theorem crawl_completes_events :
    ∃ s, ClosedRun PlainUrl.get (fun _ => .ok ()) (some PlainUrl.robotsTxt) (PlainUrl.site "/")
        (PlainUrl.events.take 4) s ∧
      ∃ fs t, exec (CrawlInner.closedStep PlainUrl.get fun _ => .ok ()) s fs = some t ∧
        Verdict PlainUrl.get (fun _ => .ok ()) (some PlainUrl.robotsTxt) (PlainUrl.site "/") t := by
  refine ⟨_, rfl, ?_⟩
  have h := crawl_completes rfl (PlainUrl.siteReach_finite (by decide))
    (rfl : ClosedRun PlainUrl.get (fun _ => .ok ()) (some PlainUrl.robotsTxt) (PlainUrl.site "/")
      (PlainUrl.events.take 4) _)
  exact h.2.2.1

end MikesCrawler
