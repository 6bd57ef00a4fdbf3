/-
A call can always be brought to its end by its own events.

* `CallEvent.answers`: what a call meets from its own environment: one answer
  for its robots.txt, answers of functions of the url, and no panics;
* `Finishes`: the events of a call take it to a result; `finishes_of_removed`,
  `finishes_of_registered`, `finishes_of_made`, `finishes_of_fetching`: so they
  do from each of its stages;
* `call_completes`: in every state of a crawler, whatever the other calls have
  done, the events of a call take it to the result of its site.
-/
import MikesCrawler.Guarantees.Completion
import MikesCrawler.Guarantees.Panics

open Machine

namespace MikesCrawler

variable {Url : Type} [DecidableEq Url] [Externals Url]

/-- What a call meets from its own environment: an answer for its robots.txt,
answers of the client and the parse tasks that are functions of the url, and no
panics. -/
def CallEvent.answers (get : Url → Except Error (HttpResponse Url))
    (parse : Url → Except Error Unit) (robots : Option String) : CallEvent Url → Bool
  | .robots answer => answer = .ok robots
  | .inner event => event.answers get parse
  | .abort _ | .panic _ => false
  | .register | .remove | .finish => true

variable {get : Url → Except Error (HttpResponse Url)} {parse : Url → Except Error Unit}
variable {robots : Option String} {seed : Url} {i : CallId}
variable {es : List (ServerEvent Url)} {s s' : ProdCrawler Url}

/-- A call has met nothing else so far. -/
def AnswersTo (get : Url → Except Error (HttpResponse Url)) (parse : Url → Except Error Unit)
    (robots : Option String) (i : CallId) (es : List (ServerEvent Url)) : Prop :=
  ∀ event ∈ ownEvents i es, event.answers get parse robots = true

/-- Events of a call that its environment lets happen take it to a result. -/
def Finishes (get : Url → Except Error (HttpResponse Url)) (parse : Url → Except Error Unit)
    (robots : Option String) (i : CallId) (seed : Url) (s : ProdCrawler Url) : Prop :=
  ∃ (gs : List (CallEvent Url)) (t : ProdCrawler Url) (crawl : Option (Mutex (Crawl Url)))
    (result : CrawlResult Url), (∀ event ∈ gs, event.answers get parse robots = true) ∧
    exec ProdCrawler.step s (gs.map (ServerEvent.call i)) = some t ∧
    t.calls i = some (.returned seed crawl (.ok result))

/-! ### The environment of a call -/

omit [Externals Url] in
lemma AnswersTo.concat (h : AnswersTo get parse robots i es) {event : CallEvent Url}
    (hevent : event.answers get parse robots = true) :
    AnswersTo get parse robots i (es ++ [.call i event]) := by
  intro event' hmem
  rw [ownEvents_concat_self] at hmem
  rcases List.mem_append.mp hmem with hmem | hmem
  · exact h event' hmem
  · rw [List.mem_singleton.mp hmem]
    exact hevent

/-- The loop of a call in its environment. -/
lemma Call.Loops.run_of_answers {es : List (CallEvent Url)} {inner : CrawlInner Url}
    (h : Loops es seed inner) (hanswers : ∀ event ∈ es, event.answers get parse robots = true) :
    Run robots seed (es.filterMap CallEvent.inner?) inner ∧
      Answers get parse (es.filterMap CallEvent.inner?) := by
  obtain ⟨robots', hrobots, hrun⟩ := h
  have hsame : robots' = robots :=
    Except.ok.inj (of_decide_eq_true (hanswers _ (mem_of_robots hrobots)))
  refine ⟨hsame ▸ hrun, fun e hmem => ?_⟩
  obtain ⟨event, hevent, heq⟩ := List.mem_filterMap.mp hmem
  cases event with
  | inner e' =>
      cases heq
      exact hanswers _ hevent
  | robots | abort | register | panic | remove | finish => cases heq

/-! ### From each stage of a call -/

/-- A call that gets its robots.txt makes its crawl. -/
lemma Call.step_robots (robots : Option String) (seed robotsUrl : Url)
    (crawls : Mutex (Registry Url)) :
    (Call.fetchingRobots seed robotsUrl).step i crawls (.robots (.ok robots))
      = some (.made seed (CrawlInner.begin robots seed), crawls) := by
  rw [step, withLock_of_ok rfl (Crawl.addLink_eq rfl seed)]

/-- A call that has made its crawl registers it. -/
lemma Call.step_register {crawls : Mutex (Registry Url)}
    (hlock : crawls.poisoned = false) (inner : CrawlInner Url) :
    (Call.made seed inner).step i crawls .register
      = some (.registered seed inner, { crawls with data := crawls.data.insert seed i }) := by
  simp [step, lockMapErr, hlock]

/-- A call whose loop has returned removes its seed. -/
lemma Call.step_remove {crawls : Mutex (Registry Url)} (hlock : crawls.poisoned = false)
    {inner : CrawlInner Url} (hended : inner.outcome ≠ none) :
    (Call.registered seed inner).step i crawls .remove
      = some (.removed seed inner, { crawls with data := crawls.data.erase seed }) := by
  simp [step, hended, lockMapErr, hlock]

/-- Some events of a call, and it goes on from there. -/
lemma Finishes.append (gs : List (CallEvent Url))
    (hgs : ∀ event ∈ gs, event.answers get parse robots = true)
    (hrun : exec ProdCrawler.step s (gs.map (ServerEvent.call i)) = some s')
    (h : Finishes get parse robots i seed s') : Finishes get parse robots i seed s := by
  obtain ⟨gs', t, crawl, result, hgs', ht, hcall⟩ := h
  refine ⟨gs ++ gs', t, crawl, result, fun event hmem => ?_, ?_, hcall⟩
  · exact (List.mem_append.mp hmem).elim (hgs event) (hgs' event)
  · rw [List.map_append]
    exact exec_join hrun ht

/-- One event of a call, and it goes on from there. -/
lemma Finishes.cons (event : CallEvent Url) (hevent : event.answers get parse robots = true)
    (hstep : s.step (.call i event) = some s') (h : Finishes get parse robots i seed s') :
    Finishes get parse robots i seed s := by
  refine h.append [event] (fun event' hmem => ?_) (exec_cons_eq_some.mpr ⟨s', hstep, rfl⟩)
  rw [List.mem_singleton.mp hmem]
  exact hevent

/-- A call that has removed its seed after success hands out its result. -/
lemma finishes_of_removed (h : ServerRun es s) {inner : CrawlInner Url}
    (hi : s.calls i = some (.removed seed inner)) (hok : inner.outcome = some (.ok ()))
    (hlock : inner.crawl.poisoned = false) : Finishes get parse robots i seed s := by
  have hstep : (Call.removed seed inner).step i s.crawls .finish = some
      (.returned seed (some inner.crawl) (.ok inner.crawl.data.result), s.crawls) := by
    simp [Call.step, hok, h.slots_of_removed hi, Call.references, Call.unwrap, lockMapErr, hlock]
  have hreturned := ProdCrawler.step_call hi hstep
  refine Finishes.cons .finish rfl hreturned ?_
  exact ⟨[], _, _, _, by simp, rfl, Function.update_self i _ _⟩

/-- The events of the loop of a call move the call and nothing else. -/
lemma exec_inner {inner inner' : CrawlInner Url} (hi : s.calls i = some (.registered seed inner))
    {fs : List (Event Url)} (hfs : exec CrawlInner.step inner fs = some inner') :
    ∃ t, exec ProdCrawler.step s (fs.map fun e => .call i (.inner e)) = some t ∧
      t.calls i = some (.registered seed inner') ∧ t.crawls = s.crawls := by
  induction fs generalizing s inner with
  | nil =>
      cases hfs
      exact ⟨s, rfl, hi, rfl⟩
  | cons e fs ih =>
      obtain ⟨next, hnext, hrest⟩ := exec_cons_eq_some.mp hfs
      have hstep : (Call.registered seed inner).step i s.crawls (.inner e)
          = some (.registered seed next, s.crawls) := by
        rw [Call.step, hnext, Option.map_some]
      have hmoved := ProdCrawler.step_call hi hstep
      have hi' : Function.update s.calls i (some (.registered seed next)) i
          = some (.registered seed next) := Function.update_self i _ _
      obtain ⟨t, ht, hcall, hcrawls⟩ :=
        @ih { s with calls := Function.update s.calls i (some (.registered seed next)) } next hi'
          hrest
      exact ⟨t, exec_cons_eq_some.mpr ⟨_, hmoved, ht⟩, hcall, hcrawls⟩

/-- The loop of a call that is registered goes on to its success, and the call
to its end. -/
lemma finishes_of_registered (h : ServerRun es s) (hanswers : AnswersTo get parse robots i es)
    (hseed : robotsAllow robots seed = true) (hfin : (siteUrls get robots seed).Finite)
    (hpages : PagesParse get parse robots seed) {inner : CrawlInner Url}
    (hi : s.calls i = some (.registered seed inner)) : Finishes get parse robots i seed s := by
  obtain ⟨hrun, hinner⟩ := ((h.follows i).2 _ hi).run_of_answers hanswers
  obtain ⟨fs, inner', hfs, hrun', hinner', hended⟩ := hrun.completes hinner hseed hfin
  obtain ⟨hsteps, hfsAnswers⟩ := exec_of_closed hfs
  obtain ⟨t, ht, hi', hcrawls⟩ := exec_inner hi hsteps
  have hgs : ∀ event ∈ fs.map CallEvent.inner, event.answers get parse robots = true := by
    intro event hmem
    obtain ⟨e, he, rfl⟩ := List.mem_map.mp hmem
    exact hfsAnswers e he
  have hmap : (fs.map CallEvent.inner).map (ServerEvent.call i)
      = fs.map fun e => .call i (.inner e) := List.map_map
  have htrun : ServerRun (es ++ (fs.map CallEvent.inner).map (ServerEvent.call i)) t :=
    exec_join h (hmap ▸ ht)
  have hremoved := ProdCrawler.step_call hi' (Call.step_remove htrun.unpoisoned hended)
  have hok := (hrun'.verdict hinner' hended).ok_iff.mpr hpages
  refine Finishes.append _ hgs (hmap ▸ ht) (Finishes.cons .remove rfl hremoved ?_)
  exact finishes_of_removed (exec_concat_eq_some.mpr ⟨t, htrun, hremoved⟩)
    (Function.update_self i _ _) hok (hrun'.unpoisoned hinner'.unpoisoned)

/-- A call that has made its crawl registers it, and goes on. -/
lemma finishes_of_made (h : ServerRun es s) (hanswers : AnswersTo get parse robots i es)
    (hseed : robotsAllow robots seed = true) (hfin : (siteUrls get robots seed).Finite)
    (hpages : PagesParse get parse robots seed) {inner : CrawlInner Url}
    (hi : s.calls i = some (.made seed inner)) : Finishes get parse robots i seed s := by
  have hstep := ProdCrawler.step_call hi (Call.step_register h.unpoisoned inner)
  refine Finishes.cons .register rfl hstep ?_
  exact finishes_of_registered (exec_concat_eq_some.mpr ⟨s, h, hstep⟩) (hanswers.concat rfl) hseed
    hfin hpages (Function.update_self i _ _)

/-- A call that waits for its robots.txt gets it, and goes on. -/
lemma finishes_of_fetching (h : ServerRun es s) (hanswers : AnswersTo get parse robots i es)
    (hseed : robotsAllow robots seed = true) (hfin : (siteUrls get robots seed).Finite)
    (hpages : PagesParse get parse robots seed) {robotsUrl : Url}
    (hi : s.calls i = some (.fetchingRobots seed robotsUrl)) :
    Finishes get parse robots i seed s := by
  have hevent : (CallEvent.robots (.ok robots) : CallEvent Url).answers get parse robots = true :=
    decide_eq_true rfl
  have hstep := ProdCrawler.step_call hi (Call.step_robots robots seed robotsUrl _)
  refine Finishes.cons (.robots (.ok robots)) hevent hstep ?_
  exact finishes_of_made (exec_concat_eq_some.mpr ⟨s, h, hstep⟩) (hanswers.concat hevent) hseed
    hfin hpages (Function.update_self i _ _)

/-- So a call goes on to its end from each stage before it. -/
lemma finishes_of_going (h : ServerRun es s) (hanswers : AnswersTo get parse robots i es)
    {call : Call Url} (hi : s.calls i = some call) (hgoing : ¬ call.Ended)
    (hseed : robotsAllow robots call.seed = true)
    (hfin : (siteUrls get robots call.seed).Finite)
    (hpages : PagesParse get parse robots call.seed) :
    Finishes get parse robots i call.seed s := by
  cases call with
  | fetchingRobots seed robotsUrl => exact finishes_of_fetching h hanswers hseed hfin hpages hi
  | made seed inner => exact finishes_of_made h hanswers hseed hfin hpages hi
  | registered seed inner => exact finishes_of_registered h hanswers hseed hfin hpages hi
  | removed seed inner =>
      obtain ⟨hloops, hended⟩ := (h.follows i).2 _ hi
      obtain ⟨hrun, hinner⟩ := hloops.run_of_answers hanswers
      exact finishes_of_removed h hi ((hrun.verdict hinner hended).ok_iff.mpr hpages)
        (hrun.unpoisoned hinner.unpoisoned)
  | returned | unwound | unmade => exact absurd trivial hgoing

/-! ### From any state of a crawler -/

omit [Externals Url] in
/-- It goes on to meet nothing else with events that its environment lets
happen. -/
lemma AnswersTo.append (h : AnswersTo get parse robots i es) {gs : List (CallEvent Url)}
    (hgs : ∀ event ∈ gs, event.answers get parse robots = true) :
    AnswersTo get parse robots i (es ++ gs.map (.call i)) := by
  intro event hmem
  rcases List.mem_append.mp (mem_ownEvents.mp hmem) with hmem | hmem
  · exact h event (mem_ownEvents.mpr hmem)
  · obtain ⟨event', hevent', heq⟩ := List.mem_map.mp hmem
    cases heq
    exact hgs event hevent'

/-- What a call returns in its environment is the site that can be reached. -/
lemma ServerRun.result_of_answers (h : ServerRun es s) (hanswers : AnswersTo get parse robots i es)
    {crawl : Option (Mutex (Crawl Url))} {result : CrawlResult Url}
    (hcall : s.calls i = some (.returned seed crawl (.ok result))) :
    (∀ url, url ∈ result.pages ↔ SiteReach get robots seed url) ∧
      ∀ url, SiteReach get robots seed url → result.pages.lookup url =
        if robotsAllow robots url then pageResult url (get url) else some .excludedByRobotsTxt := by
  obtain ⟨inner, hloops, hok, -, rfl⟩ := (h.follows i).2 _ hcall
  obtain ⟨hrun, hinner⟩ := hloops.run_of_answers hanswers
  exact hrun.reaches hok hinner.got

/-- **A call can always be brought to its end.**  In every state of a crawler,
whatever the other calls have done, panics included, a call that has not ended
has events of its own that take it to its result, the site that can be reached:
with an allowed seed, a finite site whose pages parse, and an environment that
answers the call by functions of the url. -/
theorem call_completes (h : ServerRun es s) {call : Call Url} (hi : s.calls i = some call)
    (hgoing : ¬ call.Ended) (hanswers : AnswersTo get parse robots i es)
    (hseed : robotsAllow robots call.seed = true)
    (hfin : (siteUrls get robots call.seed).Finite)
    (hpages : PagesParse get parse robots call.seed) :
    ∃ (gs : List (CallEvent Url)) (t : ProdCrawler Url) (crawl : Option (Mutex (Crawl Url)))
      (result : CrawlResult Url), (∀ event ∈ gs, event.answers get parse robots = true) ∧
      ServerRun (es ++ gs.map (.call i)) t ∧
      t.calls i = some (.returned call.seed crawl (.ok result)) ∧
      (∀ url, url ∈ result.pages ↔ SiteReach get robots call.seed url) ∧
      ∀ url, SiteReach get robots call.seed url → result.pages.lookup url =
        if robotsAllow robots url then pageResult url (get url) else some .excludedByRobotsTxt := by
  obtain ⟨gs, t, crawl, result, hgs, ht, hcall⟩ :=
    finishes_of_going h hanswers hi hgoing hseed hfin hpages
  have htrun : ServerRun (es ++ gs.map (.call i)) t := exec_join h ht
  obtain ⟨hreached, hentries⟩ := htrun.result_of_answers (hanswers.append hgs) hcall
  exact ⟨gs, t, crawl, result, hgs, htrun, hcall, hreached, hentries⟩

/-- The pages of a site parse. -/
lemma PlainUrl.pagesParse (robots : Option String) (seed : PlainUrl) :
    PagesParse PlainUrl.get (fun _ => .ok ()) robots seed := by
  intro url body _ _ hpage
  rw [PlainUrl.get] at hpage
  split at hpage
  · cases hpage
    exact ⟨rfl, _, rfl⟩
  · split at hpage <;> cases hpage

/-- The second of two calls comes to its end although a step of the first has
panicked. -/
theorem call_completes_pair :
    ∃ (s : ProdCrawler PlainUrl) (gs : List (CallEvent PlainUrl)) (t : ProdCrawler PlainUrl)
      (crawl : Option (Mutex (Crawl PlainUrl))) (result : CrawlResult PlainUrl),
      ServerRun (PlainUrl.pairEvents ++ [ServerEvent.call 0 (.panic true)]) s ∧
      ServerRun ((PlainUrl.pairEvents ++ [ServerEvent.call 0 (.panic true)])
        ++ gs.map (ServerEvent.call 1)) t ∧
      t.calls 1 = some (.returned (PlainUrl.site "/a") crawl (.ok result)) := by
  have hown : ownEvents 1 (PlainUrl.pairEvents ++ [ServerEvent.call 0 (.panic true)])
      = [.robots (.ok (some PlainUrl.robotsTxt)), .register] := rfl
  have hanswers : AnswersTo PlainUrl.get (fun _ => .ok ()) (some PlainUrl.robotsTxt) 1
      (PlainUrl.pairEvents ++ [ServerEvent.call 0 (.panic true)]) := by
    intro event hmem
    rw [hown] at hmem
    rcases List.mem_cons.mp hmem with rfl | hmem
    · simp [CallEvent.answers]
    · rw [List.mem_singleton.mp hmem]
      rfl
  obtain ⟨s, hrun, hi⟩ : ∃ s, ServerRun
      (PlainUrl.pairEvents ++ [ServerEvent.call 0 (.panic true)]) s ∧ s.calls 1
        = some (.registered (PlainUrl.site "/a")
          (CrawlInner.begin (some PlainUrl.robotsTxt) (PlainUrl.site "/a"))) := by
    refine ⟨_, rfl, ?_⟩
    rfl
  obtain ⟨gs, t, crawl, result, -, ht, hcall, -⟩ := call_completes hrun hi (fun hended => hended)
    hanswers rfl (PlainUrl.siteReach_finite (by decide)) (PlainUrl.pagesParse _ _)
  exact ⟨s, gs, t, crawl, result, hrun, ht, hcall⟩

end MikesCrawler
