/-
Where the errors of a crawl come from.

* `Cause`, `Run.caused`: a loop fails with the error of a parse task or of the
  parser, or with that of a poisoned lock;
* `Call.FailedIn`, `ServerRun.failed`, `ServerRun.error_cases`: so a call fails
  with one of these, or with an error met before its loop;
* `Call.Gone`, `ServerRun.panicked`: a call that a panic has ended has had one;
* `failures_traced`: and each response with status 500 to a request to crawl has
  the text of such an error, or is due to a panic.
-/
import MikesCrawler.Guarantees.Requests

open Machine

namespace MikesCrawler

variable {Url : Type} [DecidableEq Url] [Externals Url]

/-! ### The errors of a loop -/

/-- The error of a poisoned lock. -/
def poisonError : Error := ⟨"poisoned lock: another task failed inside"⟩

/-- What in the events of a loop an error comes from. -/
inductive Cause (es : List (Event Url)) (e : Error) : Prop
  | task {url : Url} {body : String} (ended : .parsed url body (.error e) ∈ es) : Cause es e
  | page {url : Url} {body : String} (ended : .parsed url body (.ok ()) ∈ es)
      (fails : parsePage url body = .error e) : Cause es e
  | poisoned (poison : .poison ∈ es) (text : e = poisonError) : Cause es e

omit [DecidableEq Url] in
lemma Cause.append {es : List (Event Url)} {e : Error} (h : Cause es e) (fs : List (Event Url)) :
    Cause (es ++ fs) e := by
  cases h with
  | task ended => exact .task (List.mem_append_left _ ended)
  | page ended fails => exact .page (List.mem_append_left _ ended) fails
  | poisoned poison text => exact .poisoned (List.mem_append_left _ poison) text

omit [DecidableEq Url] [Externals Url] in
lemma lockMapErr_eq_error {α : Type} {lock : Mutex α} {e : Error}
    (h : lockMapErr lock = .error e) : lock.poisoned = true ∧ e = poisonError := by
  rw [lockMapErr] at h
  split at h
  · next hp => exact ⟨hp, (Except.error.inj h).symm⟩
  · cases h

/-- A step that the client has answered fails on a poisoned lock only. -/
lemma stepGot_error {crawl crawl' : Mutex (Crawl Url)} (hrx : crawl.data.todo.receiver = true)
    {url : Url} {response : Except Error (HttpResponse Url)} {e : Error}
    (h : stepGot crawl url response = (.ready (.error e), crawl')) :
    crawl.poisoned = true ∧ e = poisonError := by
  cases hp : crawl.poisoned with
  | true =>
      refine ⟨rfl, ?_⟩
      match response with
      | .ok (.html body) => cases h
      | .ok (.serverFailure status msg) | .ok (.redirect status target)
      | .ok (.otherContent contentType) | .error e' =>
          simp only [stepGot, withLock, lockMapErr, hp, if_true] at h
          cases h
          rfl
  | false =>
      obtain ⟨body, -, hg⟩ | ⟨v, -, -, -, hg⟩ | ⟨e', -, hpoisoned, -⟩ :=
        stepGot_cases hrx url response
      · cases hg.symm.trans h
      · cases hg.symm.trans h
      · cases hp.symm.trans hpoisoned

/-- A step whose parse task has ended fails with the error of the task or of the
parser, or on a poisoned lock. -/
lemma stepParsed_error {crawl crawl' : Mutex (Crawl Url)} (hrx : crawl.data.todo.receiver = true)
    {url : Url} {body : String} {joined : Except Error Unit} {e : Error}
    (h : stepParsed crawl url body joined = (.error e, crawl')) :
    joined = .error e ∨ (joined = .ok () ∧ parsePage url body = .error e) ∨
      (crawl.poisoned = true ∧ e = poisonError) := by
  cases joined with
  | error e' =>
      cases h
      exact Or.inl rfl
  | ok _ =>
      refine Or.inr ?_
      cases hpage : parsePage url body with
      | error e' =>
          rw [stepParsed, hpage] at h
          cases h
          exact Or.inl ⟨rfl, rfl⟩
      | ok info =>
          refine Or.inr ?_
          cases hp : crawl.poisoned with
          | true =>
              simp only [stepParsed, hpage, withLock, lockMapErr, hp, if_true] at h
              cases h
              exact ⟨rfl, rfl⟩
          | false =>
              obtain ⟨v, -, -, -, hg⟩ | ⟨e', hpoisoned | hjoined | hvisit, -⟩ :=
                stepParsed_cases hrx url body (.ok ())
              · cases hg.symm.trans h
              · cases hp.symm.trans hpoisoned
              · exact absurd rfl hjoined
              · simp [visitOf, hpage] at hvisit

/-- The errors of the completed steps of a loop, and the one it has failed with. -/
def CrawlInner.HasError (s : CrawlInner Url) (e : Error) : Prop :=
  (∃ url, (url, .error e) ∈ s.completed) ∨ s.outcome = some (.error e)

omit [DecidableEq Url] [Externals Url] in
/-- A completion with an error that is not the last one was there before. -/
lemma mem_completed_concat {completed : List (Url × Except Error Unit)} {url url' : Url}
    {result : Except Error Unit} {e : Error}
    (h : (url, .error e) ∈ completed ++ [(url', result)]) :
    (url, .error e) ∈ completed ∨ result = .error e := by
  rcases List.mem_append.mp h with h | h
  · exact Or.inl h
  · cases List.mem_singleton.mp h
    exact Or.inr rfl

/-- An event brings an error of a loop only if it is the cause of it. -/
lemma Run.hasError_step {robots : Option String} {seed : Url} {es : List (Event Url)}
    {s s' : CrawlInner Url} (h : Run robots seed es s) {event : Event Url}
    (hstep : s.step event = some s') {e : Error} (herror : s'.HasError e) :
    s.HasError e ∨ Cause (es ++ [event]) e := by
  have hmem : event ∈ es ++ [event] := List.mem_append_right _ (List.mem_singleton_self _)
  have hpoison : s.crawl.poisoned = true ∧ e = poisonError → Cause (es ++ [event]) e :=
    fun ⟨hp, htext⟩ => .poisoned (List.mem_append_left _ (h.poison_mem hp)) htext
  cases event with
  | start url =>
      rw [CrawlInner.step] at hstep
      split at hstep
      · cases hstep
        exact Or.inl herror
      · cases hstep
  | got url response =>
      rw [CrawlInner.step] at hstep
      split at hstep
      · next hc =>
          cases hstep
          have hrx := h.receiver hc.1
          generalize hgot : stepGot s.crawl url response = polled at herror
          obtain ⟨poll, crawl⟩ := polled
          cases poll with
          | pending state => exact Or.inl herror
          | ready result =>
              rcases herror with ⟨url', hcompleted⟩ | houtcome
              · rcases mem_completed_concat hcompleted with hold | rfl
                · exact Or.inl (Or.inl ⟨url', hold⟩)
                · exact Or.inr (hpoison (stepGot_error hrx hgot))
              · exact Or.inl (Or.inr houtcome)
      · cases hstep
  | parsed url body joined =>
      rw [CrawlInner.step] at hstep
      split at hstep
      · next hc =>
          have hrx := h.receiver hc.1
          generalize hparsed : stepParsed s.crawl url body joined = ended at hstep
          obtain ⟨result, crawl⟩ := ended
          cases hstep
          rcases herror with ⟨url', hcompleted⟩ | houtcome
          · rcases mem_completed_concat hcompleted with hold | rfl
            · exact Or.inl (Or.inl ⟨url', hold⟩)
            · refine Or.inr ?_
              rcases stepParsed_error hrx hparsed with rfl | ⟨rfl, hpage⟩ | hp
              · exact .task hmem
              · exact .page hmem hpage
              · exact hpoison hp
          · exact Or.inl (Or.inr houtcome)
      · cases hstep
  | next =>
      rw [CrawlInner.step] at hstep
      split at hstep
      · next url e' completed hrun hcons =>
          cases hstep
          rcases herror with ⟨url', hcompleted⟩ | houtcome
          · cases hcompleted
          · cases houtcome
            refine Or.inl (Or.inl ⟨url, ?_⟩)
            rw [hcons]
            exact List.mem_cons_self
      · next url completed hrun hcons =>
          split at hstep
          · next e' hlock =>
              cases hstep
              rcases herror with ⟨url', hcompleted⟩ | houtcome
              · cases hcompleted
              · cases houtcome
                exact Or.inr (hpoison (lockMapErr_eq_error hlock))
          · split at hstep
            · cases hstep
              rcases herror with ⟨url', hcompleted⟩ | houtcome
              · cases hcompleted
              · cases houtcome
            · cases hstep
              rcases herror with ⟨url', hcompleted⟩ | houtcome
              · refine Or.inl (Or.inl ⟨url', ?_⟩)
                rw [hcons]
                exact List.mem_cons_of_mem _ hcompleted
              · exact Or.inl (Or.inr houtcome)
      · cases hstep
  | poison =>
      cases hstep
      exact Or.inl herror

/-- **The errors of a loop have their cause in its events.** -/
theorem Run.caused {robots : Option String} {seed : Url} {es : List (Event Url)}
    {s : CrawlInner Url} (h : Run robots seed es s) {e : Error} (herror : s.HasError e) :
    Cause es e := by
  revert e
  refine exec_trace_induction (P := fun es s => ∀ {e}, CrawlInner.HasError s e → Cause es e)
    ?_ ?_ h
  · rintro e (⟨url, hcompleted⟩ | houtcome)
    · cases hcompleted
    · cases houtcome
  · intro es event s s' hs ih hstep e herror
    rcases Run.hasError_step hs hstep herror with hold | hcause
    · exact (ih hold).append [event]
    · exact hcause

/-! ### The errors of a call -/

/-- A call has failed in its loop, or for its crawl is poisoned. -/
def Call.FailedIn (es : List (CallEvent Url)) (seed : Url) (e : Error) : Prop :=
  ∃ inner, Loops es seed inner ∧ (inner.outcome = some (.error e) ∨
    (inner.outcome = some (.ok ()) ∧ inner.crawl.poisoned = true ∧ e = poisonError))

omit [DecidableEq Url] [Externals Url] in
/-- A call that gets its crawl alone fails to unwrap it on a poisoned lock only. -/
lemma Call.unwrap_eq_error {inner : CrawlInner Url} {e : Error}
    (h : unwrap inner 1 = .error e) : inner.crawl.poisoned = true ∧ e = poisonError := by
  rw [unwrap, if_pos rfl] at h
  split at h
  · next e' hlocked =>
      cases h
      exact lockMapErr_eq_error hlocked
  · cases h

/-- A transition to an error is from an error of the robots.txt, or from a loop that
has ended with it. -/
lemma Call.Trans.failed {i : CallId} {es : List (CallEvent Url)} {call : Call Url}
    {crawls crawls' : Mutex (Registry Url)} {event : CallEvent Url} {seed : Url}
    {crawl : Option (Mutex (Crawl Url))} {e : Error}
    (ht : Trans i call crawls event (.returned seed crawl (.error e)) crawls')
    (h : call.Follows es) (hlock : crawls.poisoned = false)
    (hslots : ∀ {inner}, call = .removed seed inner → slots i crawls.data = 0) :
    event = .robots (.error e) ∨ FailedIn (es ++ [event]) seed e := by
  generalize hnew : Call.returned seed crawl (.error e) = new at ht
  cases ht with
  | robotsFailed =>
      cases hnew
      exact Or.inl rfl
  | poisoned _ hpoisoned => cases hlock.symm.trans hpoisoned
  | @fail _ inner _ _ failed =>
      cases hnew
      exact Or.inr ⟨inner, h.1.concat rfl rfl, Or.inl failed⟩
  | @unwrap seed' inner _ ended =>
      obtain ⟨rfl, -, hunwrap⟩ := Call.returned.inj hnew
      rw [hslots rfl] at hunwrap
      obtain ⟨hp, htext⟩ := unwrap_eq_error hunwrap.symm
      exact Or.inr ⟨inner, h.1.concat rfl rfl, Or.inr ⟨ended, hp, htext⟩⟩
  | make | abort | register | inner | panic | remove => cases hnew

/-- **A call fails before its loop, or with it.**  It never fails for references
to its crawl that remain, nor on the registry. -/
theorem ServerRun.failed {es : List (ServerEvent Url)} {s : ProdCrawler Url} (h : ServerRun es s)
    {i : CallId} {seed : Url} {crawl : Option (Mutex (Crawl Url))} {e : Error}
    (hcall : s.calls i = some (.returned seed crawl (.error e))) :
    join seed "/robots.txt" = .error e ∨ .robots (.error e) ∈ ownEvents i es ∨
      Call.FailedIn (ownEvents i es) seed e := by
  refine h.call_induction (P := fun es call => ∀ {seed crawl e},
    call = .returned seed crawl (.error e) → join seed "/robots.txt" = .error e ∨
      .robots (.error e) ∈ es ∨ Call.FailedIn es seed e) ?_ ?_ hcall rfl
  · intro seed seed' crawl e hbegin
    rw [Call.begin] at hbegin
    split at hbegin
    · next hjoin =>
        cases hbegin
        exact Or.inl hjoin
    · cases hbegin
  · rintro es s call event call' crawls hs hi - hstep seed crawl e rfl
    refine Or.inr (((Call.trans_of_step hstep).failed ((hs.follows i).2 _ hi)
      hs.unpoisoned ?_).imp_left ?_)
    · rintro inner rfl
      exact hs.slots_of_removed hi
    · rintro rfl
      exact List.mem_append_right _ (List.mem_singleton_self _)

/-- So its error is one met before its loop, or has its cause in the events of its
loop. -/
lemma ServerRun.error_cases {es : List (ServerEvent Url)} {s : ProdCrawler Url}
    (h : ServerRun es s) {i : CallId} {seed : Url} {crawl : Option (Mutex (Crawl Url))} {e : Error}
    (hcall : s.calls i = some (.returned seed crawl (.error e))) :
    join seed "/robots.txt" = .error e ∨ .call i (.robots (.error e)) ∈ es ∨
      Cause (innerEvents i es) e := by
  rw [← mem_ownEvents]
  refine (h.failed hcall).imp_right (Or.imp_right ?_)
  rintro ⟨inner, ⟨robots, -, hrun⟩, failed | ⟨-, hp, htext⟩⟩
  · exact Run.caused hrun (Or.inr failed)
  · exact .poisoned (hrun.poison_mem hp) htext

/-- A panic has ended the call. -/
def Call.Gone : Call Url → Prop
  | .unwound _ _ | .unmade _ => True
  | .fetchingRobots _ _ | .made _ _ | .registered _ _ | .removed _ _ | .returned _ _ _ => False

/-- A call that is gone has panicked, in a step or before its crawl was registered. -/
lemma ServerRun.panicked {es : List (ServerEvent Url)} {s : ProdCrawler Url} (h : ServerRun es s)
    {i : CallId} {call : Call Url} (hi : s.calls i = some call) (hgone : call.Gone) :
    (∃ locked, .call i (.panic locked) ∈ es) ∨ ∃ robots, .call i (.abort robots) ∈ es := by
  simp only [← mem_ownEvents]
  refine h.call_induction (P := fun es call => call.Gone → (∃ locked, .panic locked ∈ es) ∨
    ∃ robots, .abort robots ∈ es) ?_ ?_ hi hgone
  · intro seed hgone
    rw [Call.begin] at hgone
    split at hgone <;> cases hgone
  · intro es s call event call' crawls _ _ _ hstep hgone
    cases Call.trans_of_step hstep with
    | panic => exact Or.inl ⟨_, List.mem_append_right _ (List.mem_singleton_self _)⟩
    | abort => exact Or.inr ⟨_, List.mem_append_right _ (List.mem_singleton_self _)⟩
    | robotsFailed | make | register | inner | remove | poisoned | fail | unwrap => cases hgone

/-! ### The failures of a request -/

variable [ParseUrl Url]

/-- **Failures are traced.**  A response with status 500 to a request to crawl is
due to a panic of its call, in a step or before its crawl was registered; or its
text is that of an error of its call: the one of resolving or fetching its
robots.txt, of a parse task, of the parser on a page of it, or of its own poisoned
lock.  The registry, references that remain and the closed channel never cause
one, nor does another request. -/
theorem failures_traced {es : List (WebEvent Url)} {s : Server Url} (h : ServedRun es s)
    {r : CallId} {endpoint : Endpoint} {param : String} (hreq : .seeded r endpoint param ∈ es)
    {reply : Reply} (hreply : s.requests r = some (.responded reply))
    (hfailed : reply.status = ⟨500⟩) :
    ∃ seed : Url, parse param = .ok seed ∧
      ((reply.body = .catcher ∧
          ((∃ locked, .call r (.panic locked) ∈ es) ∨ ∃ robots, .call r (.abort robots) ∈ es)) ∨
        ∃ e, reply.body = .text e.msg ∧ (join seed "/robots.txt" = .error e ∨
          .call r (.robots (.error e)) ∈ es ∨ Cause (innerEvents r (crawlerEvents es)) e)) := by
  cases h.stage hreq with
  | bad _ _ hreply' =>
      cases hreply.symm.trans hreply'
      cases hfailed
  | waiting _ _ waits => cases hreply.symm.trans waits
  | @responded call _ _ seed called responds hreply' =>
      cases hreply.symm.trans hreply'
      refine ⟨call.seed, seed, ?_⟩
      cases responds with
      | result =>
          cases endpoint with
          | crawl | list | count => cases hfailed
      | @error _ _ e =>
          refine Or.inr ⟨e, rfl, ?_⟩
          rcases h.crawler.error_cases called with hjoin | hrobots | hcause
          · exact Or.inl hjoin
          · exact Or.inr (Or.inl (mem_crawlerEvents.mp hrobots))
          · exact Or.inr (Or.inr hcause)
      | panic | abort =>
          refine Or.inl ⟨rfl, ?_⟩
          simpa only [mem_crawlerEvents] using h.crawler.panicked called trivial

/-- The events of a server with a request for a site whose start page cannot be
parsed, for the task has panicked. -/
def PlainUrl.failedEvents : List (WebEvent PlainUrl) :=
  [.seeded 0 .crawl "https://example.com/"] ++ [.robots (.ok none), .register,
    .inner (.start (site "/")), .inner (.got (site "/") (get (site "/"))),
    .inner (.parsed (site "/") (linkPage "/a") (.error ⟨"task panicked"⟩)), .inner .next, .remove,
    .finish].map (.call 0) ++ [.respond 0 ∅]

/-- The error of the task is in the response. -/
theorem failures_traced_task :
    ∃ s reply e, ServedRun PlainUrl.failedEvents s ∧ s.requests 0 = some (.responded reply) ∧
      reply.body = .text e.msg ∧ Cause (innerEvents 0 (crawlerEvents PlainUrl.failedEvents)) e := by
  have hreq : WebEvent.seeded 0 .crawl "https://example.com/" ∈ PlainUrl.failedEvents :=
    List.mem_append_left _ (List.mem_append_left _ List.mem_cons_self)
  obtain ⟨s, reply, hrun, hreply, hfailed, hbody⟩ : ∃ s reply,
      ServedRun PlainUrl.failedEvents s ∧ s.requests 0 = some (.responded reply) ∧
        reply.status = ⟨500⟩ ∧ reply.body = .text "task panicked" := ⟨_, _, rfl, rfl, rfl, rfl⟩
  obtain ⟨seed, -, ⟨hcatcher, -⟩ | ⟨e, htext, hjoin | hrobots | hcause⟩⟩ :=
    failures_traced hrun hreq hreply hfailed
  · cases hbody.symm.trans hcatcher
  · cases hjoin
  · simp [PlainUrl.failedEvents] at hrobots
  · exact ⟨s, reply, e, hrun, hreply, htext, hcause⟩

end MikesCrawler
