/-
A request is answered in every run without an end that is fair to it.

* `WebEvent.answers`, `Server.closedStep`: a server in which one request meets
  an environment that answers by functions of the url;
* `Call.rank`, `Server.rank`, `ServedRun.countP_le`, `ServedRun.own_bounded`: the
  events of a request are bounded, whatever the others do;
* `ServedRun.enabled`: until it is answered, one of them is enabled;
* `ServedRun.not_enabled`, `Server.Answered`: and then none, while the server goes
  on;
* `service_live`: so it is answered in the end, with its site exactly if the
  pages that can be reached parse.
-/
import MikesCrawler.Guarantees.Errors
import MikesCrawler.Guarantees.Service
import MikesCrawler.Machine.Fair

open Machine Wire

namespace MikesCrawler

variable {Url : Type} [DecidableEq Url] [Externals Url] [ParseUrl Url]
variable {get : Url → Except Error (HttpResponse Url)} {tasks : Url → Except Error Unit}
variable {robots : Option String} {seed : Url} {r : CallId}

/-! ### A request in its environment -/

/-- What a server meets of the environment of one request; the others may meet
anything. -/
def WebEvent.answers (get : Url → Except Error (HttpResponse Url))
    (tasks : Url → Except Error Unit) (robots : Option String) (r : CallId) : WebEvent Url → Bool
  | .call r' event => r' ≠ r || event.answers get tasks robots
  | .seeded _ _ _ | .status _ | .respond _ _ => true

/-- One event of a server that the environment of a request lets happen. -/
def Server.closedStep (get : Url → Except Error (HttpResponse Url))
    (tasks : Url → Except Error Unit) (robots : Option String) (r : CallId) :
    Server Url → WebEvent Url → Option (Server Url) :=
  restrict (fun _ e => e.answers get tasks robots r) Server.step

/-- A run of such a server is one of the server, and the call of the request has
met its environment only. -/
lemma servedRun_of_closed {es : List (WebEvent Url)} {s : Server Url}
    (h : exec (Server.closedStep get tasks robots r) {} es = some s) :
    ServedRun es s ∧ AnswersTo get tasks robots r (crawlerEvents es) := by
  unfold Server.closedStep at h
  refine ⟨exec_of_restrict h, fun event hmem => ?_⟩
  have hanswers : ∀ e ∈ es, WebEvent.answers get tasks robots r e = true := by
    refine restrict_forall (fun s e hlets => ?_) h
    exact hlets
  have hevent := hanswers _ (mem_crawlerEvents.mp (mem_ownEvents.mp hmem))
  rw [WebEvent.answers, Bool.or_eq_true, decide_eq_true_eq] at hevent
  exact hevent.resolve_left fun hne => hne rfl

/-! ### The events of a request are bounded -/

/-- How far a call is. -/
def Call.rank : Call Url → ℕ
  | .fetchingRobots _ _ => 0
  | .made _ _ => 1
  | .registered _ _ => 2
  | .removed _ _ => 3
  | .returned _ _ _ | .unwound _ _ | .unmade _ => 4

omit [DecidableEq Url] [Externals Url] [ParseUrl Url] in
lemma Call.rank_le (call : Call Url) : call.rank ≤ 4 := by
  cases call <;> simp [rank]

omit [ParseUrl Url] in
/-- An event of a call is one of its loop, or brings it further. -/
lemma Call.Trans.rank {i : CallId} {call call' : Call Url} {crawls crawls' : Mutex (Registry Url)}
    {event : CallEvent Url} (ht : Trans i call crawls event call' crawls') :
    call.rank + 1 ≤ call'.rank + (event.inner?).toList.length := by
  cases ht with
  | poisoned stage =>
      obtain ⟨rfl, rfl⟩ | ⟨rfl, rfl⟩ := stage <;> simp [Call.rank, CallEvent.inner?]
  | robotsFailed | make | abort | register | inner | panic | remove | fail | unwrap =>
      simp [Call.rank, CallEvent.inner?]

/-- How far a request is. -/
def Pending.rank : Option Pending → ℕ
  | none => 0
  | some (.waiting _) => 1
  | some (.responded _) => 2

/-- How far a request and its call are. -/
def Server.rank (s : Server Url) (r : CallId) : ℕ :=
  Pending.rank (s.requests r) + (s.crawler.calls r).elim 0 Call.rank

omit [DecidableEq Url] [Externals Url] [ParseUrl Url] in
lemma Server.rank_le (s : Server Url) (r : CallId) : s.rank r ≤ 6 := by
  have hrequest : Pending.rank (s.requests r) ≤ 2 := by
    obtain - | (endpoint | reply) := s.requests r <;> simp [Pending.rank]
  have hcall : (s.crawler.calls r).elim 0 Call.rank ≤ 4 := by
    cases s.crawler.calls r with
    | none => exact Nat.zero_le _
    | some call => exact call.rank_le
  rw [rank]
  omega

/-- An event of a request is one of the loop of its call, or brings it further. -/
lemma Server.Trans.rank {s s' : Server Url} {e : WebEvent Url} (ht : s.Trans e s')
    (hown : e.of r = true) :
    s.rank r + 1 ≤ s'.rank r + (innerEvents r (crawlerEvents [e])).length := by
  cases ht with
  | badSeed fresh | status fresh =>
      cases of_decide_eq_true hown
      simp [Server.rank, Pending.rank, fresh]
      omega
  | @seeded _ _ _ seed _ fresh _ next =>
      cases of_decide_eq_true hown
      obtain ⟨_, _, heq, huncalled, rfl⟩ | ⟨_, _, _, _, _, heq, -⟩ | ⟨heq, -⟩ :=
        ProdCrawler.step_cases next
      · cases heq
        simp [Server.rank, Pending.rank, fresh, huncalled]
        omega
      · cases heq
      · cases heq
  | @call _ event _ next =>
      cases of_decide_eq_true hown
      obtain ⟨_, _, heq, -⟩ | ⟨_, _, old, new, crawls, heq, hold, hcall, rfl⟩ | ⟨heq, -⟩ :=
        ProdCrawler.step_cases next
      · cases heq
      · cases heq
        have hrank := (Call.trans_of_step hcall).rank
        have hinner : innerEvents r (crawlerEvents [.call r event]) = event.inner?.toList := by
          cases hinner : event.inner? <;>
            simp [innerEvents, crawlerEvents, WebEvent.crawler?, ownEvents, hinner]
        rw [hinner]
        simp only [Server.rank, hold, Function.update_self, Option.elim_some]
        omega
      · cases heq
  | respond waiting =>
      cases of_decide_eq_true hown
      simp [Server.rank, Pending.rank, waiting]
      omega

/-- The events of a request are those of the loop of its call, and few others. -/
lemma ServedRun.countP_le {es : List (WebEvent Url)} {s : Server Url} (h : ServedRun es s) :
    es.countP (WebEvent.of r) ≤ s.rank r + (innerEvents r (crawlerEvents es)).length := by
  refine exec_trace_induction (P := fun es s => es.countP (WebEvent.of r) ≤
    Server.rank s r + (innerEvents r (crawlerEvents es)).length) ?_ ?_ h
  · exact Nat.zero_le _
  · rintro es e s s' - ih hstep
    have hinner : innerEvents r (crawlerEvents (es ++ [e]))
        = innerEvents r (crawlerEvents es) ++ innerEvents r (crawlerEvents [e]) := by
      simp only [innerEvents, crawlerEvents, ownEvents, List.filterMap_append]
    rw [hinner, List.length_append, List.countP_append, List.countP_singleton]
    cases hown : e.of r with
    | true =>
        have hrank := (Server.trans_of_step hstep).rank hown
        simp only [if_true]
        omega
    | false =>
        obtain ⟨hrequest, hcall⟩ := Server.other_step hown hstep
        have hrank : s'.rank r = s.rank r := by rw [Server.rank, Server.rank, hrequest, hcall]
        rw [hrank]
        simp only [Bool.false_eq_true, if_false]
        omega

omit [ParseUrl Url] in
/-- The events of the loop of a call in its environment are bounded by the size
of its site. -/
lemma ServerRun.inner_length_le {i : CallId} {es : List (ServerEvent Url)} {s : ProdCrawler Url}
    (h : ServerRun es s) (hanswers : AnswersTo get tasks robots i es) {call : Call Url}
    (hi : s.calls i = some call) (hfin : (siteUrls get robots call.seed).Finite) :
    (innerEvents i es).length ≤ 4 * (siteUrls get robots call.seed).ncard := by
  refine h.call_induction (P := fun es call =>
    (∀ event ∈ es, event.answers get tasks robots = true) →
      (siteUrls get robots call.seed).Finite →
      (es.filterMap CallEvent.inner?).length ≤ 4 * (siteUrls get robots call.seed).ncard)
    ?_ ?_ hi hanswers hfin
  · intro seed _ _
    exact Nat.zero_le _
  · rintro es s call event call' crawls hs hi ih hstep hanswers hfin
    have ht := Call.trans_of_step hstep
    cases hinner : event.inner? with
    | none =>
        rw [filterMap_concat_of_none hinner]
        rw [ht.seed_eq] at hfin ⊢
        exact ih (fun event hmem => hanswers event (List.mem_append_left _ hmem)) hfin
    | some inner =>
        -- the call is still in its loop
        have hfollows := ((hs.follows i).2 _ hi).trans ht
        cases event with
        | inner inner =>
            generalize s.crawls = crawls₀ at ht
            cases ht with
            | inner =>
                obtain ⟨hrun, hinnerAnswers⟩ := hfollows.run_of_answers hanswers
                exact hrun.length_le hinnerAnswers hfin
            | poisoned stage => obtain ⟨-, heq⟩ | ⟨-, heq⟩ := stage <;> cases heq
        | robots | abort | register | panic | remove | finish => cases hinner

/-- The events of a request in its environment are bounded. -/
lemma ServedRun.own_bounded {es : List (WebEvent Url)} {s : Server Url} (h : ServedRun es s)
    (hanswers : AnswersTo get tasks robots r (crawlerEvents es))
    (hseeds : ∀ call, s.crawler.calls r = some call → call.seed = seed)
    (hfin : (siteUrls get robots seed).Finite) :
    es.countP (WebEvent.of r) ≤ 6 + 4 * (siteUrls get robots seed).ncard := by
  have hcount := h.countP_le (r := r)
  have hrank := s.rank_le r
  have hinner : (innerEvents r (crawlerEvents es)).length
      ≤ 4 * (siteUrls get robots seed).ncard := by
    cases hcalled : s.crawler.calls r with
    | none =>
        rw [innerEvents, (h.crawler.follows r).1 hcalled]
        exact Nat.zero_le _
    | some call =>
        have hseed := hseeds call hcalled
        subst hseed
        exact h.crawler.inner_length_le hanswers hcalled hfin
  omega

/-! ### Until it is answered it can go on -/

omit [ParseUrl Url] in
/-- A call that has not ended can go on in its environment. -/
lemma ServerRun.enabled {i : CallId} {es : List (ServerEvent Url)} {s : ProdCrawler Url}
    (h : ServerRun es s) (hanswers : AnswersTo get tasks robots i es) {call : Call Url}
    (hi : s.calls i = some call) (hgoing : ¬ call.Ended)
    (hseed : robotsAllow robots call.seed = true) :
    ∃ event s', event.answers get tasks robots = true ∧ s.step (.call i event) = some s' := by
  have hlock := h.unpoisoned
  cases call with
  | fetchingRobots seed robotsUrl =>
      exact ⟨.robots (.ok robots), _, decide_eq_true rfl,
        ProdCrawler.step_call hi (Call.step_robots robots seed robotsUrl _)⟩
  | made seed inner =>
      exact ⟨.register, _, rfl, ProdCrawler.step_call hi (Call.step_register hlock inner)⟩
  | registered seed inner =>
      obtain ⟨hrun, -⟩ := ((h.follows i).2 _ hi).run_of_answers hanswers
      by_cases hended : inner.outcome = none
      · have hmoves : ∃ e inner', inner.closedStep get tasks e = some inner' :=
          hrun.closed_enabled hseed hended
        obtain ⟨e, inner', hstep⟩ := hmoves
        obtain ⟨⟨-, he⟩, hstep⟩ := CrawlInner.closedStep_eq_some.mp hstep
        have hmoved : (Call.registered seed inner).step i s.crawls (.inner e)
            = some (.registered seed inner', s.crawls) := by
          rw [Call.step, hstep, Option.map_some]
        exact ⟨.inner e, _, he, ProdCrawler.step_call hi hmoved⟩
      · exact ⟨.remove, _, rfl, ProdCrawler.step_call hi (Call.step_remove hlock hended)⟩
  | removed seed inner =>
      obtain ⟨-, hended⟩ := (h.follows i).2 _ hi
      obtain ⟨outcome, houtcome⟩ := Option.ne_none_iff_exists'.mp hended
      have hfinish : ∃ new, (Call.removed seed inner).step i s.crawls .finish
          = some (new, s.crawls) := by
        rw [Call.step, houtcome]
        cases outcome with
        | error e => exact ⟨_, rfl⟩
        | ok _ => exact ⟨_, rfl⟩
      obtain ⟨new, hfinish⟩ := hfinish
      exact ⟨.finish, _, rfl, ProdCrawler.step_call hi hfinish⟩
  | returned | unwound | unmade => exact absurd trivial hgoing

/-- A request that waits can go on in its environment. -/
lemma ServedRun.enabled {es : List (WebEvent Url)} {s : Server Url} (h : ServedRun es s)
    (hanswers : AnswersTo get tasks robots r (crawlerEvents es)) {endpoint : Endpoint}
    (hwaits : s.requests r = some (.waiting endpoint)) {call : Call Url}
    (hi : s.crawler.calls r = some call) (hseed : robotsAllow robots call.seed = true) :
    Enabled (Server.closedStep get tasks robots r) (WebEvent.of r) s := by
  by_cases hended : call.Ended
  · -- its handler can respond
    obtain ⟨order, reply, hresponds⟩ : ∃ order reply, Responds endpoint order call reply := by
      cases call with
      | returned seed crawl result =>
          cases result with
          | ok result =>
              obtain ⟨order, horder⟩ := result.exists_iterates
              exact ⟨order, _, .result horder⟩
          | error e => exact ⟨∅, _, .error⟩
      | unwound seed crawl => exact ⟨∅, _, .panic⟩
      | unmade seed => exact ⟨∅, _, .abort⟩
      | fetchingRobots | made | registered | removed => cases hended
    exact ⟨.respond r order, _, decide_eq_true rfl, restrict_eq_some.mpr
      ⟨rfl, Server.step_of_trans (.respond hwaits hi hresponds)⟩⟩
  · obtain ⟨event, crawler, hevent, hstep⟩ := h.crawler.enabled hanswers hi hended hseed
    have hlets : (WebEvent.call r event).answers get tasks robots r = true :=
      Bool.or_eq_true_iff.mpr (Or.inr hevent)
    exact ⟨.call r event, _, decide_eq_true rfl, restrict_eq_some.mpr
      ⟨hlets, Server.step_of_trans (.call hstep)⟩⟩

omit [ParseUrl Url] in
/-- A call whose environment has let it fetch its robots.txt fails only if a page
of its site does not parse. -/
lemma ServerRun.failed_of_answers {i : CallId} {es : List (ServerEvent Url)} {s : ProdCrawler Url}
    (h : ServerRun es s) (hanswers : AnswersTo get tasks robots i es)
    {crawl : Option (Mutex (Crawl Url))} {e : Error}
    (hcall : s.calls i = some (.returned seed crawl (.error e))) {robotsUrl : Url}
    (hjoin : join seed "/robots.txt" = .ok robotsUrl) : ¬ PagesParse get tasks robots seed := by
  intro hpages
  obtain hfailed | hrobots | ⟨inner, hloops, hend⟩ := h.failed hcall
  · cases hfailed.symm.trans hjoin
  · have hanswer := hanswers _ hrobots
    rw [CallEvent.answers, decide_eq_true_eq] at hanswer
    cases hanswer
  · obtain ⟨hrun, hinner⟩ := hloops.run_of_answers hanswers
    rcases hend with failed | ⟨-, hp, -⟩
    · have hended : inner.outcome ≠ none := by simp [failed]
      cases failed.symm.trans ((hrun.verdict hinner hended).ok_iff.mpr hpages)
    · cases (hrun.unpoisoned hinner.unpoisoned).symm.trans hp

/-! ### Servers that go on after a response -/

/-- A request that is answered has no more events. -/
lemma ServedRun.not_enabled {es : List (WebEvent Url)} {s : Server Url} (h : ServedRun es s)
    {endpoint : Endpoint} {param : String} (hreq : .seeded r endpoint param ∈ es) {reply : Reply}
    (hreply : s.requests r = some (.responded reply)) :
    ¬ Enabled (Server.closedStep get tasks robots r) (WebEvent.of r) s := by
  rintro ⟨e, t, hown, hstep⟩
  cases Server.trans_of_step (restrict_eq_some.mp hstep).2 with
  | badSeed fresh | seeded fresh | status fresh =>
      cases of_decide_eq_true hown
      cases fresh.symm.trans hreply
  | @call _ event _ next =>
      cases of_decide_eq_true hown
      obtain ⟨_, _, heq, -⟩ | ⟨_, _, old, new, crawls, heq, hold, hcall, -⟩ | ⟨heq, -⟩ :=
        ProdCrawler.step_cases next
      · cases heq
      · cases heq
        cases h.stage hreq with
        | bad _ uncalled => cases uncalled.symm.trans hold
        | waiting _ _ waits => cases waits.symm.trans hreply
        | responded _ called responds =>
            cases called.symm.trans hold
            exact responds.no_trans (Call.trans_of_step hcall)
      · cases heq
  | respond waiting =>
      cases of_decide_eq_true hown
      cases waiting.symm.trans hreply

/-- A request without events has not been received. -/
lemma ServedRun.fresh {es : List (WebEvent Url)} {s : Server Url} (h : ServedRun es s)
    (hnone : ∀ e ∈ es, e.of r = false) : s.requests r = none := by
  refine exec_trace_induction (P := fun es s => (∀ e ∈ es, WebEvent.of r e = false) →
    s.requests r = none) ?_ ?_ h hnone
  · intro _
    rfl
  · rintro es e s s' - ih hstep hnone
    have hother := hnone e (List.mem_append_right _ (List.mem_singleton_self _))
    exact (Server.other_step hother hstep).1.trans
      (ih fun e' hmem => hnone e' (List.mem_append_left _ hmem))

/-- A request is answered, and there are others to come. -/
def Server.Answered (s : Server Url) (r : CallId) (reply : Reply) : Prop :=
  s.requests r = some (.responded reply) ∧ ∃ bound, ∀ r', bound ≤ r' → s.requests r' = none

/-- A server that has answered a request can go on. -/
lemma Server.Answered.next {s : Server Url} {reply : Reply} (h : s.Answered r reply) :
    ∃ e t, Server.closedStep get tasks robots r s e = some t ∧ t.Answered r reply := by
  obtain ⟨hreply, bound, hfresh⟩ := h
  have hne : r ≠ bound := by
    rintro rfl
    cases (hfresh r le_rfl).symm.trans hreply
  refine ⟨.status bound, _, restrict_eq_some.mpr
    ⟨rfl, Server.step_of_trans (.status (hfresh bound le_rfl))⟩, ?_, bound + 1, fun r' hr' => ?_⟩
  · exact (Server.update_requests_of_ne hne _).trans hreply
  · have hne' : r' ≠ bound := (Nat.lt_of_succ_le hr').ne'
    exact (Server.update_requests_of_ne hne' _).trans (hfresh r' (Nat.le_of_succ_le hr'))

/-- The requests of a server of a site. -/
lemma PlainUrl.webEvents_of {endpoint : Endpoint} {r : CallId} (hr : 3 ≤ r)
    {e : WebEvent PlainUrl} (hmem : e ∈ webEvents endpoint) : e.of r = false := by
  have hlt : ∀ r', r' < 3 → decide (r' = r) = false := fun r' hr' =>
    decide_eq_false (Nat.lt_of_lt_of_le hr' hr).ne
  simp only [webEvents, callEvents, List.mem_append, List.mem_map, List.mem_cons,
    List.not_mem_nil, or_false] at hmem
  rcases hmem with ((rfl | rfl) | ⟨event, -, rfl⟩) | (rfl | rfl) <;> exact hlt _ (by decide)

/-! ### Every fair run answers it -/

/-- What a request to crawl is answered in its environment. -/
lemma ServedRun.reply_of_answers {es : List (WebEvent Url)} {s : Server Url} (h : ServedRun es s)
    (hanswers : AnswersTo get tasks robots r (crawlerEvents es)) {endpoint : Endpoint}
    {param : String} (hreq : .seeded r endpoint param ∈ es) (hparam : parse param = .ok seed)
    {robotsUrl : Url} (hjoin : join seed "/robots.txt" = .ok robotsUrl) {reply : Reply}
    (hreply : s.requests r = some (.responded reply)) :
    (reply.status = ⟨200⟩ ↔ PagesParse get tasks robots seed) ∧
      ∀ value, reply.body = .json value → SiteAnswer get robots seed endpoint value := by
  cases h.stage hreq with
  | bad good => cases good.symm.trans hparam
  | waiting _ _ waits => cases waits.symm.trans hreply
  | responded good called responds hreply' =>
      cases hreply.symm.trans hreply'
      cases good.symm.trans hparam
      cases responds with
      | result horder =>
          obtain ⟨hreached, hentries⟩ := h.crawler.result_of_answers hanswers called
          obtain ⟨value, hvalue, hanswer⟩ := endpoint.siteAnswer horder hreached hentries
          obtain ⟨inner, hloops, hok, -⟩ := (h.crawler.follows r).2 _ called
          obtain ⟨hrun, hinner⟩ := hloops.run_of_answers hanswers
          have hended : inner.outcome ≠ none := by simp [hok]
          rw [hvalue]
          refine ⟨iff_of_true rfl ((hrun.verdict hinner hended).ok_iff.mp hok),
            fun value' hbody => ?_⟩
          cases hbody
          exact hanswer
      | error =>
          have hpages := h.crawler.failed_of_answers hanswers called hjoin
          exact ⟨iff_of_false (fun hok => by cases hok) hpages, fun value hbody => by cases hbody⟩
      | panic | abort =>
          obtain ⟨_, hmem⟩ | ⟨_, hmem⟩ := h.crawler.panicked called trivial
          · cases hanswers _ (mem_ownEvents.mpr hmem)
          · cases hanswers _ (mem_ownEvents.mpr hmem)

/-- A response stays in an infinite run. -/
lemma Forever.reply_stays {events : ℕ → WebEvent Url} {states : ℕ → Server Url}
    (h : Forever (Server.closedStep get tasks robots r) {} events states) {n : ℕ} {reply : Reply}
    (hreply : (states n).requests r = some (.responded reply)) {m : ℕ} (hm : n ≤ m) :
    (states m).requests r = some (.responded reply) := by
  induction m, hm using Nat.le_induction with
  | base => exact hreply
  | succ m _ ih =>
      have hstep := (restrict_eq_some.mp (h.next m)).2
      exact (Server.trans_of_step hstep).reply_stays ih

/-- **A request is answered in the end.**  In every infinite run of a server that
is weakly fair to a request, whatever the other requests do, panics of their
handlers included, the request has a response from some time on: with an allowed
seed, a finite site, and an environment that answers its call by functions of the
url.  Its status is 200 exactly if the pages that can be reached parse, and then
it tells the site. -/
theorem service_live {events : ℕ → WebEvent Url} {states : ℕ → Server Url}
    (h : Forever (Server.closedStep get tasks robots r) {} events states)
    (hfair : Fair (Server.closedStep get tasks robots r) (WebEvent.of r) events states)
    {k : ℕ} {endpoint : Endpoint} {param : String} (hreq : events k = .seeded r endpoint param)
    (hparam : parse param = .ok seed) {robotsUrl : Url}
    (hjoin : join seed "/robots.txt" = .ok robotsUrl) (hseed : robotsAllow robots seed = true)
    (hfin : (siteUrls get robots seed).Finite) :
    ∃ n reply, (∀ m, n ≤ m → (states m).requests r = some (.responded reply)) ∧
      (reply.status = ⟨200⟩ ↔ PagesParse get tasks robots seed) ∧
      ∀ value, reply.body = .json value → SiteAnswer get robots seed endpoint value := by
  have hserved : ∀ n, ServedRun (before events n) (states n) ∧
      AnswersTo get tasks robots r (crawlerEvents (before events n)) :=
    fun n => servedRun_of_closed (h.run n)
  have hstage : ∀ n, k + 1 ≤ n → (states n).Stage r endpoint param := fun n hn =>
    (hserved n).1.stage (hreq ▸ mem_before hn)
  have hbounded : ∀ n, (before events n).countP (WebEvent.of r)
      ≤ 6 + 4 * (siteUrls get robots seed).ncard := by
    intro n
    obtain ⟨hrun, hanswers⟩ := hserved (max n (k + 1))
    refine (countP_before_mono events _ (le_max_left n (k + 1))).trans
      (hrun.own_bounded hanswers (fun call hcalled => ?_) hfin)
    cases hstage _ (le_max_right n (k + 1)) with
    | bad _ uncalled => cases uncalled.symm.trans hcalled
    | waiting good called | responded good called =>
        cases called.symm.trans hcalled
        exact Except.ok.inj (good.symm.trans hparam)
  obtain ⟨n, hn, reply, hreply⟩ : ∃ n, k + 1 ≤ n ∧
      ∃ reply, (states n).requests r = some (.responded reply) := by
    refine Forever.eventually (P := fun s => ∃ reply, s.requests r = some (.responded reply))
      hfair hbounded fun n hn hunanswered => ?_
    cases hstage n hn with
    | bad good => cases good.symm.trans hparam
    | waiting good called waits =>
        cases good.symm.trans hparam
        exact (hserved n).1.enabled (hserved n).2 waits called hseed
    | responded _ _ _ hreply => exact absurd ⟨_, hreply⟩ hunanswered
  obtain ⟨hrun, hanswers⟩ := hserved n
  exact ⟨n, reply, fun m hm => Forever.reply_stays h hreply hm,
    hrun.reply_of_answers hanswers (hreq ▸ mem_before hn) hparam hjoin hreply⟩

/-- A server that has answered its requests for a site, one with a bad seed and
one for the status, and is then asked for its status forever. -/
theorem service_live_list :
    ∃ events states n reply,
      Forever (Server.closedStep PlainUrl.get (fun _ => .ok ()) (some PlainUrl.robotsTxt) 0) {}
        events states ∧
      (∀ m, n ≤ m → (states m).requests 0 = some (.responded reply)) ∧ reply.status = ⟨200⟩ := by
  obtain ⟨s, reply, hrun, hreply⟩ : ∃ s reply,
      exec (Server.closedStep PlainUrl.get (fun _ => .ok ()) (some PlainUrl.robotsTxt) 0) {}
        (PlainUrl.webEvents .list) = some s ∧ s.requests 0 = some (.responded reply) :=
    ⟨_, _, rfl, rfl⟩
  have hfresh : ∀ r', 3 ≤ r' → s.requests r' = none := fun r' hr' =>
    (servedRun_of_closed hrun).1.fresh fun e hmem => PlainUrl.webEvents_of hr' hmem
  obtain ⟨events, states, hforever, hbefore, hstays⟩ :=
    Forever.of_exec (I := fun s => s.Answered 0 reply) (fun s hs => hs.next) ⟨hreply, 3, hfresh⟩
      hrun
  have hfirst : events 0 = .seeded 0 .list "https://example.com/" := by
    have hhead : (before events (PlainUrl.webEvents .list).length).head? = some (events 0) := rfl
    rw [hbefore] at hhead
    exact (Option.some.inj hhead).symm
  have hfair : Fair (Server.closedStep PlainUrl.get (fun _ => .ok ()) (some PlainUrl.robotsTxt) 0)
      (WebEvent.of 0) events states := by
    refine Fair.of_disabled (k := (PlainUrl.webEvents .list).length) fun n hn => ?_
    have hreq : events 0 ∈ before events n := mem_before (Nat.lt_of_lt_of_le (by decide) hn)
    rw [hfirst] at hreq
    exact (servedRun_of_closed (hforever.run n)).1.not_enabled hreq (hstays n hn).1
  obtain ⟨n, reply', hreplies, hok, -⟩ := service_live hforever hfair hfirst rfl rfl rfl
    (PlainUrl.siteReach_finite (by decide))
  exact ⟨events, states, n, reply', hforever, hreplies, hok.mpr (PlainUrl.pagesParse _ _)⟩

end MikesCrawler
