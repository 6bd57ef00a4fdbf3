/-
The life of a request, whatever the other requests do.

* `Server.Stage`, `ServedRun.stage`: a request to crawl has failed on its seed,
  or waits for its call, or has the response to the end of its call;
* `request_lifecycle`: so it has at most one response, which never changes, and
  whose status says how its call ended;
* `ServedRun.own_step`, `request_isolated`: and the events of a request form a
  run of a server without the others, with the same response.
-/
import MikesCrawler.Guarantees.Panics
import MikesCrawler.Refine.Server

open Machine Wire

namespace MikesCrawler

variable {Url : Type} [DecidableEq Url] [Externals Url] [ParseUrl Url]

/-! ### The stages of a request -/

/-- Where a request to crawl is: it has failed on its seed, without a call; its
call is made, and it waits for it; or it has the response to the end of its
call. -/
inductive Server.Stage (s : Server Url) (r : CallId) (endpoint : Endpoint) (param : String) : Prop
  | bad {err : Error} (seed : (parse param : Except Error Url) = .error err)
      (uncalled : s.crawler.calls r = none)
      (reply : s.requests r = some (.responded ⟨⟨400⟩, .text err.msg⟩)) : Stage s r endpoint param
  | waiting {call : Call Url} (seed : parse param = .ok call.seed)
      (called : s.crawler.calls r = some call) (waits : s.requests r = some (.waiting endpoint)) :
      Stage s r endpoint param
  | responded {call : Call Url} {order : Iteration Url} {reply : Reply}
      (seed : parse param = .ok call.seed) (called : s.crawler.calls r = some call)
      (responds : Responds endpoint order call reply)
      (reply : s.requests r = some (.responded reply)) : Stage s r endpoint param

variable {s s' : Server Url} {r : CallId} {endpoint : Endpoint} {param : String}

omit [DecidableEq Url] in
lemma Server.Stage.requests_ne (h : s.Stage r endpoint param) : s.requests r ≠ none := by
  cases h with
  | bad _ _ hreply | waiting _ _ hreply | responded _ _ _ hreply =>
      rw [hreply]
      exact Option.some_ne_none _

omit [DecidableEq Url] in
/-- A stage depends on the request and its call alone. -/
lemma Server.Stage.congr (h : s.Stage r endpoint param)
    (hcall : s'.crawler.calls r = s.crawler.calls r) (hrequest : s'.requests r = s.requests r) :
    s'.Stage r endpoint param := by
  cases h with
  | bad seed uncalled reply => exact .bad seed (hcall.trans uncalled) (hrequest.trans reply)
  | waiting seed called waits => exact .waiting seed (hcall.trans called) (hrequest.trans waits)
  | responded seed called responds reply =>
      exact .responded seed (hcall.trans called) responds (hrequest.trans reply)

omit [ParseUrl Url] in
/-- A call that a handler has responded to has ended. -/
lemma Responds.no_trans {order : Iteration Url} {call call' : Call Url} {reply : Reply}
    {crawls crawls' : Mutex (Registry Url)} {event : CallEvent Url}
    (h : Responds endpoint order call reply) :
    ¬ Call.Trans r call crawls event call' crawls' := by
  intro ht
  cases h with
  | result | error | panic | abort =>
      cases ht with
      | poisoned stage => obtain ⟨hcall, -⟩ | ⟨hcall, -⟩ := stage <;> cases hcall

/-- An event of the call of a request moves a call that the request waits for. -/
lemma Server.Stage.call {event : CallEvent Url} {crawler : ProdCrawler Url}
    (h : s.Stage r endpoint param) (next : s.crawler.step (.call r event) = some crawler) :
    Server.Stage { s with crawler } r endpoint param := by
  obtain ⟨_, _, heq, -⟩ | ⟨_, _, old, new, crawls, heq, hold, hcall, rfl⟩ | ⟨heq, -⟩ :=
    ProdCrawler.step_cases next
  · cases heq
  · cases heq
    have ht := Call.trans_of_step hcall
    cases h with
    | bad _ uncalled => cases uncalled.symm.trans hold
    | waiting seed called waits =>
        cases called.symm.trans hold
        refine .waiting ?_ (Function.update_self r _ _) waits
        rw [ht.seed_eq]
        exact seed
    | responded _ called responds =>
        cases called.symm.trans hold
        exact absurd ht responds.no_trans
  · cases heq

omit [DecidableEq Url] in
/-- The response to the end of its call ends a request that waits for it. -/
lemma Server.Stage.respond {endpoint' : Endpoint} {order : Iteration Url} {call : Call Url}
    {reply : Reply} (h : s.Stage r endpoint param)
    (waiting : s.requests r = some (.waiting endpoint'))
    (ended : s.crawler.calls r = some call) (responds : Responds endpoint' order call reply) :
    (s.update r (.responded reply)).Stage r endpoint param := by
  cases h with
  | bad _ _ hreply | responded _ _ _ hreply => cases waiting.symm.trans hreply
  | waiting seed called waits =>
      cases called.symm.trans ended
      cases waits.symm.trans waiting
      exact .responded seed ended responds (update_requests_self _)

/-- A transition of a server keeps the stages of its requests. -/
lemma Server.Stage.trans {e : WebEvent Url} (h : s.Stage r endpoint param) (ht : s.Trans e s') :
    s'.Stage r endpoint param := by
  cases ht with
  | @badSeed r' _ _ _ fresh =>
      have hne : r ≠ r' := fun heq => h.requests_ne (heq ▸ fresh)
      exact h.congr rfl (update_requests_of_ne hne _)
  | @seeded r' _ _ seed crawler fresh _ next =>
      have hne : r ≠ r' := fun heq => h.requests_ne (heq ▸ fresh)
      have hother : (ServerEvent.crawl r' seed).of r = false :=
        decide_eq_false (Ne.symm hne)
      exact h.congr (ProdCrawler.other_step hother next) (update_requests_of_ne hne _)
  | @status r' fresh =>
      have hne : r ≠ r' := fun heq => h.requests_ne (heq ▸ fresh)
      exact h.congr rfl (update_requests_of_ne hne _)
  | @call r' event crawler next =>
      by_cases heq : r' = r
      · subst heq
        exact h.call next
      · have hother : (ServerEvent.call r' event).of r = false := decide_eq_false heq
        exact h.congr (ProdCrawler.other_step hother next) rfl
  | @respond r' _ _ call reply waiting ended responds =>
      by_cases heq : r' = r
      · subst heq
        exact h.respond waiting ended responds
      · exact h.congr rfl (update_requests_of_ne (Ne.symm heq) _)

/-- **The stages of a request**: in every state of a server each request to
crawl that it has received is in one. -/
theorem ServedRun.stage {es : List (WebEvent Url)} (h : ServedRun es s)
    (hreq : .seeded r endpoint param ∈ es) : s.Stage r endpoint param := by
  revert endpoint param
  refine exec_trace_induction (P := fun es s => ∀ {endpoint param},
    WebEvent.seeded r endpoint param ∈ es → s.Stage r endpoint param) ?_ ?_ h
  · intro endpoint param hreq
    cases hreq
  · rintro es e s s' hs ih hstep endpoint param hreq
    have ht := Server.trans_of_step hstep
    rcases List.mem_append.mp hreq with hreq | hreq
    · exact (ih hreq).trans ht
    · obtain rfl := List.mem_singleton.mp hreq
      cases ht with
      | badSeed fresh bad =>
          refine .bad bad ?_ (Server.update_requests_self _)
          cases hcalled : s.crawler.calls r with
          | none => exact hcalled
          | some call =>
              -- a call is made for a request, which this one would not be the first of
              obtain ⟨_, _, hearlier, -⟩ := ServedRun.seeded_of_call hs hcalled
              exact absurd fresh (ih hearlier).requests_ne
      | seeded fresh good next =>
          obtain ⟨_, _, heq, -, rfl⟩ | ⟨_, _, _, _, _, heq, -⟩ | ⟨heq, -⟩ :=
            ProdCrawler.step_cases next
          · cases heq
            refine .waiting ?_ (Function.update_self r _ _) (Server.update_requests_self _)
            rw [Call.begin_seed]
            exact good
          · cases heq
          · cases heq

/-- A response stays. -/
lemma Server.Trans.reply_stays {e : WebEvent Url} {reply : Reply} (ht : s.Trans e s')
    (h : s.requests r = some (.responded reply)) : s'.requests r = some (.responded reply) := by
  cases ht with
  | @badSeed r' _ _ _ fresh | @seeded r' _ _ _ _ fresh | @status r' fresh =>
      have hne : r ≠ r' := by
        rintro rfl
        cases fresh.symm.trans h
      exact (update_requests_of_ne hne _).trans h
  | call => exact h
  | @respond r' _ _ _ _ waiting =>
      have hne : r ≠ r' := by
        rintro rfl
        cases waiting.symm.trans h
      exact (update_requests_of_ne hne _).trans h

/-- **The life of a request.**  In every state of a server a request to crawl is
in one of its stages.  It gets at most one response, which never changes: with
status 400 and the text of the parser if its seed is no url, and then it has no
events of a call; with status 200 if its call has returned a result; and with
status 500 if its call has returned an error, or has panicked, in a step or before
its crawl was registered. -/
theorem request_lifecycle {es : List (WebEvent Url)} (h : ServedRun es s)
    (hreq : .seeded r endpoint param ∈ es) :
    s.Stage r endpoint param ∧
    ∀ reply, s.requests r = some (.responded reply) →
      (∀ fs t, exec Server.step s fs = some t → t.requests r = some (.responded reply)) ∧
      ((reply.status = ⟨400⟩ ∧ (∃ err, (parse param : Except Error Url) = .error err ∧
          reply.body = .text err.msg) ∧ ∀ event, .call r event ∉ es) ∨
        (∃ seed, parse param = .ok seed ∧
          ((reply.status = ⟨200⟩ ∧ ∃ crawl result,
            s.crawler.calls r = some (.returned seed crawl (.ok result))) ∨
          (reply.status = ⟨500⟩ ∧
            ((∃ crawl e, reply.body = .text e.msg ∧
              s.crawler.calls r = some (.returned seed crawl (.error e))) ∨
            (reply.body = .catcher ∧
              ((∃ crawl, s.crawler.calls r = some (.unwound seed crawl)) ∨
                s.crawler.calls r = some (.unmade seed)))))))) := by
  have hstage := h.stage hreq
  refine ⟨hstage, fun reply hreply => ⟨fun fs t hfs => ?_, ?_⟩⟩
  · refine exec_invariant (P := fun s : Server Url => s.requests r = some (.responded reply))
      (fun s e t hs hstep => (Server.trans_of_step hstep).reply_stays hs) hreply hfs
  · cases hstage with
    | bad seed uncalled hreply' =>
        cases hreply.symm.trans hreply'
        refine Or.inl ⟨rfl, ⟨_, seed, rfl⟩, fun event hmem => ?_⟩
        have hown : event ∈ ownEvents r (crawlerEvents es) :=
          mem_ownEvents.mpr (mem_crawlerEvents.mpr hmem)
        rw [(h.crawler.follows r).1 uncalled] at hown
        cases hown
    | waiting _ _ waits => cases waits.symm.trans hreply
    | responded seed called responds hreply' =>
        cases hreply.symm.trans hreply'
        refine Or.inr ⟨_, seed, ?_⟩
        cases responds with
        | result =>
            refine Or.inl ⟨?_, _, _, called⟩
            cases endpoint with
            | crawl | list | count => rfl
        | error => exact Or.inr ⟨rfl, Or.inl ⟨_, _, rfl, called⟩⟩
        | panic => exact Or.inr ⟨rfl, Or.inr ⟨rfl, Or.inl ⟨_, called⟩⟩⟩
        | abort => exact Or.inr ⟨rfl, Or.inr ⟨rfl, Or.inr called⟩⟩

/-- The response to a request for a list of the pages of a site is there for
good. -/
theorem request_lifecycle_list :
    ∃ s reply, ServedRun (PlainUrl.webEvents .list) s ∧ reply.status = ⟨200⟩ ∧
      ∀ fs t, exec Server.step s fs = some t → t.requests 0 = some (.responded reply) := by
  obtain ⟨s, reply, hrun, hreply, hok⟩ : ∃ s reply, ServedRun (PlainUrl.webEvents .list) s ∧
      s.requests 0 = some (.responded reply) ∧ reply.status = ⟨200⟩ := ⟨_, _, rfl, rfl, rfl⟩
  have hreq : WebEvent.seeded 0 .list "https://example.com/" ∈ PlainUrl.webEvents .list :=
    List.mem_append_left _ (List.mem_append_left _ List.mem_cons_self)
  exact ⟨s, reply, hrun, hok, ((request_lifecycle hrun hreq).2 reply hreply).1⟩

/-- Rocket answers for a robots matcher that panics on the seed. -/
example : ∃ s : Server PlainUrl, ServedRun [.seeded 0 .crawl "https://example.com/",
    .call 0 (.abort (some PlainUrl.robotsTxt)), .respond 0 ∅] s ∧
      s.requests 0 = some (.responded caught) ∧ s.crawler.crawls.data = ∅ :=
  ⟨_, rfl, rfl, rfl⟩

/-! ### A request among others -/

/-- Whether an event is of a request. -/
def WebEvent.of (r : CallId) : WebEvent Url → Bool
  | .seeded r' _ _ | .status r' | .call r' _ | .respond r' _ => r' = r

/-- Two servers are in the same state as far as a request goes. -/
def Server.SameAt (r : CallId) (s t : Server Url) : Prop :=
  t.requests r = s.requests r ∧ t.crawler.calls r = s.crawler.calls r

variable {t : Server Url} {es fs : List (WebEvent Url)}

omit [DecidableEq Url] [Externals Url] [ParseUrl Url] in
lemma Server.SameAt.symm (h : s.SameAt r t) : t.SameAt r s := ⟨h.1.symm, h.2.symm⟩

omit [DecidableEq Url] [Externals Url] [ParseUrl Url] in
lemma Server.SameAt.update (h : s.SameAt r t) (pending : Pending) :
    (s.update r pending).SameAt r (t.update r pending) :=
  ⟨(update_requests_self _).trans (update_requests_self _).symm, h.2⟩

/-- What a request to crawl can meet depends on it and its call alone: in any
two servers in which they are alike, the same events take them the same way. -/
lemma ServedRun.own_step (h : ServedRun es s) (h' : ServedRun fs t) (hsame : s.SameAt r t)
    {e : WebEvent Url} (hown : e.of r = true) (hstatus : e ≠ .status r)
    (hstep : s.step e = some s') :
    ∃ t', t.step e = some t' ∧ s'.SameAt r t' ∧
      ∀ r', r' ≠ r → t'.requests r' = t.requests r' ∧ t'.crawler.calls r' = t.crawler.calls r' := by
  obtain ⟨hrequest, hcall⟩ := id hsame
  cases Server.trans_of_step hstep with
  | badSeed fresh bad =>
      cases (of_decide_eq_true hown)
      exact ⟨_, Server.step_of_trans (.badSeed (hrequest.trans fresh) bad), hsame.update _,
        fun r' hr' => ⟨Server.update_requests_of_ne hr' _, rfl⟩⟩
  | @seeded _ endpoint _ seed _ fresh good next =>
      cases (of_decide_eq_true hown)
      obtain ⟨_, _, heq, huncalled, rfl⟩ | ⟨_, _, _, _, _, heq, -⟩ | ⟨heq, -⟩ :=
        ProdCrawler.step_cases next
      · cases heq
        have hnext := ProdCrawler.step_crawl (hcall.trans huncalled) seed
        refine ⟨_, Server.step_of_trans (.seeded (hrequest.trans fresh) good hnext),
          ⟨?_, ?_⟩, fun r' hr' => ⟨Server.update_requests_of_ne hr' _, ?_⟩⟩
        · exact (Server.update_requests_self _).trans (Server.update_requests_self _).symm
        · exact (Function.update_self r _ _).trans (Function.update_self r _ s.crawler.calls).symm
        · exact Function.update_of_ne hr' _ _
      · cases heq
      · cases heq
  | status =>
      cases (of_decide_eq_true hown)
      exact absurd rfl hstatus
  | call next =>
      cases (of_decide_eq_true hown)
      obtain ⟨crawler, hnext, hcall', hothers⟩ :=
        ServerRun.own_step h.crawler h'.crawler hcall next
      exact ⟨_, Server.step_of_trans (.call hnext), ⟨hrequest, hcall'⟩,
        fun r' hr' => ⟨rfl, hothers r' hr'⟩⟩
  | respond waiting ended responds =>
      cases (of_decide_eq_true hown)
      have hrespond := Server.Trans.respond (hrequest.trans waiting) (hcall.trans ended) responds
      exact ⟨_, Server.step_of_trans hrespond, hsame.update _,
        fun r' hr' => ⟨Server.update_requests_of_ne hr' _, rfl⟩⟩

/-- An event that is not of a request leaves it and its call as they are. -/
lemma Server.other_step {e : WebEvent Url} (hother : e.of r = false)
    (hstep : s.step e = some s') : s.SameAt r s' := by
  cases trans_of_step hstep with
  | badSeed | status | respond =>
      exact ⟨update_requests_of_ne (Ne.symm (of_decide_eq_false hother)) _, rfl⟩
  | @seeded r' _ _ seed _ _ _ next =>
      have hother' : (ServerEvent.crawl r' seed).of r = false := hother
      exact ⟨update_requests_of_ne (Ne.symm (of_decide_eq_false hother)) _,
        ProdCrawler.other_step hother' next⟩
  | @call r' event _ next =>
      have hother' : (ServerEvent.call r' event).of r = false := hother
      exact ⟨rfl, ProdCrawler.other_step hother' next⟩

/-- **A request is as it is alone**, whatever the other requests do, also if
their handlers panic: its events form a run of a server that has received no
other request, in which it has the same response if it has one; and there the
same events can happen next, with the same outcome.  (A request for the status is
not like that.) -/
theorem request_isolated (h : ServedRun es s) (hstatus : .status r ∉ es) :
    ∃ t, ServedRun (es.filter (WebEvent.of r)) t ∧ t.requests r = s.requests r ∧
      t.crawler.calls r = s.crawler.calls r ∧
      (∀ r', r' ≠ r → t.requests r' = none ∧ t.crawler.calls r' = none) ∧
      ∀ e pending, e.of r = true → e ≠ .status r →
        ((∃ s', s.step e = some s' ∧ s'.requests r = pending) ↔
          ∃ t', t.step e = some t' ∧ t'.requests r = pending) := by
  obtain ⟨t, ht, hsame, hothers⟩ := exec_filter (WebEvent.of r) (G := fun e => e ≠ .status r)
    (R := fun s t : Server Url => s.SameAt r t ∧
      ∀ r', r' ≠ r → t.requests r' = none ∧ t.crawler.calls r' = none)
    ⟨⟨rfl, rfl⟩, fun _ _ => ⟨rfl, rfl⟩⟩
    (fun es s t e s' _ hgood hs ht ⟨hsame, hothers⟩ hown hstep => by
      obtain ⟨t', hstep', hsame', hkeep⟩ := ServedRun.own_step hs ht hsame hown hgood hstep
      exact ⟨t', hstep', hsame', fun r' hr' => ⟨(hkeep r' hr').1.trans (hothers r' hr').1,
        (hkeep r' hr').2.trans (hothers r' hr').2⟩⟩)
    (fun s t e s' ⟨hsame, hothers⟩ hother hstep => by
      have hstays := Server.other_step hother hstep
      exact ⟨⟨hsame.1.trans hstays.1.symm, hsame.2.trans hstays.2.symm⟩, hothers⟩)
    h fun e hmem heq => hstatus (heq ▸ hmem)
  refine ⟨t, ht, hsame.1, hsame.2, hothers, fun e pending hown hne => ⟨?_, ?_⟩⟩
  · rintro ⟨s', hstep, hpending⟩
    obtain ⟨t', hstep', hsame', -⟩ := h.own_step ht hsame hown hne hstep
    exact ⟨t', hstep', hsame'.1.trans hpending⟩
  · rintro ⟨t', hstep, hpending⟩
    obtain ⟨s', hstep', hsame', -⟩ := ServedRun.own_step ht h hsame.symm hown hne hstep
    exact ⟨s', hstep', hsame'.1.trans hpending⟩

/-- A request among two others has the response it has alone. -/
theorem request_isolated_list :
    ∃ s t reply, ServedRun (PlainUrl.webEvents .list) s ∧
      ServedRun ((PlainUrl.webEvents .list).filter (WebEvent.of 0)) t ∧
      s.requests 0 = some (.responded reply) ∧ t.requests 0 = some (.responded reply) ∧
      t.requests 1 = none := by
  obtain ⟨s, reply, hrun, hreply⟩ : ∃ s reply, ServedRun (PlainUrl.webEvents .list) s ∧
      s.requests 0 = some (.responded reply) := ⟨_, _, rfl, rfl⟩
  have hstatus : WebEvent.status 0 ∉ PlainUrl.webEvents .list := by
    simp [PlainUrl.webEvents, PlainUrl.callEvents]
  obtain ⟨t, ht, hsame, -, hothers, -⟩ := request_isolated hrun hstatus
  exact ⟨s, t, reply, hrun, ht, hreply, hsame.trans hreply, (hothers 1 (by decide)).1⟩

end MikesCrawler
