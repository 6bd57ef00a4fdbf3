/-
What one event does to a server, and how its requests relate to the calls of
its crawler.

* `Responds`, `Server.Trans`, `Server.trans_of_step`, `Server.step_of_trans`: the
  transitions of a server as rules;
* `ServedRun`, `ServedRun.crawler`: a run of a server is one of its crawler;
* `mem_crawlerEvents`, `ServedRun.seeded_of_call`: the events of the calls, and
  the requests that they are made for.
-/
import MikesCrawler.Refine.Calls
import MikesCrawler.Refine.Serializers

open Machine Wire

namespace MikesCrawler

variable {Url : Type} [DecidableEq Url] [Externals Url] [ParseUrl Url]

/-! ### The transitions of a server as rules -/

namespace Server

variable {s : Server Url} {r r' : CallId}

omit [DecidableEq Url] [Externals Url] [ParseUrl Url] in
@[simp] lemma update_crawler (pending : Pending) : (s.update r pending).crawler = s.crawler := rfl

omit [DecidableEq Url] [Externals Url] [ParseUrl Url] in
@[simp] lemma update_requests_self (pending : Pending) :
    (s.update r pending).requests r = some pending := Function.update_self r _ _

omit [DecidableEq Url] [Externals Url] [ParseUrl Url] in
lemma update_requests_of_ne (h : r ≠ r') (pending : Pending) :
    (s.update r' pending).requests r = s.requests r := Function.update_of_ne h _ _

end Server

/-- What a handler responds to the end of its call, if it iterates the map of a
result in an order. -/
inductive Responds (endpoint : Endpoint) (order : Iteration Url) : Call Url → Reply → Prop
  | result {seed : Url} {crawl : Option (Mutex (Crawl Url))} {result : CrawlResult Url}
      (iterates : result.Iterates order) :
      Responds endpoint order (.returned seed crawl (.ok result))
        (respondTo (endpoint.handle (.ok order)))
  | error {seed : Url} {crawl : Option (Mutex (Crawl Url))} {e : Error} :
      Responds endpoint order (.returned seed crawl (.error e)) ⟨⟨500⟩, .text e.msg⟩
  | panic {seed : Url} {crawl : Mutex (Crawl Url)} :
      Responds endpoint order (.unwound seed crawl) caught
  | abort {seed : Url} : Responds endpoint order (.unmade seed) caught

namespace Server

/-- The transitions of a server. -/
inductive Trans (s : Server Url) : WebEvent Url → Server Url → Prop
  | badSeed {r : CallId} {endpoint : Endpoint} {param : String} {err : Error}
      (fresh : s.requests r = none) (bad : (parse param : Except Error Url) = .error err) :
      Trans s (.seeded r endpoint param) (s.update r (.responded ⟨⟨400⟩, .text err.msg⟩))
  | seeded {r : CallId} {endpoint : Endpoint} {param : String} {seed : Url}
      {crawler : ProdCrawler Url} (fresh : s.requests r = none) (good : parse param = .ok seed)
      (next : s.crawler.step (.crawl r seed) = some crawler) :
      Trans s (.seeded r endpoint param) ({ s with crawler }.update r (.waiting endpoint))
  | status {r : CallId} (fresh : s.requests r = none) :
      Trans s (.status r) (s.update r (.responded (Api.status s.crawler.status)))
  | call {r : CallId} {event : CallEvent Url} {crawler : ProdCrawler Url}
      (next : s.crawler.step (.call r event) = some crawler) :
      Trans s (.call r event) { s with crawler }
  | respond {r : CallId} {order : Iteration Url} {endpoint : Endpoint} {call : Call Url}
      {reply : Reply} (waiting : s.requests r = some (.waiting endpoint))
      (ended : s.crawler.calls r = some call) (responds : Responds endpoint order call reply) :
      Trans s (.respond r order) (s.update r (.responded reply))

omit [DecidableEq Url] [ParseUrl Url] in
/-- What a handler responds to an error. -/
lemma handle_error (endpoint : Endpoint) (e : Error) :
    respondTo (endpoint.handle (.error e : Except Error (Iteration Url)))
      = ⟨⟨500⟩, .text e.msg⟩ := by
  cases endpoint with
  | crawl | list | count => rfl

/-- Every event of a server is one of the transitions. -/
theorem trans_of_step {s s' : Server Url} {e : WebEvent Url} (h : s.step e = some s') :
    s.Trans e s' := by
  cases e with
  | seeded r endpoint param =>
      rw [step] at h
      split at h
      · cases h
      · next e hfresh hparam =>
          rw [SeedUrl.fromParam] at hparam
          split at hparam
          · cases hparam
          · next err hbad =>
              cases hparam
              cases h
              exact .badSeed hfresh hbad
      · next seed hfresh hparam =>
          rw [SeedUrl.fromParam] at hparam
          split at hparam
          · next url hgood =>
              cases hparam
              obtain ⟨crawler, hnext, rfl⟩ := Option.map_eq_some_iff.mp h
              exact .seeded hfresh hgood hnext
          · cases hparam
  | status r =>
      rw [step] at h
      split at h
      · cases h
      · next hfresh =>
          obtain ⟨crawler, hnext, rfl⟩ := Option.map_eq_some_iff.mp h
          cases hnext
          exact .status hfresh
  | call r event =>
      obtain ⟨crawler, hnext, rfl⟩ := Option.map_eq_some_iff.mp h
      exact .call hnext
  | respond r order =>
      rw [step] at h
      split at h
      · next endpoint seed crawl result hwaiting hended =>
          split at h
          · next hiterates =>
              cases h
              exact .respond hwaiting hended (.result hiterates)
          · cases h
      · next endpoint seed crawl e hwaiting hended =>
          cases h
          rw [handle_error]
          exact .respond hwaiting hended .error
      · next endpoint seed crawl hwaiting hended =>
          cases h
          exact .respond hwaiting hended .panic
      · next endpoint seed hwaiting hended =>
          cases h
          exact .respond hwaiting hended .abort
      · cases h

/-- Each transition is an event of a server. -/
lemma step_of_trans {s s' : Server Url} {e : WebEvent Url} (h : s.Trans e s') :
    s.step e = some s' := by
  cases h with
  | badSeed fresh bad =>
      rw [step, fresh, SeedUrl.fromParam, bad]
      rfl
  | seeded fresh good next =>
      rw [step, fresh, SeedUrl.fromParam, good]
      simp only [next, Option.map_some]
  | status fresh =>
      rw [step, fresh]
      rfl
  | call next => rw [step, next, Option.map_some]
  | @respond r order endpoint _ _ waiting ended responds =>
      rw [step, waiting, ended]
      cases responds with
      | result iterates => exact if_pos iterates
      | @error _ _ e =>
          have herror := @handle_error Url _ endpoint e
          exact congrArg (fun reply => some (s.update r (.responded reply))) herror
      | panic | abort => rfl

end Server

/-! ### Runs of a server -/

/-- A run of a server from its start. -/
def ServedRun (es : List (WebEvent Url)) (s : Server Url) : Prop :=
  exec Server.step ({} : Server Url) es = some s

/-- The event of its crawler that an event of a server is. -/
def WebEvent.crawler? : WebEvent Url → Option (ServerEvent Url)
  | .seeded r _ param => (parse param).toOption.map (.crawl r)
  | .status _ => some .status
  | .call r event => some (.call r event)
  | .respond _ _ => none

/-- The events of its crawler in a run of a server. -/
def crawlerEvents (es : List (WebEvent Url)) : List (ServerEvent Url) :=
  es.filterMap WebEvent.crawler?

omit [DecidableEq Url] [Externals Url] in
lemma crawlerEvents_concat_of_some {e : WebEvent Url} {event : ServerEvent Url}
    (h : e.crawler? = some event) (es : List (WebEvent Url)) :
    crawlerEvents (es ++ [e]) = crawlerEvents es ++ [event] := filterMap_concat_of_some h es

omit [DecidableEq Url] [Externals Url] in
lemma crawlerEvents_concat_of_none {e : WebEvent Url} (h : e.crawler? = none)
    (es : List (WebEvent Url)) : crawlerEvents (es ++ [e]) = crawlerEvents es :=
  filterMap_concat_of_none h es

/-- **A run of a server is a run of its crawler**, so that all that holds of a
crawler holds of the one behind the server. -/
theorem ServedRun.crawler {es : List (WebEvent Url)} {s : Server Url} (h : ServedRun es s) :
    ServerRun (crawlerEvents es) s.crawler := by
  refine exec_trace_induction (P := fun es s => ServerRun (crawlerEvents es) s.crawler) ?_ ?_ h
  · exact rfl
  · rintro es e s s' - ih hstep
    cases Server.trans_of_step hstep with
    | @badSeed r endpoint param _ fresh bad =>
        have hnone : (WebEvent.seeded r endpoint param : WebEvent Url).crawler? = none := by
          rw [WebEvent.crawler?, bad]
          rfl
        rw [crawlerEvents_concat_of_none hnone]
        exact ih
    | @seeded r endpoint param seed _ fresh good next =>
        have hsome : (WebEvent.seeded r endpoint param).crawler? = some (.crawl r seed) := by
          rw [WebEvent.crawler?, good]
          rfl
        rw [crawlerEvents_concat_of_some hsome]
        exact exec_concat_eq_some.mpr ⟨_, ih, next⟩
    | status =>
        rw [crawlerEvents_concat_of_some rfl]
        exact exec_concat_eq_some.mpr ⟨_, ih, rfl⟩
    | call next =>
        rw [crawlerEvents_concat_of_some rfl]
        exact exec_concat_eq_some.mpr ⟨_, ih, next⟩
    | respond =>
        rw [crawlerEvents_concat_of_none rfl]
        exact ih

omit [DecidableEq Url] [Externals Url] in
lemma mem_crawlerEvents {es : List (WebEvent Url)} {r : CallId} {event : CallEvent Url} :
    .call r event ∈ crawlerEvents es ↔ .call r event ∈ es := by
  rw [crawlerEvents, List.mem_filterMap]
  constructor
  · rintro ⟨e, hmem, he⟩
    cases e with
    | call r' event' =>
        cases he
        exact hmem
    | seeded r' endpoint param =>
        obtain ⟨seed, -, heq⟩ := Option.map_eq_some_iff.mp he
        cases heq
    | status | respond => cases he
  · intro hmem
    exact ⟨_, hmem, rfl⟩

/-- A call is made for a request, with the seed that its parameter is. -/
lemma ServedRun.seeded_of_call {es : List (WebEvent Url)} {s : Server Url} (h : ServedRun es s)
    {r : CallId} {call : Call Url} (hi : s.crawler.calls r = some call) :
    ∃ endpoint param, .seeded r endpoint param ∈ es ∧ parse param = .ok call.seed := by
  obtain ⟨e, hmem, he⟩ := List.mem_filterMap.mp (h.crawler.crawl_mem hi)
  cases e with
  | seeded r' endpoint param =>
      obtain ⟨seed, hseed, heq⟩ := Option.map_eq_some_iff.mp he
      cases heq
      cases hparse : (parse param : Except Error Url) with
      | ok seed' =>
          rw [hparse] at hseed
          cases hseed
          exact ⟨endpoint, param, hmem, hparse⟩
      | error err =>
          rw [hparse] at hseed
          cases hseed
  | status | call | respond => cases he

end MikesCrawler
