/-
`ProdCrawler`: any number of calls of `crawl` on one crawler, and `status`.

A call is cut where other tasks can run: at the answer for its robots.txt, at
its two accesses to the registry, at the events of `crawl_inner`, and before it
unwraps its crawl.  A panic can end it before its crawl is registered, or in a
step.  An `Arc` of the source is the number of the call that made it, so the
registry maps seeds to calls.

* `Call`, `CallEvent`, `Call.step`: one call of `crawl` against the registry;
* `Call.references`, `ProdCrawler.strongCount`: the strong references to the
  crawl of a call;
* `ProdCrawler`, `ServerEvent`, `ProdCrawler.step`: the crawler with all of its
  calls;
* `Crawl.status`, `ProdCrawler.status`: what `status` reports.
-/
import MikesCrawler.Model.CrawlInner
import Mathlib.Data.List.AList

namespace MikesCrawler

variable {Url : Type} [DecidableEq Url] [Externals Url]

/-! ### One call of `crawl` -/

/-- The number of a call, which also names the `Arc` it makes. -/
abbrev CallId := ℕ

/-- The crawls that `status` can see, by their seeds. -/
abbrev Registry (Url : Type) := AList fun _ : Url => CallId

/-- Where a call of `crawl` is. -/
inductive Call (Url : Type) where
  /-- `get_robots` is awaited. -/
  | fetchingRobots (seed robotsUrl : Url)
  /-- The crawl is made and has noted its seed. -/
  | made (seed : Url) (inner : CrawlInner Url)
  /-- The crawl is in the registry and `crawl_inner` runs, or has returned. -/
  | registered (seed : Url) (inner : CrawlInner Url)
  /-- The call has removed its seed from the registry. -/
  | removed (seed : Url) (inner : CrawlInner Url)
  /-- The call has returned; the crawl is there if one was made. -/
  | returned (seed : Url) (crawl : Option (Mutex (Crawl Url)))
      (result : Except Error (CrawlResult Url))
  /-- A step has panicked and the future of the call is gone. -/
  | unwound (seed : Url) (crawl : Mutex (Crawl Url))
  /-- A panic has come before the crawl was registered, and the future of the
  call is gone with all it held. -/
  | unmade (seed : Url)

/-- What can happen next to a call of `crawl`. -/
inductive CallEvent (Url : Type) where
  /-- `get_robots` answers, and the crawl is made. -/
  | robots (answer : Except Error (Option String))
  /-- A panic before the crawl is registered: in `get_robots`, or, with the text
  that it has answered, in the robots matcher when the crawl notes its seed. -/
  | abort (robots : Option String)
  /-- The crawl is inserted in the registry. -/
  | register
  /-- An event of `crawl_inner`. -/
  | inner (event : Event Url)
  /-- A step panics, in `client.get`, or in the robots matcher, which runs under
  the crawl's lock. -/
  | panic (locked : Bool)
  /-- `crawl_inner` has returned, and the seed is removed from the registry. -/
  | remove
  /-- The call returns its result. -/
  | finish
  deriving DecidableEq

namespace Call

/-- The seed of a call. -/
def seed : Call Url → Url
  | .fetchingRobots seed _ | .made seed _ | .registered seed _ | .removed seed _
  | .returned seed _ _ | .unwound seed _ | .unmade seed => seed

/-- A call begins by resolving the url of the robots.txt. -/
def begin (seed : Url) : Call Url :=
  match join seed "/robots.txt" with
  | .error e => .returned seed none (.error e)
  | .ok robotsUrl => .fetchingRobots seed robotsUrl

/-- The strong references to its crawl that a call holds: its own, that of
`crawl_inner` while it runs, and one for each step in flight. -/
def references : Call Url → ℕ
  | .made _ _ | .removed _ _ => 1
  | .registered _ inner => 1 + (if inner.outcome = none then 1 else 0) + inner.inFlight.length
  | .fetchingRobots _ _ | .returned _ _ _ | .unwound _ _ | .unmade _ => 0

/-- What the `Arc` of a call points to. -/
def crawl? : Call Url → Option (Mutex (Crawl Url))
  | .made _ inner | .registered _ inner | .removed _ inner => some inner.crawl
  | .returned _ crawl _ => crawl
  | .unwound _ crawl => some crawl
  | .fetchingRobots _ _ | .unmade _ => none

/-- The registry slots that hold the `Arc` of a call. -/
def slots (i : CallId) (crawls : Registry Url) : ℕ :=
  (crawls.entries.filter fun slot => slot.2 = i).length

/-- `Arc::try_unwrap` on the crawl, and what the call makes of it. -/
def unwrap (inner : CrawlInner Url) (count : ℕ) : Except Error (CrawlResult Url) :=
  if count = 1 then
    match lockMapErr inner.crawl with
    | .error e => .error e
    | .ok crawl => .ok crawl.result
  else .error ⟨"Extra references to crawl still remain"⟩

/-- One event of a call against the registry, `none` if it cannot happen. -/
def step (i : CallId) (call : Call Url) (crawls : Mutex (Registry Url)) :
    CallEvent Url → Option (Call Url × Mutex (Registry Url))
  | .robots answer =>
      match call, answer with
      | .fetchingRobots seed _, .error e => some (.returned seed none (.error e), crawls)
      | .fetchingRobots seed _, .ok robots =>
          match withLock (Crawl.new robots) fun crawl => crawl.addLink seed with
          | (.error e, crawl) => some (.returned seed (some crawl) (.error e), crawls)
          | (.ok (), _) => some (.made seed (CrawlInner.begin robots seed), crawls)
      | _, _ => none
  | .abort _ =>
      match call with
      | .fetchingRobots seed _ => some (.unmade seed, crawls)
      | _ => none
  | .register =>
      match call with
      | .made seed inner =>
          match lockMapErr crawls with
          | .error e => some (.returned seed (some inner.crawl) (.error e), crawls)
          | .ok map =>
              some (.registered seed inner, { crawls with data := map.insert seed i })
      | _ => none
  | .inner event =>
      match call with
      | .registered seed inner =>
          (inner.step event).map fun inner => (.registered seed inner, crawls)
      | _ => none
  | .panic locked =>
      match call with
      | .registered seed inner =>
          if inner.outcome = none ∧ inner.inFlight ≠ [] ∧
              (locked = true → inner.crawl.data.robots.isSome ∧ inner.crawl.poisoned = false) then
            some (.unwound seed { inner.crawl with poisoned := inner.crawl.poisoned || locked },
              crawls)
          else none
      | _ => none
  | .remove =>
      match call with
      | .registered seed inner =>
          if inner.outcome = none then none
          else
            match lockMapErr crawls with
            | .error e => some (.returned seed (some inner.crawl) (.error e), crawls)
            | .ok map => some (.removed seed inner, { crawls with data := map.erase seed })
      | _ => none
  | .finish =>
      match call with
      | .removed seed inner =>
          match inner.outcome with
          | none => none
          | some (.error e) => some (.returned seed (some inner.crawl) (.error e), crawls)
          | some (.ok ()) =>
              some (.returned seed (some inner.crawl)
                (unwrap inner (call.references + slots i crawls.data)), crawls)
      | _ => none

end Call

/-! ### The crawler -/

/-- A crawler: its registry, and the calls made so far. -/
structure ProdCrawler (Url : Type) where
  crawls : Mutex (Registry Url) := { data := ∅ }
  calls : CallId → Option (Call Url) := fun _ => none

/-- What can happen next to a crawler. -/
inductive ServerEvent (Url : Type) where
  /-- `crawl` is called with a seed. -/
  | crawl (i : CallId) (seed : Url)
  /-- An event of a call. -/
  | call (i : CallId) (event : CallEvent Url)
  /-- `status` is called. -/
  | status
  deriving DecidableEq

/-- The number of crawled, and of queued or ongoing pages of a crawl. -/
structure CrawlStatus (Url : Type) where
  seed : Url
  done : ℕ
  todo : ℕ
  deriving DecidableEq, Repr

/-- How `status` can go wrong: with an error, or by a panic. -/
inductive Fault where
  | err (e : Error)
  | panic (msg : String)
  deriving DecidableEq, Repr

omit [DecidableEq Url] [Externals Url] in
/-- The status of one crawl.  The subtraction is of `usize`, which panics on an
overflow. -/
def Crawl.status (seed : Url) (crawl : Crawl Url) : Except Fault (CrawlStatus Url) :=
  if crawl.seen.card < crawl.result.pages.keys.card then
    .error (.panic "attempt to subtract with overflow")
  else
    .ok { seed
          done := crawl.result.pages.keys.card
          todo := crawl.seen.card - crawl.result.pages.keys.card }

namespace ProdCrawler

/-- One event of a crawler, `none` if it cannot happen. -/
def step (s : ProdCrawler Url) : ServerEvent Url → Option (ProdCrawler Url)
  | .crawl i seed =>
      match s.calls i with
      | none => some { s with calls := Function.update s.calls i (some (Call.begin seed)) }
      | some _ => none
  | .call i event =>
      match s.calls i with
      | none => none
      | some call =>
          (call.step i s.crawls event).map fun (call, crawls) =>
            { crawls, calls := Function.update s.calls i (some call) }
  | .status => some s

/-- The strong references to the crawl of a call. -/
def strongCount (s : ProdCrawler Url) (i : CallId) : ℕ :=
  ((s.calls i).elim 0 Call.references) + Call.slots i s.crawls.data

/-- The status of one slot of the registry.  An `Arc` never dangles, so that
the first branch is never taken. -/
def slotStatus (s : ProdCrawler Url) (slot : (_ : Url) × CallId) :
    Except Fault (CrawlStatus Url) :=
  match (s.calls slot.2).bind Call.crawl? with
  | none => .error (.panic "dangling reference")
  | some lock =>
      match lockMapErr lock with
      | .error e => .error (.err e)
      | .ok crawl => crawl.status slot.1

/-- The statuses of the crawls in the registry, all of them or an error. -/
def status (s : ProdCrawler Url) : Except Fault (List (CrawlStatus Url)) :=
  match lockMapErr s.crawls with
  | .error e => .error (.err e)
  | .ok crawls => crawls.entries.mapM s.slotStatus

end ProdCrawler

end MikesCrawler
