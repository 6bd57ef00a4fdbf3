/-
`crawler.rs`, the state of one crawl and what `step` does to it.

* `Mutex`, `lockMapErr`, `Channel`, `Channel.send`: the standard library's
  mutex with its poison flag and tokio's unbounded channel;
* `Crawl`, `Crawl.allowedByRobots`, `Crawl.addLink`: the shared state of a
  crawl and its operations;
* `StepState`, `stepGot`, `stepParsed`: the async function `step`, cut at its
  two suspension points, the answer of the client and the end of the blocking
  parse task.  What lies between two suspensions runs under the crawl's lock
  and is one transition.
-/
import MikesCrawler.Model.LinkExtractor
import Mathlib.Data.Finmap

namespace MikesCrawler

/-- What became of one page. -/
inductive PageResult (Url : Type) where
  | serverFailure (status : Status) (body : String)
  | error (msg : String)
  | redirect (status : Status) (location : Url)
  | crawled (info : PageInfo Url)
  | otherContent (contentType : String)
  | excludedByRobotsTxt
  deriving DecidableEq, Repr

/-- The outcome of a crawl, one entry for each page. -/
structure CrawlResult (Url : Type) where
  pages : Finmap fun _ : Url => PageResult Url := ∅

/-! ### Mutexes and channels -/

/-- A mutex: its data, and whether a thread panicked while it held the lock. -/
structure Mutex (α : Type) where
  data : α
  poisoned : Bool := false

/-- Take a lock, a poisoned one giving an error. -/
def lockMapErr {α : Type} (lock : Mutex α) : Except Error α :=
  if lock.poisoned then .error ⟨"poisoned lock: another task failed inside"⟩ else .ok lock.data

/-- Take a lock, run a critical section and release the lock. -/
def withLock {α : Type} (lock : Mutex α) (body : α → Except Error Unit × α) :
    Except Error Unit × Mutex α :=
  match lockMapErr lock with
  | .error e => (.error e, lock)
  | .ok a => ((body a).1, { lock with data := (body a).2 })

/-- An unbounded channel: what was sent and not received, and whether the
receiver still lives. -/
structure Channel (α : Type) where
  queue : List α := []
  receiver : Bool := true

/-- Send on a channel, which fails once the receiver is gone. -/
def Channel.send {α : Type} (channel : Channel α) (a : α) : Except Error (Channel α) :=
  if channel.receiver then .ok { channel with queue := channel.queue ++ [a] }
  else .error ⟨"channel closed"⟩

/-! ### The crawl -/

variable {Url : Type} [DecidableEq Url] [Externals Url]

/-- Whether a robots.txt body, if there is one, lets the crawler visit a
url. -/
def robotsAllow (robots : Option String) (url : Url) : Bool :=
  (robots.map fun robots => oneAgentAllowedByRobots Url robots USER_AGENT (asStr url)).getD true

/-- The state of a crawl.  `inserts` is not in the source: it logs the keys
given to `result.pages.insert`, which a map forgets. -/
structure Crawl (Url : Type) where
  seen : Finset Url := ∅
  todo : Channel Url := {}
  result : CrawlResult Url := {}
  robots : Option String
  inserts : List Url := []

namespace Crawl

/-- A crawl that has seen nothing yet. -/
def new (robots : Option String) : Mutex (Crawl Url) := { data := { robots } }

def allowedByRobots (crawl : Crawl Url) (url : Url) : Bool := robotsAllow crawl.robots url

/-- `result.pages.insert`, logged. -/
def insertPage (crawl : Crawl Url) (url : Url) (page : PageResult Url) : Crawl Url :=
  { crawl with
    result := { crawl.result with pages := crawl.result.pages.insert url page }
    inserts := crawl.inserts ++ [url] }

/-- Note a url: one seen before changes nothing, a new one is queued, or
recorded as excluded. -/
def addLink (crawl : Crawl Url) (found : Url) : Except Error Unit × Crawl Url :=
  if found ∉ crawl.seen then
    let crawl := { crawl with seen := insert found crawl.seen }
    if crawl.allowedByRobots found then
      match crawl.todo.send found with
      | .ok todo => (.ok (), { crawl with todo })
      | .error e => (.error e, crawl)
    else (.ok (), crawl.insertPage found .excludedByRobotsTxt)
  else (.ok (), crawl)

/-- The loop of `step` over the internal links of a page, which strips their
fragments. -/
def addLinks (crawl : Crawl Url) : List Url → Except Error Unit × Crawl Url
  | [] => (.ok (), crawl)
  | found :: links =>
      match crawl.addLink (setFragment found none) with
      | (.ok (), crawl) => crawl.addLinks links
      | (.error e, crawl) => (.error e, crawl)

end Crawl

/-! ### One step -/

/-- What a started `step` is waiting for. -/
inductive StepState where
  | fetching
  | parsing (body : String)
  deriving DecidableEq, Repr

/-- How far `step` came: to its next suspension, or to its end. -/
inductive Poll where
  | pending (state : StepState)
  | ready (result : Except Error Unit)

/-- `step` from the answer of `client.get` on. -/
def stepGot (crawl : Mutex (Crawl Url)) (url : Url) :
    Except Error (HttpResponse Url) → Poll × Mutex (Crawl Url)
  | .ok (.html body) => (.pending (.parsing body), crawl)
  | .ok (.serverFailure status msg) =>
      let (result, crawl) := withLock crawl fun crawl =>
        (.ok (), crawl.insertPage url (.serverFailure status msg))
      (.ready result, crawl)
  | .ok (.redirect status target) =>
      let (result, crawl) := withLock crawl fun crawl =>
        match if domain target = domain url then crawl.addLink target else (.ok (), crawl) with
        | (.ok (), crawl) => (.ok (), crawl.insertPage url (.redirect status target))
        | (.error e, crawl) => (.error e, crawl)
      (.ready result, crawl)
  | .ok (.otherContent contentType) =>
      let (result, crawl) := withLock crawl fun crawl =>
        (.ok (), crawl.insertPage url (.otherContent contentType))
      (.ready result, crawl)
  | .error e =>
      let (result, crawl) := withLock crawl fun crawl =>
        (.ok (), crawl.insertPage url (.error e.msg))
      (.ready result, crawl)

/-- `step` from the end of the blocking parse task on.  `joined` says whether
the task ended with a result or with a `JoinError`; the two question marks of
the source are the first two branches. -/
def stepParsed (crawl : Mutex (Crawl Url)) (url : Url) (body : String)
    (joined : Except Error Unit) : Except Error Unit × Mutex (Crawl Url) :=
  match joined with
  | .error e => (.error e, crawl)
  | .ok () =>
      match parsePage url body with
      | .error e => (.error e, crawl)
      | .ok pageInfo =>
          withLock crawl fun crawl =>
            match crawl.addLinks pageInfo.internalLinks with
            | (.ok (), crawl) => (.ok (), crawl.insertPage url (.crawled pageInfo))
            | (.error e, crawl) => (.error e, crawl)

end MikesCrawler
