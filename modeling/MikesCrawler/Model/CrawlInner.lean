/-
`crawl_inner`: the loop that drives one crawl, as a machine of its events.

The stream of the source is the queue of `Crawl.todo`, from which up to twenty
urls at a time are handed to `step`.  The loop consumes one completed step at a
time and then compares two sizes.  A schedule is a list of events: which queued
url is started when, in which order the client answers and the parse tasks end,
and when the loop consumes a completion.  The channel hands out urls in the
order they were sent; the machine lets any queued url go next, so that its runs
include those of every order.

* `CrawlInner`, `CrawlInner.begin`: the state of the loop, and the one `crawl`
  calls it in;
* `Event`, `CrawlInner.step`: the events and what each of them does;
* `fetched`: the urls handed to `client.get` in a run.
-/
import MikesCrawler.Model.Crawl
import MikesCrawler.Machine.Run

namespace MikesCrawler

variable {Url : Type} [DecidableEq Url] [Externals Url]

/-- The state of `crawl_inner`: the shared crawl, the steps in flight, those
completed whose result the loop has not consumed, and what it returned. -/
structure CrawlInner (Url : Type) where
  crawl : Mutex (Crawl Url)
  inFlight : List (Url × StepState) := []
  completed : List (Url × Except Error Unit) := []
  outcome : Option (Except Error Unit) := none

/-- What can happen next to a crawl in its loop. -/
inductive Event (Url : Type) where
  /-- A queued url is received and its `step` polled: it calls `client.get`. -/
  | start (url : Url)
  /-- `client.get` answers the step of a url. -/
  | got (url : Url) (response : Except Error (HttpResponse Url))
  /-- The blocking parse task of a step ends, possibly with a `JoinError`. -/
  | parsed (url : Url) (body : String) (joined : Except Error Unit)
  /-- The loop consumes a completion and tests whether to go on. -/
  | next
  /-- Another thread panics while it holds the crawl's lock. -/
  | poison
  deriving DecidableEq

namespace CrawlInner

/-- The state in which `crawl` calls `crawl_inner`: a new crawl, after
`add_link(&seed)`. -/
def begin (robots : Option String) (seed : Url) : CrawlInner Url :=
  { crawl := (withLock (Crawl.new robots) fun crawl => crawl.addLink seed).2 }

/-- The step of a url leaves its state for the result of a poll. -/
def polled (s : CrawlInner Url) (url : Url) (state : StepState) :
    Poll × Mutex (Crawl Url) → CrawlInner Url
  | (.pending state', crawl) =>
      { s with crawl, inFlight := s.inFlight.erase (url, state) ++ [(url, state')] }
  | (.ready result, crawl) =>
      { s with crawl
               inFlight := s.inFlight.erase (url, state)
               completed := s.completed ++ [(url, result)] }

/-- The loop returns, which drops the stream with its receiver and with every
step in flight. -/
def returns (s : CrawlInner Url) (result : Except Error Unit) : CrawlInner Url :=
  { crawl := { s.crawl with
      data := { s.crawl.data with todo := { queue := [], receiver := false } } }
    outcome := some result }

/-- One event of a crawl in its loop, `none` if it cannot happen.  The sender
lives in `Crawl.todo`, which `crawl` keeps alive, so the stream never ends. -/
def step (s : CrawlInner Url) : Event Url → Option (CrawlInner Url)
  | .start url =>
      if s.outcome = none ∧ url ∈ s.crawl.data.todo.queue ∧ s.inFlight.length < 20 then
        some { s with
          crawl := { s.crawl with data := { s.crawl.data with todo :=
            { s.crawl.data.todo with queue := s.crawl.data.todo.queue.erase url } } }
          inFlight := s.inFlight ++ [(url, .fetching)] }
      else none
  | .got url response =>
      if s.outcome = none ∧ (url, .fetching) ∈ s.inFlight then
        some (s.polled url .fetching (stepGot s.crawl url response))
      else none
  | .parsed url body joined =>
      if s.outcome = none ∧ (url, .parsing body) ∈ s.inFlight then
        let (result, crawl) := stepParsed s.crawl url body joined
        some (s.polled url (.parsing body) (.ready result, crawl))
      else none
  | .next =>
      match s.outcome, s.completed with
      | none, (_, .error e) :: _ => some (s.returns (.error e))
      | none, (_, .ok ()) :: completed =>
          match lockMapErr s.crawl with
          | .error e => some (s.returns (.error e))
          | .ok crawl =>
              if crawl.result.pages.keys.card = crawl.seen.card then some (s.returns (.ok ()))
              else some { s with completed }
      | _, _ => none
  | .poison => some { s with crawl := { s.crawl with poisoned := true } }

end CrawlInner

/-- The url an event hands to `client.get`. -/
def Event.fetched? : Event Url → Option Url
  | .start url => some url
  | _ => none

/-- The urls handed to `client.get` in a run, in order. -/
def fetched (es : List (Event Url)) : List Url := es.filterMap Event.fetched?

end MikesCrawler
