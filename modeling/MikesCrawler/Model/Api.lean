/-
`api.rs`: the server, with any number of requests on one crawler.

* `ApiError`, `SeedUrl.fromParam`, `ApiError.respondTo`: the errors of a request;
* `CrawlList.serialize`, `CrawlCount.serialize`, `Api.crawl`, `Api.list`,
  `Api.count`, `Api.status`: the handlers from where the crawler has answered;
* `Server`, `WebEvent`, `Server.step`: the server with its requests; a request
  that calls `crawl` names the call by its own number, and a handler that is
  unwound by a panic is caught by Rocket, which answers for it;
* `PlainUrl.webEvents`: a run of a server with three requests.
-/
import MikesCrawler.Model.PlainUrl
import MikesCrawler.Model.Serializers

open Wire

namespace MikesCrawler

/-- `Url::parse`, which fails on what is not an absolute url. -/
class ParseUrl (Url : Type) where
  parse : String → Except Error Url

export ParseUrl (parse)

/-- The parameter of a path that is a seed. -/
structure SeedUrl (Url : Type) where
  url : Url

/-- The errors that a handler returns. -/
inductive ApiError where
  | badSeed (e : Error)
  | internalError (e : Error)
  deriving DecidableEq, Repr

/-- The body of a response: a text, a JSON value, or what Rocket says of a
handler that panicked. -/
inductive Body where
  | text (text : String)
  | json (value : Json)
  | catcher

/-- A response of the server. -/
structure Reply where
  status : Status
  body : Body

def ApiError.respondTo : ApiError → Reply
  | .badSeed error => ⟨⟨400⟩, .text error.msg⟩
  | .internalError error => ⟨⟨500⟩, .text error.msg⟩

/-- The response of a handler. -/
def respondTo : Except ApiError Json → Reply
  | .ok value => ⟨⟨200⟩, .json value⟩
  | .error e => e.respondTo

/-- What Rocket answers for a handler that panicked. -/
def caught : Reply := ⟨⟨500⟩, .catcher⟩

variable {Url : Type}

def SeedUrl.fromParam [ParseUrl Url] (param : String) : Except ApiError (SeedUrl Url) :=
  match parse param with
  | .ok url => .ok ⟨url⟩
  | .error err => .error (.badSeed err)

/-! ### The handlers -/

/-- The handlers that crawl. -/
inductive Endpoint where
  | crawl | list | count
  deriving DecidableEq, Repr

variable [Externals Url]

def CrawlList.serialize (pages : List Url) : Json := .obj [("pages", serializeVecUrl pages)]

def CrawlCount.serialize (pageCount : ℕ) : Json := .obj [("page_count", .num pageCount)]

namespace Api

/-- `crawl` from where the crawler has answered, with a result whose map is
iterated in an order, or with an error. -/
def crawl (answer : Except Error (Iteration Url)) : Except ApiError Json := do
  let result ← answer.mapError ApiError.internalError
  return CrawlResult.serialize result

/-- `list` from where the crawler has answered. -/
def list (answer : Except Error (Iteration Url)) : Except ApiError Json := do
  let crawl ← answer.mapError ApiError.internalError
  return CrawlList.serialize crawl.keys

/-- `count` from where the crawler has answered. -/
def count (answer : Except Error (Iteration Url)) : Except ApiError Json := do
  let crawl ← answer.mapError ApiError.internalError
  return CrawlCount.serialize crawl.entries.length

/-- `status` from where the crawler has answered: the response, or what Rocket
makes of a panic. -/
def status : Except Fault (List (CrawlStatus Url)) → Reply
  | .ok result => respondTo (.ok (CrawlerStatus.serialize result))
  | .error (.err e) => respondTo (.error (.internalError e))
  | .error (.panic _) => caught

end Api

def Endpoint.handle : Endpoint → Except Error (Iteration Url) → Except ApiError Json
  | .crawl => Api.crawl
  | .list => Api.list
  | .count => Api.count

/-! ### The server -/

/-- Where a request is. -/
inductive Pending where
  /-- The handler awaits `crawler.crawl`. -/
  | waiting (endpoint : Endpoint)
  | responded (reply : Reply)

/-- A server: its crawler, and the requests received so far. -/
structure Server (Url : Type) where
  crawler : ProdCrawler Url := {}
  requests : CallId → Option Pending := fun _ => none

/-- What can happen next to a server. -/
inductive WebEvent (Url : Type) where
  /-- A request to crawl is received, with its parameter. -/
  | seeded (r : CallId) (endpoint : Endpoint) (param : String)
  /-- A request for the status is received and answered. -/
  | status (r : CallId)
  /-- An event of the call of a request. -/
  | call (r : CallId) (event : CallEvent Url)
  /-- The call of a request has ended, and its handler responds. -/
  | respond (r : CallId) (order : Iteration Url)

variable [DecidableEq Url] [ParseUrl Url]

/-- A request is somewhere else now. -/
def Server.update (s : Server Url) (r : CallId) (pending : Pending) : Server Url :=
  { s with requests := Function.update s.requests r (some pending) }

/-- One event of a server, `none` if it cannot happen. -/
def Server.step (s : Server Url) : WebEvent Url → Option (Server Url)
  | .seeded r endpoint param =>
      match s.requests r, (SeedUrl.fromParam param : Except ApiError (SeedUrl Url)) with
      | some _, _ => none
      | none, .error e => some (s.update r (.responded (respondTo (.error e))))
      | none, .ok seed => (s.crawler.step (.crawl r seed.url)).map fun crawler =>
          { s with crawler }.update r (.waiting endpoint)
  | .status r =>
      match s.requests r with
      | some _ => none
      | none => (s.crawler.step .status).map fun crawler =>
          { s with crawler }.update r (.responded (Api.status s.crawler.status))
  | .call r event => (s.crawler.step (.call r event)).map fun crawler => { s with crawler }
  | .respond r order =>
      match s.requests r, s.crawler.calls r with
      | some (.waiting endpoint), some (.returned _ _ (.ok result)) =>
          if result.Iterates order then
            some (s.update r (.responded (respondTo (endpoint.handle (.ok order)))))
          else none
      | some (.waiting endpoint), some (.returned _ _ (.error e)) =>
          let answer : Except Error (Iteration Url) := .error e
          some (s.update r (.responded (respondTo (endpoint.handle answer))))
      | some (.waiting _), some (.unwound _ _) | some (.waiting _), some (.unmade _) =>
          some (s.update r (.responded caught))
      | _, _ => none

/-! ### A server of a site -/

namespace PlainUrl

instance : ParseUrl PlainUrl where
  parse text :=
    let known : List (String × PlainUrl) := [("https://example.com/", site "/"),
      ("https://example.com/a", site "/a"), ("https://example.com/private", site "/private")]
    match known.lookup text with
    | some url => .ok url
    | none => .error ⟨"relative URL without a base"⟩

/-- The entries of the site of `PlainUrl.get`. -/
def entries : Iteration PlainUrl :=
  [⟨site "/private", .excludedByRobotsTxt⟩,
    ⟨site "/", .crawled { internalLinks := [site "/a"], externalLinks := [] }⟩,
    ⟨site "/a", .redirect ⟨302⟩ (site "/private")⟩].toAList

/-- The events of a server with a request for that site, one with a bad seed and
one for the status. -/
def webEvents (endpoint : Endpoint) : List (WebEvent PlainUrl) :=
  [.seeded 0 endpoint "https://example.com/", .seeded 1 .crawl "garbage"]
    ++ callEvents.map (.call 0) ++ [.respond 0 entries, .status 2]

end PlainUrl

end MikesCrawler
