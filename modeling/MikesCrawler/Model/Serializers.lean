/-
`serializers.rs`, and what is derived with it: the JSON of the answers.

* `serializeStatus`, `serializeUrl`, `serializeVecUrl`: a status as its code and
  a url as its text;
* `PageInfo.serialize`, `PageResult.serialize`, `serializePageResults`,
  `CrawlResult.serialize`: the JSON of a result, in an order in which its map is
  iterated;
* `CrawlStatus.serialize`, `CrawlerStatus.serialize`: the JSON of the progress.
-/
import MikesCrawler.Model.ProdCrawler
import MikesCrawler.Wire.Json

open Wire

namespace MikesCrawler

variable {Url : Type}

/-- The entries of a map of results in the order in which it is iterated. -/
abbrev Iteration (Url : Type) := AList fun _ : Url => PageResult Url

/-- A result whose map is iterated in an order.  A `HashMap` is iterated in any
order, which changes from map to map. -/
def CrawlResult.Iterates (result : CrawlResult Url) (order : Iteration Url) : Prop :=
  order.toFinmap = result.pages

instance [DecidableEq Url] (result : CrawlResult Url) (order : Iteration Url) :
    Decidable (result.Iterates order) := inferInstanceAs (Decidable (_ = _))

def serializeStatus (data : Status) : Json := .num data.code.toNat

variable [Externals Url]

def serializeUrl (data : Url) : Json := .str (asStr data)

def serializeVecUrl (data : List Url) : Json := .arr (data.map fun url => .str (asStr url))

def PageInfo.serialize (info : PageInfo Url) : Json :=
  .obj [("internal_links", serializeVecUrl info.internalLinks),
    ("external_links", serializeVecUrl info.externalLinks)]

/-- A variant with data is an object with its name as the one member, and one
without data its name. -/
def PageResult.serialize : PageResult Url → Json
  | .serverFailure status body =>
      .obj [("ServerFailure", .obj [("status", serializeStatus status), ("body", .str body)])]
  | .error msg => .obj [("Error", .str msg)]
  | .redirect status location =>
      .obj [("Redirect",
        .obj [("status", serializeStatus status), ("location", serializeUrl location)])]
  | .crawled info => .obj [("Crawled", info.serialize)]
  | .otherContent contentType => .obj [("OtherContent", .str contentType)]
  | .excludedByRobotsTxt => .str "ExcludedByRobotsTxt"

def serializePageResults (data : Iteration Url) : Json :=
  .obj (data.entries.map fun entry => (asStr entry.1, entry.2.serialize))

/-- The JSON of a result whose map is iterated in an order. -/
def CrawlResult.serialize (pages : Iteration Url) : Json :=
  .obj [("pages", serializePageResults pages)]

def CrawlStatus.serialize (status : CrawlStatus Url) : Json :=
  .obj [("seed", serializeUrl status.seed), ("done", .num status.done), ("todo", .num status.todo)]

/-- The JSON of a `CrawlerStatus`, which is its list of crawls. -/
def CrawlerStatus.serialize (crawls : List (CrawlStatus Url)) : Json :=
  .obj [("crawls", .arr (crawls.map CrawlStatus.serialize))]

end MikesCrawler
