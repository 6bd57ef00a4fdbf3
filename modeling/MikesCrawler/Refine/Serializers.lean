/-
The JSON of the answers as codecs: what a client of the server can read back.

* `ParsesBack`: a url whose text parses to it;
* `urlCodec`, `statusCodec`, `pageInfoCodec`, `pageResultCodec`, `pagesCodec`,
  `crawlStatusCodec`: the writers of the server with their readers;
* `CrawlResult.read`, `CrawlResult.read_serialize`: a result from its JSON;
* `CrawlerStatus.read`, `CrawlerStatus.read_serialize`: the progress from its
  JSON; `CrawlList.read`, `CrawlCount.read`: a list and a count;
* `CrawlResult.Iterates.mem_keys`, `CrawlResult.Iterates.length`: what the order
  in which a map is iterated has of the map.
-/
import MikesCrawler.Model.Api

open Wire

namespace MikesCrawler

variable {Url : Type} [DecidableEq Url] [Externals Url] [ParseUrl Url]

/-- The text of a url parses to the url. -/
def ParsesBack (url : Url) : Prop := parse (asStr url) = .ok url

/-- A url from its text. -/
def readUrl (text : String) : Option Url := (parse text).toOption

omit [DecidableEq Url] in
lemma readUrl_asStr {url : Url} (h : ParsesBack url) : readUrl (asStr url) = some url := by
  rw [readUrl, h]
  rfl

/-! ### The parts of an entry -/

def urlCodec : Codec Url where
  write := serializeUrl
  read json := json.str?.bind readUrl
  carries := ParsesBack
  read_write h := readUrl_asStr h
  wellFormed _ := .str _

def statusCodec : Codec Status where
  write := serializeStatus
  read json := do
    let code ← json.nat?
    if code < 2 ^ 16 then some ⟨UInt16.ofNat code⟩ else none
  carries _ := True
  read_write {status} _ := by
    have hlt : status.code.toNat < 65536 := status.code.toNat_lt
    simp [serializeStatus, Json.nat?, hlt]
  wellFormed _ := .num _

/-- The names of an object with two members. -/
lemma wellFormed_pair {name name' : String} {value value' : Json} (hne : name ≠ name')
    (h : value.WellFormed) (h' : value'.WellFormed) :
    (Json.obj [(name, value), (name', value')]).WellFormed := by
  refine .obj (by simp [hne]) fun member hmember => ?_
  rcases List.mem_cons.mp hmember with rfl | hmember
  · exact h
  · rw [List.mem_singleton.mp hmember]
    exact h'

/-- An object with one member. -/
lemma wellFormed_single {name : String} {value : Json} (h : value.WellFormed) :
    (Json.obj [(name, value)]).WellFormed := by
  refine .obj (by simp) fun member hmember => ?_
  rw [List.mem_singleton.mp hmember]
  exact h

def pageInfoCodec : Codec (PageInfo Url) where
  write := PageInfo.serialize
  read json := do
    let internalLinks ← urlCodec.list.read (← json.member? "internal_links")
    let externalLinks ← urlCodec.list.read (← json.member? "external_links")
    return { internalLinks, externalLinks }
  carries info := (∀ url ∈ info.internalLinks, ParsesBack url) ∧
    ∀ url ∈ info.externalLinks, ParsesBack url
  read_write {info} h := by
    have hinternal : (PageInfo.serialize info).member? "internal_links"
        = some (urlCodec.list.write info.internalLinks) := rfl
    have hexternal : (PageInfo.serialize info).member? "external_links"
        = some (urlCodec.list.write info.externalLinks) := rfl
    simp [hinternal, hexternal, urlCodec.list.read_write h.1, urlCodec.list.read_write h.2]
  wellFormed {info} h :=
    wellFormed_pair (by decide) (urlCodec.list.wellFormed h.1) (urlCodec.list.wellFormed h.2)

/-! ### Entries -/

/-- An entry from its JSON. -/
def PageResult.read : Json → Option (PageResult Url)
  | .str text => if text = "ExcludedByRobotsTxt" then some .excludedByRobotsTxt else none
  | .obj [(name, value)] =>
      match name with
      | "ServerFailure" => do
          let status ← statusCodec.read (← value.member? "status")
          return .serverFailure status (← (← value.member? "body").str?)
      | "Error" => value.str?.map .error
      | "Redirect" => do
          let status ← statusCodec.read (← value.member? "status")
          return .redirect status (← urlCodec.read (← value.member? "location"))
      | "Crawled" => (pageInfoCodec.read value).map .crawled
      | "OtherContent" => value.str?.map .otherContent
      | _ => none
  | .obj _ | .num _ | .arr _ => none

/-- The urls in an entry parse back. -/
def PageResult.Carried : PageResult Url → Prop
  | .redirect _ location => ParsesBack location
  | .crawled info => pageInfoCodec.carries info
  | .serverFailure _ _ | .error _ | .otherContent _ | .excludedByRobotsTxt => True

def pageResultCodec : Codec (PageResult Url) where
  write := PageResult.serialize
  read := PageResult.read
  carries := PageResult.Carried
  read_write {page} h := by
    cases page with
    | serverFailure status body =>
        have hstatus := statusCodec.read_write (a := status) trivial
        change (do
          let status ← statusCodec.read (statusCodec.write status)
          return PageResult.serverFailure status (← (Json.str body).str?)) = _
        simp [hstatus, Json.str?]
    | error msg => rfl
    | redirect status location =>
        have hstatus := statusCodec.read_write (a := status) trivial
        change (do
          let status ← statusCodec.read (statusCodec.write status)
          return PageResult.redirect status (← urlCodec.read (urlCodec.write location))) = _
        simp [hstatus, urlCodec.read_write h]
    | crawled info =>
        change (pageInfoCodec.read (pageInfoCodec.write info)).map PageResult.crawled = _
        simp [pageInfoCodec.read_write h]
    | otherContent contentType => rfl
    | excludedByRobotsTxt => rfl
  wellFormed {page} h := by
    cases page with
    | serverFailure status body =>
        exact wellFormed_single (wellFormed_pair (by decide) (.num _) (.str body))
    | error msg => exact wellFormed_single (.str msg)
    | redirect status location =>
        exact wellFormed_single (wellFormed_pair (by decide) (.num _) (.str _))
    | crawled info => exact wellFormed_single (pageInfoCodec.wellFormed h)
    | otherContent contentType => exact wellFormed_single (.str contentType)
    | excludedByRobotsTxt => exact .str _

/-! ### Answers -/

/-- The entries of a result. -/
def pagesCodec : Codec (Iteration Url) := Codec.table asStr readUrl pageResultCodec

/-- A result from its JSON. -/
def CrawlResult.read (json : Json) : Option (CrawlResult Url) := do
  let pages ← pagesCodec.read (← json.member? "pages")
  return { pages := pages.toFinmap }

/-- All urls of a result parse back. -/
def CrawlResult.Carried (result : CrawlResult Url) : Prop :=
  ∀ url page, result.pages.lookup url = some page → ParsesBack url ∧ page.Carried

/-- In whatever order the map of a result is iterated, its JSON is well formed
and reads back as the result. -/
lemma CrawlResult.read_serialize {result : CrawlResult Url} {order : Iteration Url}
    (horder : result.Iterates order) (h : result.Carried) :
    (CrawlResult.serialize order).WellFormed ∧
      CrawlResult.read (CrawlResult.serialize order) = some result := by
  have hcarried : pagesCodec.carries order := by
    intro entry hentry
    have hlookup : result.pages.lookup entry.1 = some entry.2 := by
      rw [← horder, Finmap.lookup_toFinmap]
      exact AList.mem_lookup_iff.mpr hentry
    obtain ⟨hkey, hpage⟩ := h entry.1 entry.2 hlookup
    exact ⟨readUrl_asStr hkey, hpage⟩
  refine ⟨wellFormed_single (pagesCodec.wellFormed hcarried), ?_⟩
  have hmember : (CrawlResult.serialize order).member? "pages" = some (pagesCodec.write order) :=
    rfl
  rw [CrawlResult.read, hmember]
  simp only [Option.bind_eq_bind, Option.bind_some, pagesCodec.read_write hcarried]
  rw [horder]
  rfl

def crawlStatusCodec : Codec (CrawlStatus Url) where
  write := CrawlStatus.serialize
  read json := do
    let seed ← urlCodec.read (← json.member? "seed")
    let done ← (← json.member? "done").nat?
    return { seed, done, todo := ← (← json.member? "todo").nat? }
  carries status := ParsesBack status.seed
  read_write {status} h := by
    change (do
      let seed ← urlCodec.read (urlCodec.write status.seed)
      let done ← (Json.num status.done).nat?
      return ({ seed, done, todo := ← (Json.num status.todo).nat? } : CrawlStatus Url)) = _
    simp [urlCodec.read_write h, Json.nat?]
  wellFormed {status} h := by
    refine .obj (by simp) fun member hmember => ?_
    rcases List.mem_cons.mp hmember with rfl | hmember
    · exact urlCodec.wellFormed h
    rcases List.mem_cons.mp hmember with rfl | hmember
    · exact .num _
    · rw [List.mem_singleton.mp hmember]
      exact .num _

/-- The progress from its JSON. -/
def CrawlerStatus.read (json : Json) : Option (List (CrawlStatus Url)) := do
  crawlStatusCodec.list.read (← json.member? "crawls")

omit [DecidableEq Url] in
/-- The JSON of the progress is well formed and reads back. -/
lemma CrawlerStatus.read_serialize {crawls : List (CrawlStatus Url)}
    (h : ∀ status ∈ crawls, ParsesBack status.seed) :
    (CrawlerStatus.serialize crawls).WellFormed ∧
      CrawlerStatus.read (CrawlerStatus.serialize crawls) = some crawls :=
  ⟨wellFormed_single (crawlStatusCodec.list.wellFormed h), crawlStatusCodec.list.read_write h⟩

/-- The pages of a list from their JSON. -/
def CrawlList.read (json : Json) : Option (List Url) := do
  urlCodec.list.read (← json.member? "pages")

/-- A count from its JSON. -/
def CrawlCount.read (json : Json) : Option ℕ := do
  (← json.member? "page_count").nat?

/-! ### Iterations -/

omit [DecidableEq Url] [Externals Url] [ParseUrl Url] in
/-- The map of a result is iterated in some order. -/
lemma CrawlResult.exists_iterates (result : CrawlResult Url) :
    ∃ order, result.Iterates order := by
  obtain ⟨pages⟩ := result
  induction pages using Finmap.induction_on with
  | H order => exact ⟨order, rfl⟩

omit [DecidableEq Url] [Externals Url] [ParseUrl Url] in
lemma CrawlResult.Iterates.mem_keys {result : CrawlResult Url} {order : Iteration Url}
    (h : result.Iterates order) {url : Url} : url ∈ order.keys ↔ url ∈ result.pages := by
  rw [← h, Finmap.mem_toFinmap]
  exact AList.mem_keys.symm

omit [Externals Url] [ParseUrl Url] in
lemma CrawlResult.Iterates.lookup {result : CrawlResult Url} {order : Iteration Url}
    (h : result.Iterates order) (url : Url) : order.lookup url = result.pages.lookup url := by
  rw [← h, Finmap.lookup_toFinmap]

omit [Externals Url] [ParseUrl Url] in
lemma CrawlResult.Iterates.keys_toFinset {result : CrawlResult Url} {order : Iteration Url}
    (h : result.Iterates order) : order.keys.toFinset = result.pages.keys := by
  ext url
  rw [List.mem_toFinset, h.mem_keys, Finmap.mem_keys]

omit [Externals Url] [ParseUrl Url] in
/-- The length of an iteration is the size of the map. -/
lemma CrawlResult.Iterates.length {result : CrawlResult Url} {order : Iteration Url}
    (h : result.Iterates order) : order.entries.length = result.pages.keys.card := by
  rw [← h.keys_toFinset, List.toFinset_card_of_nodup order.keys_nodup, AList.keys, List.keys,
    List.length_map]

end MikesCrawler
