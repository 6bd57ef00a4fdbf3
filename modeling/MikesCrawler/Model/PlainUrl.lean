/-
A concrete type of urls on which the model runs: urls split into the parts that
the crawler looks at, with the dependencies' functions as they are on pages
that consist of one link and on references that are an absolute path or one of
a few absolute urls.

* `PlainUrl` and its instance of `Externals`;
* `PlainUrl.hostLaws`, `PlainUrl.setFragment_idem`: it obeys what the `url`
  crate documents;
* `PlainUrl.get`, `PlainUrl.events`: a site with a link, a redirect and an
  excluded page, and a run of its crawl; `PlainUrl.brokenGet`,
  `PlainUrl.brokenEvents`: the same for a site with a page that cannot be
  fetched;
* `PlainUrl.serverEvents`, `PlainUrl.twinEvents`, `PlainUrl.pairEvents`: runs of
  a crawler with one call, with two of one seed, and with two of different
  seeds.
-/
import MikesCrawler.Model.ProdCrawler

namespace MikesCrawler

/-- A url without userinfo, port and query. -/
structure PlainUrl where
  scheme : String
  host : Option Host
  path : String
  fragment : Option String := none
  deriving DecidableEq, Repr

namespace PlainUrl

/-- A page of `https://example.com`. -/
def site (path : String) (fragment : Option String := none) : PlainUrl :=
  { scheme := "https", host := some (.domain "example.com"), path, fragment }

/-- A page of `http://10.0.0.n`. -/
def numbered (n : BitVec 8) (path : String) : PlainUrl :=
  { scheme := "http", host := some (.ipv4 (0x0A0000#24 ++ n)), path }

/-- The url as text, the address of a host left out. -/
def text (url : PlainUrl) : String :=
  let host := match url.host with
    | some (.domain name) => "//" ++ name
    | some (.ipv4 _) | some (.ipv6 _) => "//[address]"
    | none => ""
  url.scheme ++ ":" ++ host ++ url.path ++ url.fragment.elim "" ("#" ++ ·)

/-- The absolute urls that a page of the model may refer to. -/
def absolute : List (String × PlainUrl) :=
  [("http://10.0.0.2/", numbered 2 "/")]

/-- A page that consists of one link. -/
def linkPage (href : String) : String := "<a href=\"" ++ href ++ "\">link</a>"

/-- The references that a page of the model may have. -/
def hrefs : List String := ["/a", "/page", "http://10.0.0.2/"]

/-- The tokens of a page that consists of one link, or else of text. -/
def tokens (page : String) : List Token :=
  match hrefs.find? fun href => linkPage href = page with
  | some href =>
      [.tag { kind := .startTag, name := "a", attrs := [{ localName := "href", value := href }] },
        .characters "link",
        .tag { kind := .endTag, name := "a", attrs := [] }]
  | none => [.characters page]

/-- The tokenizer on a page of the model, which has one line and no script. -/
def feed (page : String) : TokenDialogue Fed :=
  (tokens page).foldr (fun token rest => .ask (token, 1) fun _ => rest)
    (.done { buffersEmpty := true
             result := .done
             finish := .ask (.eof, 1) fun _ => .done () })

instance : Externals PlainUrl where
  join base href := .ok ((absolute.lookup href).getD { base with path := href, fragment := none })
  domain url := match url.host with
    | some (.domain name) => some name
    | _ => none
  setFragment url fragment := { url with fragment }
  asStr := text
  oneAgentAllowedByRobots robots _ url :=
    robots ≠ "User-agent: *\nDisallow: /" &&
      !(robots = "User-agent: *\nDisallow: /private" && url = "https://example.com/private")
  tokenize := feed

/-- The host of a plain url obeys the laws of hosts. -/
lemma hostLaws : HostLaws PlainUrl.host where
  domain_eq_some := by
    intro url name
    change (match url.host with
      | some (.domain name) => some name
      | _ => none) = some name ↔ _
    split
    · next h => simp [h]
    · next h => simp only [reduceCtorEq, false_iff]; exact h name
  host_setFragment _ _ := rfl

/-- Removing a fragment twice is removing it once. -/
lemma setFragment_idem (url : PlainUrl) :
    setFragment (setFragment url none) none = setFragment url none := rfl

/-! ### A site and a run of its crawl -/

/-- A robots.txt that excludes one page. -/
def robotsTxt : String := "User-agent: *\nDisallow: /private"

/-- A site whose start page links to a redirect to the excluded page. -/
def get (url : PlainUrl) : Except Error (HttpResponse PlainUrl) :=
  if url = site "/" then .ok (.html (linkPage "/a"))
  else if url = site "/a" then .ok (.redirect ⟨302⟩ (site "/private"))
  else .ok (.serverFailure ⟨404⟩ "Not Found")

/-- The events of its crawl. -/
def events : List (Event PlainUrl) :=
  [.start (site "/"), .got (site "/") (get (site "/")),
    .parsed (site "/") (linkPage "/a") (.ok ()), .next,
    .start (site "/a"), .got (site "/a") (get (site "/a")), .next]

/-- Its client answers by a function of the url. -/
lemma events_got {url : PlainUrl} {response : Except Error (HttpResponse PlainUrl)}
    (h : .got url response ∈ events) : response = get url := by
  simp only [events, List.mem_cons, Event.got.injEq, List.not_mem_nil, reduceCtorEq, false_or,
    or_false] at h
  rcases h with ⟨rfl, rfl⟩ | ⟨rfl, rfl⟩ <;> rfl

/-- The events of a call that crawls it. -/
def callEvents : List (CallEvent PlainUrl) :=
  [.robots (.ok (some robotsTxt)), .register] ++ events.map .inner ++ [.remove, .finish]

/-- The events of a crawler that crawls it once. -/
def serverEvents : List (ServerEvent PlainUrl) :=
  .crawl 0 (site "/") :: callEvents.map (.call 0)

/-- The events of a crawler that crawls it twice at the same time: the second
call takes the slot of the first, which runs to its end. -/
def twinEvents : List (ServerEvent PlainUrl) :=
  [.crawl 0 (site "/"), .crawl 1 (site "/"), .call 0 (.robots (.ok (some robotsTxt))),
    .call 1 (.robots (.ok (some robotsTxt))), .call 0 .register, .call 1 .register]
    ++ events.map (fun event => .call 0 (.inner event)) ++ [.call 0 .remove, .call 0 .finish]

/-- The events of a crawler with two calls of different seeds, up to where the
start page of the first is parsed. -/
def pairEvents : List (ServerEvent PlainUrl) :=
  [.crawl 0 (site "/"), .crawl 1 (site "/a"), .call 0 (.robots (.ok (some robotsTxt))),
    .call 1 (.robots (.ok (some robotsTxt))), .call 0 .register, .call 1 .register,
    .call 0 (.inner (.start (site "/"))), .call 0 (.inner (.got (site "/") (get (site "/"))))]

/-- A site whose start page links to a page that cannot be fetched. -/
def brokenGet (url : PlainUrl) : Except Error (HttpResponse PlainUrl) :=
  if url = site "/" then .ok (.html (linkPage "/a")) else .error ⟨"Connection failed"⟩

/-- The events of its crawl. -/
def brokenEvents : List (Event PlainUrl) :=
  [.start (site "/"), .got (site "/") (brokenGet (site "/")),
    .parsed (site "/") (linkPage "/a") (.ok ()), .next,
    .start (site "/a"), .got (site "/a") (brokenGet (site "/a")), .next]

/-- Its client answers by a function of the url. -/
lemma brokenEvents_got {url : PlainUrl} {response : Except Error (HttpResponse PlainUrl)}
    (h : .got url response ∈ brokenEvents) : response = brokenGet url := by
  simp only [brokenEvents, List.mem_cons, Event.got.injEq, List.not_mem_nil, reduceCtorEq,
    false_or, or_false] at h
  rcases h with ⟨rfl, rfl⟩ | ⟨rfl, rfl⟩ <;> rfl

end PlainUrl

end MikesCrawler
