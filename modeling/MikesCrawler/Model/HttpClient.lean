/-
`http_client.rs`: the client that stands behind a crawl in production, as a
function of what `reqwest` brings from the network.

* `StatusCode`, `HeaderValue`, `Mime`, `Response`: what the client reads of a
  response; `HttpLibs`: the functions of the `http` and `mime` crates it calls;
* `ProdHttpClient.get`, `ProdHttpClient.getRobots`: the client;
* `PlainUrl.web`: the servers of the site of `PlainUrl.get`.
-/
import MikesCrawler.Model.PlainUrl

namespace MikesCrawler

/-- The status of a response. -/
structure StatusCode where
  asU16 : UInt16
  deriving DecidableEq, Repr

def StatusCode.isSuccess (status : StatusCode) : Bool :=
  300 > status.asU16 && status.asU16 ≥ 200

def StatusCode.isRedirection (status : StatusCode) : Bool :=
  400 > status.asU16 && status.asU16 ≥ 300

def StatusCode.NOT_FOUND : StatusCode := ⟨404⟩

/-- A header value, of which the client reads the text if it is visible
ASCII. -/
structure HeaderValue where
  toStr : Except Error String
  deriving DecidableEq

/-- A media type: its essence, without the parameters, and all of it as text. -/
structure Mime where
  essenceStr : String
  text : String
  deriving DecidableEq, Repr

/-- A response of `reqwest`: its status, its headers by their names in lower
case and in the order received, and what reading its body gives. -/
structure Response where
  status : StatusCode
  headers : List (String × HeaderValue)
  text : Except Error String
  deriving DecidableEq

/-- The functions of the `mime` and `http` crates that the client calls. -/
class HttpLibs where
  /-- `Mime::from_str`. -/
  parseMime : String → Except Error Mime
  /-- The text of a status. -/
  displayStatus : StatusCode → String

export HttpLibs (parseMime displayStatus)

/-- `Option::ok_or_else` with a message. -/
def okOrElse {α : Type} (a : Option α) (msg : String) : Except Error α :=
  match a with
  | some a => .ok a
  | none => .error ⟨msg⟩

variable {Url : Type} [Externals Url] [HttpLibs]

namespace ProdHttpClient

/-- `get`, from the end of `send` on.  Redirects are not followed by the client
itself, so that `sent` is what the server of the url answered. -/
def get (url : Url) (sent : Except Error Response) : Except Error (HttpResponse Url) := do
  let response ← sent
  if response.status.isSuccess then
    let contentType ←
      okOrElse (response.headers.lookup "content-type") "No content type on OK response"
    let contentType ← parseMime (← contentType.toStr)
    if contentType.essenceStr = "text/html" then
      return .html (← response.text)
    else
      return .otherContent contentType.text
  else if response.status.isRedirection then
    let location ← okOrElse (response.headers.lookup "location") "No Location header on redirect"
    let location ← join url (← location.toStr)
    return .redirect ⟨response.status.asU16⟩ location
  else
    return .serverFailure ⟨response.status.asU16⟩ (← response.text)

/-- `get_robots`, from the end of `send` on. -/
def getRobots (sent : Except Error Response) : Except Error (Option String) := do
  let response ← sent
  if response.status.isSuccess then
    return some (← response.text)
  else if response.status = StatusCode.NOT_FOUND then
    return none
  else
    throw ⟨"Got status " ++ displayStatus response.status ++ " for robots.txt"⟩

end ProdHttpClient

/-! ### The servers of a site -/

/-- The functions on the media types and statuses of the model. -/
instance : HttpLibs where
  parseMime text :=
    if text ∈ ["text/html", "text/html; charset=utf-8"] then .ok ⟨"text/html", text⟩
    else if text = "image/png" then .ok ⟨text, text⟩
    else .error ⟨"mime parse error: a slash (/) was missing between the type and subtype"⟩
  displayStatus status :=
    let reasons : List (UInt16 × String) := [(404, "Not Found"), (503, "Service Unavailable")]
    toString status.asU16 ++ " " ++ (reasons.lookup status.asU16).getD "<unknown status code>"

/-- What the server of `https://example.com` answers. -/
def PlainUrl.web (url : PlainUrl) : Except Error Response :=
  if url = site "/" then
    .ok { status := ⟨200⟩
          headers := [("content-type", ⟨.ok "text/html; charset=utf-8"⟩)]
          text := .ok (linkPage "/a") }
  else if url = site "/a" then
    .ok { status := ⟨302⟩, headers := [("location", ⟨.ok "/private"⟩)], text := .ok "" }
  else if url = site "/robots.txt" then
    .ok { status := ⟨200⟩, headers := [], text := .ok robotsTxt }
  else .ok { status := ⟨404⟩, headers := [], text := .ok "Not Found" }

end MikesCrawler
