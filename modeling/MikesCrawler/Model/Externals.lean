/-
What the crawler takes from its dependencies: errors and statuses, the tokens
of `html5ever`, the responses of the http client, and the functions of the
`url`, `robotstxt` and `html5ever` crates as parameters of the model.

* `Error`, `Status`, `Token`, `TokenSinkResult`, `HttpResponse`: the data the
  crawler's functions read and return;
* `Externals`: the crates' functions, over an arbitrary type of urls;
* `Host`, `HostLaws`: the host of a url, which the crawler itself never reads,
  and what the `url` crate documents of it.
-/
import MikesCrawler.Machine.Dialogue

namespace MikesCrawler

/-- An `anyhow::Error`, of which the crawler only ever uses the message. -/
structure Error where
  msg : String
  deriving DecidableEq, Repr

/-- A `rocket::http::Status`. -/
structure Status where
  code : UInt16
  deriving DecidableEq, Repr

/-! ### The tokens of `html5ever` -/

/-- Whether a tag opens or closes. -/
inductive TagKind where
  | startTag | endTag
  deriving DecidableEq, Repr

/-- An attribute of a tag, by its local name. -/
structure Attribute where
  localName : String
  value : String
  deriving DecidableEq, Repr

/-- A tag with its attributes in the order of the document. -/
structure Tag where
  kind : TagKind
  name : String
  attrs : List Attribute
  deriving DecidableEq, Repr

/-- What the tokenizer hands to its sink. -/
inductive Token where
  | doctype
  | tag (tag : Tag)
  | comment (text : String)
  | characters (text : String)
  | nullCharacter
  | eof
  | parseError (msg : String)
  deriving DecidableEq, Repr

/-- The kinds of text a sink can ask the tokenizer to read without markup. -/
inductive RawKind where
  | rcdata | rawtext | scriptData | scriptDataEscaped | scriptDataDoubleEscaped
  deriving DecidableEq, Repr

/-- What the sink answers to a token. -/
inductive TokenSinkResult where
  | «continue» | script | plaintext | rawData (kind : RawKind)
  deriving DecidableEq, Repr

/-- How `Tokenizer::feed` ends. -/
inductive TokenizerResult where
  | done | script
  deriving DecidableEq, Repr

/-- A run of the tokenizer: it hands over tokens with their line numbers and
goes on from the sink's answers. -/
abbrev TokenDialogue := Dialogue (Token × ℕ) TokenSinkResult

/-- What `Tokenizer::feed` leaves: whether the buffers are empty, its result,
and the tokens that `Tokenizer::end` would still hand over. -/
structure Fed where
  buffersEmpty : Bool
  result : TokenizerResult
  finish : TokenDialogue Unit

/-! ### The http client -/

/-- The user agent the crawler names itself by to servers and to robots.txt. -/
def USER_AGENT : String := "MikesCrawler"

/-- The answers of the http client that are not errors. -/
inductive HttpResponse (Url : Type) where
  | html (body : String)
  | otherContent (contentType : String)
  | redirect (status : Status) (target : Url)
  | serverFailure (status : Status) (msg : String)
  deriving DecidableEq, Repr

/-! ### The crates' functions -/

/-- The functions of the `url`, `robotstxt` and `html5ever` crates that the
crawler calls. -/
class Externals (Url : Type) where
  /-- `Url::join`, which fails on what is not a url reference. -/
  join : Url → String → Except Error Url
  /-- `Url::domain`. -/
  domain : Url → Option String
  /-- `Url::set_fragment`. -/
  setFragment : Url → Option String → Url
  /-- `Url::as_str`. -/
  asStr : Url → String
  /-- `DefaultMatcher::one_agent_allowed_by_robots`: the robots.txt body, the
  user agent and the url. -/
  oneAgentAllowedByRobots : String → String → String → Bool
  /-- A fresh `Tokenizer` fed with one page. -/
  tokenize : String → TokenDialogue Fed

export Externals (join domain setFragment asStr oneAgentAllowedByRobots tokenize)

/-- The host of a url. -/
inductive Host where
  | domain (name : String)
  | ipv4 (address : BitVec 32)
  | ipv6 (address : BitVec 128)
  deriving DecidableEq, Repr

/-- What the `url` crate documents of hosts: `domain` is the host where that is
a domain name and nothing otherwise, and a fragment is no part of the host. -/
structure HostLaws {Url : Type} [Externals Url] (host : Url → Option Host) : Prop where
  domain_eq_some : ∀ (u : Url) name, domain u = some name ↔ host u = some (Host.domain name)
  host_setFragment : ∀ (u : Url) fragment, host (setFragment u fragment) = host u

end MikesCrawler
