/-
The tokenizer of `html5ever` as a reader of text, as far as the links of a page
depend on it.

* `Consumed`: the tokenizer takes all of the text of a page;
* `MarkupReader`, `MarkupLaws`: how it reads a text piece by piece while its
  sink answers `continue` to every token, and what the HTML standard says of
  that.
-/
import MikesCrawler.Model.LinkExtractor

namespace MikesCrawler

/-- The tokenizer takes all of the text of a page if its sink always answers
`continue`. -/
def Consumed (Url : Type) [Externals Url] (page : String) : Prop :=
  ((tokenize Url page).result .continue).buffersEmpty = true ∧
    ((tokenize Url page).result .continue).result = .done

/-- The tag that a token is. -/
def Token.tag? : Token → Option Tag
  | .tag t => some t
  | _ => none

/-- How a text is read while the sink answers `continue` to every token: the
states the tokenizer can be in, as far as the tags still to come depend on them,
that of ordinary markup text, and the tags that reading a text hands over, with
the state it ends in. -/
structure MarkupReader where
  State : Type
  data : State
  read : State → String → List Tag × State

/-- An anchor written without quotes. -/
def anchorText : String := "<a href=https://example.com/>"

/-- The tag it is. -/
def anchorTag : Tag :=
  { kind := .startTag, name := "a"
    attrs := [{ localName := "href", value := "https://example.com/" }] }

/-- What `html5ever` documents of its tokenizer for a sink without a tree
builder.  Text is read incrementally and to its end.  In ordinary markup text a
`script` tag is a tag like any other, after which markup goes on.  The `>` that
ends `</script>` leads back to ordinary markup text, unless a comment or a
quoted attribute value is open, which an anchor without quotes does not close.
And an absolute url resolves against any other. -/
structure MarkupLaws (Url : Type) [Externals Url] (reader : MarkupReader) : Prop where
  read_empty : ∀ q, reader.read q "" = ([], q)
  read_append : ∀ q text rest, reader.read q (text ++ rest)
    = ((reader.read q text).1 ++ (reader.read (reader.read q text).2 rest).1,
      (reader.read (reader.read q text).2 rest).2)
  tags_eq : ∀ page, (pageTokens Url page).filterMap (fun token => token.1.tag?)
    = (reader.read reader.data page).1
  consumed : ∀ page, Consumed Url page
  script_tag : reader.read reader.data "<script>"
    = ([{ kind := .startTag, name := "script", attrs := [] }], reader.data)
  anchor_tag : reader.read reader.data anchorText = ([anchorTag], reader.data)
  anchor_swallowed : ∀ text,
    (reader.read reader.data (text ++ "</script>")).2 = reader.data ∨
    (reader.read (reader.read reader.data (text ++ "</script>")).2 anchorText).1 = []
  anchor_resolves : ∀ url : Url, ∃ link, join url "https://example.com/" = .ok link

end MikesCrawler
