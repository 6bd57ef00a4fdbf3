/-
A concrete tokenizer on which the model runs on pages of any text, and urls
whose pages it reads: the tokenizer of the HTML standard without character
references, as far as it goes while its sink always answers `continue`.

* `Markup`, `Markup.step`: the states of the tokenizer, and what it does at a
  character;
* `SiteUrl` and its instance of `Externals`;
* `Markup.reader`, `Markup.laws`: it obeys what is documented of `html5ever`.
-/
import MikesCrawler.Machine.Scan
import MikesCrawler.Model.Markup
import MikesCrawler.Model.PlainUrl

open Machine

namespace MikesCrawler

/-- The states of the tokenizer, with the tag it is in. -/
inductive Markup where
  | data
  | tagOpen
  | endTagOpen
  | tagName (kind : TagKind) (name : List Char)
  | beforeAttrName (tag : Tag)
  | attrName (tag : Tag) (name : List Char)
  | afterAttrName (tag : Tag) (name : List Char)
  | beforeAttrValue (tag : Tag) (name : List Char)
  | attrValueDouble (tag : Tag) (name value : List Char)
  | attrValueSingle (tag : Tag) (name value : List Char)
  | attrValueUnquoted (tag : Tag) (name value : List Char)
  | afterAttrValue (tag : Tag)
  | selfClosing (tag : Tag)
  | declaration
  | declarationDash
  | bogusComment
  | commentStart
  | commentStartDash
  | comment
  | commentDash
  | commentEnd
  | commentEndBang
  deriving DecidableEq, Repr

namespace Markup

/-- White space in a tag. -/
def isSpace (c : Char) : Bool := c = ' ' || c = '\t' || c = '\n' || c = '\x0c' || c = '\r'

/-- A tag without attributes. -/
def newTag (kind : TagKind) (name : List Char) : Tag :=
  { kind, name := String.ofList name, attrs := [] }

/-- A tag with one more attribute, of which the first of a name counts. -/
def addAttr (tag : Tag) (name value : List Char) : Tag :=
  if tag.attrs.any fun a => a.localName = String.ofList name then tag
  else { tag with attrs := tag.attrs ++
    [{ localName := String.ofList name, value := String.ofList value }] }

/-- A character between two attributes. -/
def betweenAttrs (tag : Tag) (c : Char) : List Token × Markup :=
  if isSpace c then ([], .beforeAttrName tag)
  else if c = '/' then ([], .selfClosing tag)
  else if c = '>' then ([.tag tag], .data)
  else ([], .attrName tag [c.toLower])

/-- A character after the name of an attribute. -/
def afterName (tag : Tag) (name : List Char) (c : Char) : List Token × Markup :=
  if isSpace c then ([], .afterAttrName tag name)
  else if c = '/' then ([], .selfClosing (addAttr tag name []))
  else if c = '=' then ([], .beforeAttrValue tag name)
  else if c = '>' then ([.tag (addAttr tag name [])], .data)
  else ([], .attrName (addAttr tag name []) [c.toLower])

/-- What the tokenizer does at a character: the tokens it hands over, and the
state it goes to. -/
def step : Markup → Char → List Token × Markup
  | .data, c => if c = '<' then ([], .tagOpen) else ([.characters (String.singleton c)], .data)
  | .tagOpen, c =>
      if c = '!' then ([], .declaration)
      else if c = '/' then ([], .endTagOpen)
      else if c = '?' then ([], .bogusComment)
      else if c.isAlpha then ([], .tagName .startTag [c.toLower])
      else if c = '<' then ([.characters "<"], .tagOpen)
      else ([.characters "<", .characters (String.singleton c)], .data)
  | .endTagOpen, c =>
      if c = '>' then ([], .data)
      else if c.isAlpha then ([], .tagName .endTag [c.toLower])
      else ([], .bogusComment)
  | .tagName kind name, c =>
      if isSpace c then ([], .beforeAttrName (newTag kind name))
      else if c = '/' then ([], .selfClosing (newTag kind name))
      else if c = '>' then ([.tag (newTag kind name)], .data)
      else ([], .tagName kind (name ++ [c.toLower]))
  | .beforeAttrName tag, c => betweenAttrs tag c
  | .attrName tag name, c =>
      if isSpace c || c = '/' || c = '=' || c = '>' then afterName tag name c
      else ([], .attrName tag (name ++ [c.toLower]))
  | .afterAttrName tag name, c => afterName tag name c
  | .beforeAttrValue tag name, c =>
      if isSpace c then ([], .beforeAttrValue tag name)
      else if c = '"' then ([], .attrValueDouble tag name [])
      else if c = '\'' then ([], .attrValueSingle tag name [])
      else if c = '>' then ([.tag (addAttr tag name [])], .data)
      else ([], .attrValueUnquoted tag name [c])
  | .attrValueDouble tag name value, c =>
      if c = '"' then ([], .afterAttrValue (addAttr tag name value))
      else ([], .attrValueDouble tag name (value ++ [c]))
  | .attrValueSingle tag name value, c =>
      if c = '\'' then ([], .afterAttrValue (addAttr tag name value))
      else ([], .attrValueSingle tag name (value ++ [c]))
  | .attrValueUnquoted tag name value, c =>
      if isSpace c then ([], .beforeAttrName (addAttr tag name value))
      else if c = '>' then ([.tag (addAttr tag name value)], .data)
      else ([], .attrValueUnquoted tag name (value ++ [c]))
  | .afterAttrValue tag, c => betweenAttrs tag c
  | .selfClosing tag, c => betweenAttrs tag c
  | .declaration, c =>
      if c = '-' then ([], .declarationDash)
      else if c = '>' then ([], .data) else ([], .bogusComment)
  | .declarationDash, c =>
      if c = '-' then ([], .commentStart)
      else if c = '>' then ([], .data) else ([], .bogusComment)
  | .bogusComment, c => if c = '>' then ([], .data) else ([], .bogusComment)
  | .commentStart, c =>
      if c = '-' then ([], .commentStartDash)
      else if c = '>' then ([], .data) else ([], .comment)
  | .commentStartDash, c =>
      if c = '-' then ([], .commentEnd)
      else if c = '>' then ([], .data) else ([], .comment)
  | .comment, c => if c = '-' then ([], .commentDash) else ([], .comment)
  | .commentDash, c => if c = '-' then ([], .commentEnd) else ([], .comment)
  | .commentEnd, c =>
      if c = '>' then ([], .data)
      else if c = '-' then ([], .commentEnd)
      else if c = '!' then ([], .commentEndBang) else ([], .comment)
  | .commentEndBang, c =>
      if c = '>' then ([], .data)
      else if c = '-' then ([], .commentDash) else ([], .comment)

/-- The tokens of a page. -/
def tokens (page : String) : List Token := (scan step .data page.toList).1

/-- The tokenizer on a page of one line. -/
def feed (page : String) : TokenDialogue Fed :=
  (tokens page).foldr (fun token rest => .ask (token, 1) fun _ => rest)
    (.done { buffersEmpty := true
             result := .done
             finish := .ask (.eof, 1) fun _ => .done () })

/-- The tokenizer as a reader of text. -/
def reader : MarkupReader where
  State := Markup
  data := .data
  read q text :=
    ((scan step q text.toList).1.filterMap Token.tag?, (scan step q text.toList).2)

end Markup

/-- A plain url whose pages the tokenizer above reads. -/
structure SiteUrl where
  url : PlainUrl
  deriving DecidableEq, Repr

namespace SiteUrl

/-- The absolute urls that a page may refer to. -/
def absolute : List (String × PlainUrl) :=
  [("https://example.com/", PlainUrl.site "/"), ("http://10.0.0.2/", PlainUrl.numbered 2 "/")]

instance : Externals SiteUrl where
  join base href :=
    if href = "https://" then .error ⟨"empty host"⟩
    else match absolute.lookup href with
      | some url => .ok ⟨url⟩
      | none => .ok ⟨{ base.url with path := href, fragment := none }⟩
  domain url := domain url.url
  setFragment url fragment := ⟨setFragment url.url fragment⟩
  asStr url := asStr url.url
  oneAgentAllowedByRobots := oneAgentAllowedByRobots PlainUrl
  tokenize := Markup.feed

/-- A page of `https://example.com`. -/
def page (path : String) : SiteUrl := ⟨PlainUrl.site path⟩

end SiteUrl

/-! ### The laws of markup -/

namespace Markup

lemma asked_foldr (tokens : List Token) (fed : Fed) :
    (tokens.foldr (fun token rest => (.ask (token, 1) fun _ => rest : TokenDialogue Fed))
      (.done fed)).asked .continue = tokens.map fun token => (token, 1) := by
  induction tokens with
  | nil => rfl
  | cons token tokens ih => rw [List.foldr_cons, Dialogue.asked, ih, List.map_cons]

lemma result_foldr (tokens : List Token) (fed : Fed) :
    (tokens.foldr (fun token rest => (.ask (token, 1) fun _ => rest : TokenDialogue Fed))
      (.done fed)).result .continue = fed := by
  induction tokens with
  | nil => rfl
  | cons token tokens ih => rw [List.foldr_cons, Dialogue.result, ih]

/-- The tokens of a page are those read from it, and the end of the input. -/
lemma pageTokens_eq (page : String) :
    pageTokens SiteUrl page = (tokens page).map (fun token => (token, 1)) ++ [(.eof, 1)] := by
  rw [pageTokens]
  show (feed page).asked .continue ++ ((feed page).result .continue).finish.asked .continue = _
  rw [feed, asked_foldr, result_foldr]
  rfl

/-- A comment or a quoted value is open. -/
def Open : Set Markup :=
  {q | q = .comment ∨ (∃ tag name value, q = .attrValueDouble tag name value) ∨
    ∃ tag name value, q = .attrValueSingle tag name value}

/-- After `</script>` the tokenizer is in ordinary text, unless a comment or a
quoted value is open. -/
lemma after_script (q : Markup) :
    (scan step q "</script>".toList).2 = .data ∨ (scan step q "</script>".toList).2 ∈ Open := by
  cases q with
  | comment | commentStart | commentStartDash | commentDash | commentEnd | commentEndBang =>
      exact Or.inr (Or.inl rfl)
  | attrValueDouble tag name value => exact Or.inr (Or.inr (Or.inl ⟨tag, name, _, rfl⟩))
  | attrValueSingle tag name value => exact Or.inr (Or.inr (Or.inr ⟨tag, name, _, rfl⟩))
  | data | tagOpen | endTagOpen | tagName | beforeAttrName | attrName | afterAttrName
  | beforeAttrValue | attrValueUnquoted | afterAttrValue | selfClosing | declaration
  | declarationDash | bogusComment => exact Or.inl rfl

/-- What is open swallows an anchor without quotes. -/
lemma open_anchor {q : Markup} (h : q ∈ Open) : (scan step q anchorText.toList).1 = [] := by
  have hchars : ∀ c ∈ anchorText.toList, c ≠ '"' ∧ c ≠ '\'' ∧ c ≠ '-' := by
    simp [anchorText]
  refine (scan_quiet (S := Open) (fun q hq c hc => ?_) h).1
  obtain ⟨hdouble, hsingle, hdash⟩ := hchars c hc
  rcases hq with rfl | ⟨tag, name, value, rfl⟩ | ⟨tag, name, value, rfl⟩
  · simp [step, hdash, Open]
  · simp [step, hdouble, Open]
  · simp [step, hsingle, Open]

lemma tags_eq (page : String) :
    (pageTokens SiteUrl page).filterMap (fun token => token.1.tag?)
      = (tokens page).filterMap Token.tag? := by
  rw [pageTokens_eq, List.filterMap_append, List.filterMap_map]
  exact List.append_nil _

/-- A text may be read in two pieces. -/
lemma read_append (q : Markup) (text rest : String) : reader.read q (text ++ rest)
    = ((reader.read q text).1 ++ (reader.read (reader.read q text).2 rest).1,
      (reader.read (reader.read q text).2 rest).2) := by
  show ((scan step q (text ++ rest).toList).1.filterMap Token.tag?,
    (scan step q (text ++ rest).toList).2) = _
  rw [String.toList_append, scan_append, List.filterMap_append]
  rfl

/-- The tokenizer obeys the laws of markup. -/
lemma laws : MarkupLaws SiteUrl reader where
  read_empty _ := rfl
  read_append := read_append
  tags_eq := tags_eq
  consumed page := by
    show ((feed page).result .continue).buffersEmpty = true ∧
      ((feed page).result .continue).result = .done
    rw [feed, result_foldr]
    exact ⟨rfl, rfl⟩
  script_tag := rfl
  anchor_tag := rfl
  anchor_swallowed text := by
    simp only [reader, String.toList_append, scan_append]
    rcases after_script (scan step .data text.toList).2 with hdata | hopen
    · exact Or.inl hdata
    · right
      rw [open_anchor hopen]
      rfl
  anchor_resolves url := ⟨⟨PlainUrl.site "/"⟩, rfl⟩

end Markup

end MikesCrawler
