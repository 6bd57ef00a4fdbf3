/-
What the client of production answers, as rules on what servers answer.

* `Unusable`, `Classified`: the responses that the client can make nothing of,
  and the entry that the outcome of a request leads to;
* `classified_iff`: what the client answers is recorded as that entry;
* `RobotsGiven`, `RobotsRefused`: the robots.txt that the outcome of a request
  gives, and why there is none to be had; `robotsGiven_iff`,
  `robotsRefused_iff`: what the client answers is that.
-/
import MikesCrawler.Guarantees.Fetches
import MikesCrawler.Model.HttpClient

namespace MikesCrawler

/-! ### Computations that can fail -/

section Except

variable {α β ε : Type} {x : Except ε α} {f : α → Except ε β}

/-- A computation in two steps succeeds if both do. -/
lemma bind_eq_ok {b : β} : (x >>= f) = .ok b ↔ ∃ a, x = .ok a ∧ f a = .ok b := by
  cases x with
  | error e => simp [bind, Except.bind]
  | ok a => simp [bind, Except.bind]

/-- It fails if one of them does. -/
lemma bind_eq_error {e : ε} :
    (x >>= f) = .error e ↔ x = .error e ∨ ∃ a, x = .ok a ∧ f a = .error e := by
  cases x with
  | error e' => simp [bind, Except.bind]
  | ok a => simp [bind, Except.bind]

end Except

lemma okOrElse_eq_ok {α : Type} {o : Option α} {msg : String} {a : α} :
    okOrElse o msg = .ok a ↔ o = some a := by
  cases o with
  | none => simp [okOrElse]
  | some b => simp [okOrElse]

lemma okOrElse_eq_error {α : Type} {o : Option α} {msg : String} {e : Error} :
    okOrElse o msg = .error e ↔ o = none ∧ e = ⟨msg⟩ := by
  cases o with
  | none => simp [okOrElse, eq_comm]
  | some b => simp [okOrElse]

variable {Url : Type} [Externals Url] [HttpLibs]

/-! ### What the client makes of a response -/

/-- The responses that the client can make nothing of, with its error. -/
inductive Unusable (url : Url) (response : Response) : Error → Prop
  | noContentType (success : response.status.isSuccess = true)
      (header : response.headers.lookup "content-type" = none) :
      Unusable url response ⟨"No content type on OK response"⟩
  | contentTypeText {value : HeaderValue} {e : Error} (success : response.status.isSuccess = true)
      (header : response.headers.lookup "content-type" = some value)
      (text : value.toStr = .error e) : Unusable url response e
  | contentTypeMime {value : HeaderValue} {text : String} {e : Error}
      (success : response.status.isSuccess = true)
      (header : response.headers.lookup "content-type" = some value)
      (read : value.toStr = .ok text) (mime : parseMime text = .error e) : Unusable url response e
  | pageText {value : HeaderValue} {text : String} {mime : Mime} {e : Error}
      (success : response.status.isSuccess = true)
      (header : response.headers.lookup "content-type" = some value)
      (read : value.toStr = .ok text) (type : parseMime text = .ok mime)
      (html : mime.essenceStr = "text/html") (body : response.text = .error e) :
      Unusable url response e
  | noLocation (redirection : response.status.isRedirection = true)
      (header : response.headers.lookup "location" = none) :
      Unusable url response ⟨"No Location header on redirect"⟩
  | locationText {value : HeaderValue} {e : Error}
      (redirection : response.status.isRedirection = true)
      (header : response.headers.lookup "location" = some value)
      (text : value.toStr = .error e) : Unusable url response e
  | locationUrl {value : HeaderValue} {text : String} {e : Error}
      (redirection : response.status.isRedirection = true)
      (header : response.headers.lookup "location" = some value)
      (read : value.toStr = .ok text) (resolve : join url text = .error e) :
      Unusable url response e
  | failureText {e : Error} (success : response.status.isSuccess = false)
      (redirection : response.status.isRedirection = false) (body : response.text = .error e) :
      Unusable url response e

/-- The entry that the outcome of a request leads to. -/
inductive Classified (url : Url) : Except Error Response → PageResult Url → Prop
  | unsent {e : Error} : Classified url (.error e) (.error e.msg)
  | unusable {response : Response} {e : Error} (why : Unusable url response e) :
      Classified url (.ok response) (.error e.msg)
  | crawled {response : Response} {value : HeaderValue} {text body : String} {mime : Mime}
      {info : PageInfo Url} (success : response.status.isSuccess = true)
      (header : response.headers.lookup "content-type" = some value)
      (read : value.toStr = .ok text) (type : parseMime text = .ok mime)
      (html : mime.essenceStr = "text/html") (page : response.text = .ok body)
      (parses : parsePage url body = .ok info) : Classified url (.ok response) (.crawled info)
  | otherContent {response : Response} {value : HeaderValue} {text : String} {mime : Mime}
      (success : response.status.isSuccess = true)
      (header : response.headers.lookup "content-type" = some value)
      (read : value.toStr = .ok text) (type : parseMime text = .ok mime)
      (other : mime.essenceStr ≠ "text/html") :
      Classified url (.ok response) (.otherContent mime.text)
  | redirect {response : Response} {value : HeaderValue} {text : String} {target : Url}
      (redirection : response.status.isRedirection = true)
      (header : response.headers.lookup "location" = some value)
      (read : value.toStr = .ok text) (resolve : join url text = .ok target) :
      Classified url (.ok response) (.redirect ⟨response.status.asU16⟩ target)
  | serverFailure {response : Response} {body : String}
      (success : response.status.isSuccess = false)
      (redirection : response.status.isRedirection = false) (read : response.text = .ok body) :
      Classified url (.ok response) (.serverFailure ⟨response.status.asU16⟩ body)

/-! ### The entry that a response leads to -/

/-- What the client has an answer for. -/
lemma get_eq_ok {url : Url} {sent : Except Error Response} {answer : HttpResponse Url}
    {page : PageResult Url} (h : ProdHttpClient.get url sent = .ok answer)
    (hpage : pageResult url (.ok answer) = some page) : Classified url sent page := by
  rw [ProdHttpClient.get] at h
  obtain ⟨response, rfl, hgot⟩ := bind_eq_ok.mp h
  split at hgot
  · next hsuccess =>
      obtain ⟨value, hheader, hgot⟩ := bind_eq_ok.mp hgot
      obtain ⟨text, hread, hgot⟩ := bind_eq_ok.mp hgot
      obtain ⟨mime, hmime, hgot⟩ := bind_eq_ok.mp hgot
      split at hgot
      · next hhtml =>
          obtain ⟨body, hbody, hgot⟩ := bind_eq_ok.mp hgot
          cases hgot
          simp only [pageResult] at hpage
          split at hpage
          · next info hinfo =>
              cases hpage
              exact .crawled hsuccess (okOrElse_eq_ok.mp hheader) hread hmime hhtml hbody hinfo
          · cases hpage
      · next hother =>
          cases hgot
          cases hpage
          exact .otherContent hsuccess (okOrElse_eq_ok.mp hheader) hread hmime hother
  · next hsuccess =>
      split at hgot
      · next hredirection =>
          obtain ⟨value, hheader, hgot⟩ := bind_eq_ok.mp hgot
          obtain ⟨text, hread, hgot⟩ := bind_eq_ok.mp hgot
          obtain ⟨target, hjoin, hgot⟩ := bind_eq_ok.mp hgot
          cases hgot
          cases hpage
          exact .redirect hredirection (okOrElse_eq_ok.mp hheader) hread hjoin
      · next hredirection =>
          obtain ⟨body, hbody, hgot⟩ := bind_eq_ok.mp hgot
          cases hgot
          cases hpage
          exact .serverFailure (eq_false_of_ne_true hsuccess) (eq_false_of_ne_true hredirection)
            hbody

/-- What the client has an error for. -/
lemma get_eq_error {url : Url} {response : Response} {e : Error}
    (h : ProdHttpClient.get url (.ok response) = .error e) : Unusable url response e := by
  rw [ProdHttpClient.get] at h
  obtain hnone | ⟨_, heq, hgot⟩ := bind_eq_error.mp h
  · cases hnone
  · cases heq
    split at hgot
    · next hsuccess =>
        obtain hheader | ⟨value, hheader, hgot⟩ := bind_eq_error.mp hgot
        · obtain ⟨hnone, rfl⟩ := okOrElse_eq_error.mp hheader
          exact .noContentType hsuccess hnone
        obtain hread | ⟨text, hread, hgot⟩ := bind_eq_error.mp hgot
        · exact .contentTypeText hsuccess (okOrElse_eq_ok.mp hheader) hread
        obtain hmime | ⟨mime, hmime, hgot⟩ := bind_eq_error.mp hgot
        · exact .contentTypeMime hsuccess (okOrElse_eq_ok.mp hheader) hread hmime
        split at hgot
        · next hhtml =>
            obtain hbody | ⟨body, -, hgot⟩ := bind_eq_error.mp hgot
            · exact .pageText hsuccess (okOrElse_eq_ok.mp hheader) hread hmime hhtml hbody
            · cases hgot
        · cases hgot
    · next hsuccess =>
        split at hgot
        · next hredirection =>
            obtain hheader | ⟨value, hheader, hgot⟩ := bind_eq_error.mp hgot
            · obtain ⟨hnone, rfl⟩ := okOrElse_eq_error.mp hheader
              exact .noLocation hredirection hnone
            obtain hread | ⟨text, hread, hgot⟩ := bind_eq_error.mp hgot
            · exact .locationText hredirection (okOrElse_eq_ok.mp hheader) hread
            obtain hjoin | ⟨target, -, hgot⟩ := bind_eq_error.mp hgot
            · exact .locationUrl hredirection (okOrElse_eq_ok.mp hheader) hread hjoin
            · cases hgot
        · next hredirection =>
            obtain hbody | ⟨body, -, hgot⟩ := bind_eq_error.mp hgot
            · exact .failureText (eq_false_of_ne_true hsuccess)
                (eq_false_of_ne_true hredirection) hbody
            · cases hgot

omit [HttpLibs] in
/-- No status is both a success and a redirection. -/
lemma StatusCode.not_success_of_redirection {status : StatusCode}
    (h : status.isRedirection = true) : status.isSuccess = false := by
  rw [isRedirection, Bool.and_eq_true, decide_eq_true_eq, decide_eq_true_eq] at h
  rw [isSuccess, Bool.and_eq_false_iff, decide_eq_false_iff_not]
  exact Or.inl (UInt16.not_lt.mpr h.2)

lemma get_of_unusable {url : Url} {response : Response} {e : Error}
    (h : Unusable url response e) : ProdHttpClient.get url (.ok response) = .error e := by
  cases h with
  | noContentType success header =>
      simp [ProdHttpClient.get, bind, Except.bind, success, header, okOrElse]
  | contentTypeText success header text =>
      simp [ProdHttpClient.get, bind, Except.bind, success, header, okOrElse, text]
  | contentTypeMime success header read mime =>
      simp [ProdHttpClient.get, bind, Except.bind, success, header, okOrElse, read, mime]
  | pageText success header read type html body =>
      simp [ProdHttpClient.get, bind, Except.bind, success, header, okOrElse, read, type, html,
        body]
  | noLocation redirection header =>
      have hsuccess := StatusCode.not_success_of_redirection redirection
      simp [ProdHttpClient.get, bind, Except.bind, hsuccess, redirection, header, okOrElse]
  | locationText redirection header text =>
      have hsuccess := StatusCode.not_success_of_redirection redirection
      simp [ProdHttpClient.get, bind, Except.bind, hsuccess, redirection, header, okOrElse, text]
  | locationUrl redirection header read resolve =>
      have hsuccess := StatusCode.not_success_of_redirection redirection
      simp [ProdHttpClient.get, bind, Except.bind, hsuccess, redirection, header, okOrElse, read,
        resolve]
  | failureText success redirection body =>
      simp [ProdHttpClient.get, bind, Except.bind, success, redirection, body]

/-- **The entries of the client**: what it answers to the outcome of a request is
recorded as the entry that the outcome leads to, and as no other. -/
theorem classified_iff {url : Url} {sent : Except Error Response} {page : PageResult Url} :
    pageResult url (ProdHttpClient.get url sent) = some page ↔ Classified url sent page := by
  constructor
  · intro h
    cases hgot : ProdHttpClient.get url sent with
    | ok answer =>
        rw [hgot] at h
        exact get_eq_ok hgot h
    | error e =>
        rw [hgot] at h
        cases h
        cases sent with
        | error e' =>
            cases hgot
            exact .unsent
        | ok response => exact .unusable (get_eq_error hgot)
  · intro h
    cases h with
    | unsent => rfl
    | unusable why =>
        rw [get_of_unusable why]
        rfl
    | crawled success header read type html page parses =>
        simp [ProdHttpClient.get, bind, Except.bind, pure, Except.pure, success, header, okOrElse,
          read, type, html, page, pageResult, parses]
    | otherContent success header read type other =>
        simp [ProdHttpClient.get, bind, Except.bind, pure, Except.pure, success, header, okOrElse,
          read, type, other, pageResult]
    | redirect redirection header read resolve =>
        have hsuccess := StatusCode.not_success_of_redirection redirection
        simp [ProdHttpClient.get, bind, Except.bind, pure, Except.pure, hsuccess, redirection,
          header, okOrElse, read, resolve, pageResult]
    | serverFailure success redirection read =>
        simp [ProdHttpClient.get, bind, Except.bind, pure, Except.pure, success, redirection, read,
          pageResult]

/-! ### The robots.txt of a site -/

/-- What a request for a robots.txt gives a crawl: its text, or nothing where
there is none. -/
inductive RobotsGiven : Except Error Response → Option String → Prop
  | found {response : Response} {text : String} (success : response.status.isSuccess = true)
      (read : response.text = .ok text) : RobotsGiven (.ok response) (some text)
  | absent {response : Response} (missing : response.status = StatusCode.NOT_FOUND) :
      RobotsGiven (.ok response) none

/-- Why a robots.txt cannot be had, with the error of the client. -/
inductive RobotsRefused : Except Error Response → Error → Prop
  | unsent {e : Error} : RobotsRefused (.error e) e
  | unreadable {response : Response} {e : Error} (success : response.status.isSuccess = true)
      (read : response.text = .error e) : RobotsRefused (.ok response) e
  | status {response : Response} (success : response.status.isSuccess = false)
      (present : response.status ≠ StatusCode.NOT_FOUND) : RobotsRefused (.ok response)
        ⟨"Got status " ++ displayStatus response.status ++ " for robots.txt"⟩

/-- What `get_robots` answers with a robots.txt, or with none. -/
lemma robotsGiven_iff {sent : Except Error Response} {robots : Option String} :
    ProdHttpClient.getRobots sent = .ok robots ↔ RobotsGiven sent robots := by
  constructor
  · intro h
    obtain ⟨response, rfl, hgot⟩ := bind_eq_ok.mp h
    split at hgot
    · next hsuccess =>
        obtain ⟨text, htext, hgot⟩ := bind_eq_ok.mp hgot
        cases hgot
        exact .found hsuccess htext
    · split at hgot
      · next hmissing =>
          cases hgot
          exact .absent hmissing
      · cases hgot
  · intro h
    cases h with
    | found success read =>
        simp [ProdHttpClient.getRobots, bind, Except.bind, pure, Except.pure, success, read]
    | absent missing =>
        have hnot : StatusCode.NOT_FOUND.isSuccess = false := by decide
        simp [ProdHttpClient.getRobots, bind, Except.bind, pure, Except.pure, missing, hnot]

/-- What `get_robots` has an error for. -/
lemma robotsRefused_iff {sent : Except Error Response} {e : Error} :
    ProdHttpClient.getRobots sent = .error e ↔ RobotsRefused sent e := by
  constructor
  · intro h
    obtain rfl | ⟨response, rfl, hgot⟩ := bind_eq_error.mp h
    · exact .unsent
    · split at hgot
      · next hsuccess =>
          obtain htext | ⟨text, -, hgot⟩ := bind_eq_error.mp hgot
          · exact .unreadable hsuccess htext
          · cases hgot
      · next hsuccess =>
          split at hgot
          · cases hgot
          · next hpresent =>
              cases hgot
              exact .status (eq_false_of_ne_true hsuccess) hpresent
  · intro h
    cases h with
    | unsent => rfl
    | unreadable success read =>
        simp [ProdHttpClient.getRobots, bind, Except.bind, success, read]
    | status success present =>
        simp [ProdHttpClient.getRobots, bind, Except.bind, throw, throwThe, MonadExceptOf.throw,
          success, present]

end MikesCrawler
