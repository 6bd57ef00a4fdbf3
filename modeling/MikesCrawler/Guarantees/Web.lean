/-
A crawl over the client of production, in terms of what servers answer.

* `entries_classified`: in every state of a crawl each entry is that of the
  outcome of its one request;
* `WebReach`, `web_crawl_eq`: the pages of a result are those that the servers'
  own pages and redirects lead to;
* `robots_failure_stops`: a robots.txt that cannot be had, other than by not
  being there, stops a call before it fetches anything.
-/
import MikesCrawler.Guarantees.Client
import MikesCrawler.Guarantees.Results
import MikesCrawler.Guarantees.Status

open Machine

namespace MikesCrawler

variable {Url : Type} [DecidableEq Url] [Externals Url]

/-! ### The entries of a crawl over the client -/

section

variable [HttpLibs]

/-- **The entries of a crawl over the client.**  In every state of every run
whose answers are the client's, an entry records an exclusion, or what the
outcome of the one request for its url leads to. -/
theorem entries_classified {robots : Option String} {seed : Url} {es : List (Event Url)}
    {s : CrawlInner Url} (h : Run robots seed es s)
    (hweb : ∀ url response, .got url response ∈ es →
      ∃ sent, response = ProdHttpClient.get url sent) {url : Url} {page : PageResult Url}
    (hentry : s.entry url = some page) :
    (robotsAllow robots url = false ∧ page = .excludedByRobotsTxt) ∨
    (robotsAllow robots url = true ∧ ∃ sent, .got url (ProdHttpClient.get url sent) ∈ es ∧
      (∀ response, .got url response ∈ es → response = ProdHttpClient.get url sent) ∧
      Classified url sent page) := by
  rcases h.entry_cases hentry with ⟨hexcl, rfl⟩ | ⟨hallowed, v, ⟨response, hgot, hvisit⟩, rfl⟩
  · exact Or.inl ⟨eq_false_of_ne_true hexcl, rfl⟩
  · obtain ⟨sent, rfl⟩ := hweb url response hgot
    exact Or.inr ⟨hallowed, sent, hgot, fun response hgot' => h.got_unique hgot hgot',
      classified_iff.mp (pageResult_of_visit hvisit)⟩

end

/-- The client answers the crawl of a site from what its server answers. -/
lemma PlainUrl.events_web {url : PlainUrl} {response : Except Error (HttpResponse PlainUrl)}
    (h : .got url response ∈ events) : response = ProdHttpClient.get url (web url) := by
  simp only [events, List.mem_cons, Event.got.injEq, List.not_mem_nil, reduceCtorEq, false_or,
    or_false] at h
  rcases h with ⟨rfl, rfl⟩ | ⟨rfl, rfl⟩ <;> rfl

/-- The entry of a redirect of a site. -/
theorem entries_classified_events :
    ∃ s, Run (some PlainUrl.robotsTxt) (PlainUrl.site "/") PlainUrl.events s ∧ ∃ sent,
      Event.got (PlainUrl.site "/a") (ProdHttpClient.get (PlainUrl.site "/a") sent)
        ∈ PlainUrl.events ∧
      Classified (PlainUrl.site "/a") sent (.redirect ⟨302⟩ (PlainUrl.site "/private")) := by
  have hweb : ∀ url response, Event.got url response ∈ PlainUrl.events →
      ∃ sent, response = ProdHttpClient.get url sent :=
    fun url response hgot => ⟨PlainUrl.web url, PlainUrl.events_web hgot⟩
  obtain ⟨s, hrun, hentry⟩ : ∃ s,
      Run (some PlainUrl.robotsTxt) (PlainUrl.site "/") PlainUrl.events s ∧
        s.entry (PlainUrl.site "/a") = some (.redirect ⟨302⟩ (PlainUrl.site "/private")) := by
    refine ⟨_, rfl, ?_⟩
    rfl
  obtain ⟨-, heq⟩ | ⟨-, sent, hgot, -, hclassified⟩ := entries_classified hrun hweb hentry
  · cases heq
  · exact ⟨s, hrun, sent, hgot, hclassified⟩

/-! ### The site that servers make up -/

section

variable [HttpLibs]

/-- The urls that can be reached from the seed through urls that robots.txt
allows, by what servers answer: along the links of pages that are html by their
content type, and along the locations of redirects within a domain. -/
inductive WebReach (web : Url → Except Error Response) (robots : Option String) (seed : Url) :
    Url → Prop
  | seed : WebReach web robots seed seed
  | link {url link : Url} {response : Response} {value : HeaderValue} {text body : String}
      {mime : Mime} {info : PageInfo Url} (reached : WebReach web robots seed url)
      (allowed : robotsAllow robots url = true) (answer : web url = .ok response)
      (success : response.status.isSuccess = true)
      (header : response.headers.lookup "content-type" = some value)
      (read : value.toStr = .ok text) (type : parseMime text = .ok mime)
      (html : mime.essenceStr = "text/html") (page : response.text = .ok body)
      (parses : parsePage url body = .ok info) (mem : link ∈ info.internalLinks) :
      WebReach web robots seed (setFragment link none)
  | redirect {url target : Url} {response : Response} {value : HeaderValue} {text : String}
      (reached : WebReach web robots seed url) (allowed : robotsAllow robots url = true)
      (answer : web url = .ok response) (redirection : response.status.isRedirection = true)
      (header : response.headers.lookup "location" = some value)
      (read : value.toStr = .ok text) (resolve : join url text = .ok target)
      (same : domain target = domain url) : WebReach web robots seed target

variable {web : Url → Except Error Response} {robots : Option String} {seed : Url}

omit [DecidableEq Url] in
/-- It is the site that the client lets a crawl reach. -/
lemma siteReach_iff_webReach {url : Url} :
    SiteReach (fun url => ProdHttpClient.get url (web url)) robots seed url ↔
      WebReach web robots seed url := by
  constructor
  · intro h
    induction h with
    | seed => exact .seed
    | @link url link body info _ allowed page parses mem ih =>
        have hentry : pageResult url (ProdHttpClient.get url (web url)) = some (.crawled info) := by
          simp only [page, pageResult, parses]
        generalize hsent : web url = sent at hentry
        cases classified_iff.mp hentry with
        | crawled success header read type html page' parses' =>
            exact .link ih allowed hsent success header read type html page' parses' mem
    | @redirect url target status _ allowed page same ih =>
        have hentry : pageResult url (ProdHttpClient.get url (web url))
            = some (.redirect status target) := by
          simp only [page, pageResult]
        generalize hsent : web url = sent at hentry
        cases classified_iff.mp hentry with
        | redirect redirection header read resolve =>
            exact .redirect ih allowed hsent redirection header read resolve same
  · intro h
    induction h with
    | seed => exact .seed
    | @link url link _ _ _ _ _ info _ allowed answer success header read type html page parses
        mem ih =>
        refine SiteReach.link ih allowed ?_ parses mem
        simp [answer, ProdHttpClient.get, bind, Except.bind, pure, Except.pure, success, header,
          okOrElse, read, type, html, page]
    | @redirect url target response _ _ _ allowed answer redirection header read resolve same ih =>
        have hget : ProdHttpClient.get url (web url)
            = .ok (.redirect ⟨response.status.asU16⟩ target) := ?_
        · exact SiteReach.redirect ih allowed hget same
        have hsuccess := StatusCode.not_success_of_redirection redirection
        simp [answer, ProdHttpClient.get, bind, Except.bind, pure, Except.pure, hsuccess,
          redirection, header, okOrElse, read, resolve]

/-! ### Calls over the web -/

/-- A call is answered by the client of production from what servers answer.  That
client does not panic, so that only the robots matcher can end the call before it
has registered its crawl. -/
structure OverWeb (web : Url → Except Error Response) (i : CallId) (seed : Url)
    (es : List (ServerEvent Url)) : Prop where
  robots : ∀ answer, .call i (.robots answer) ∈ es → ∀ robotsUrl,
    join seed "/robots.txt" = .ok robotsUrl → answer = ProdHttpClient.getRobots (web robotsUrl)
  got : ∀ url response, .call i (.inner (.got url response)) ∈ es →
    response = ProdHttpClient.get url (web url)
  abort : ∀ robots, .call i (.abort robots) ∈ es → robots ≠ none ∧ ∀ robotsUrl,
    join seed "/robots.txt" = .ok robotsUrl → ProdHttpClient.getRobots (web robotsUrl) = .ok robots

omit [HttpLibs] in
/-- A call that has not failed at once has resolved the url of its robots.txt. -/
lemma ServerRun.joined {es : List (ServerEvent Url)} {s : ProdCrawler Url} (h : ServerRun es s)
    {i : CallId} {call : Call Url} (hi : s.calls i = some call) :
    (∃ robotsUrl, join call.seed "/robots.txt" = .ok robotsUrl) ∨
      ∃ e, call = .returned call.seed none (.error e) := by
  refine h.call_induction (P := fun _ call => (∃ robotsUrl, join call.seed "/robots.txt"
    = .ok robotsUrl) ∨ ∃ e, call = .returned call.seed none (.error e)) ?_ ?_ hi
  · intro seed
    rw [Call.begin]
    split
    · next e he => exact Or.inr ⟨e, rfl⟩
    · next robotsUrl hjoin => exact Or.inl ⟨robotsUrl, hjoin⟩
  · rintro es s call event call' crawls - - ih hstep
    have ht := Call.trans_of_step hstep
    obtain hjoined | ⟨e, hfailed⟩ := ih
    · rw [ht.seed_eq]
      exact Or.inl hjoined
    · rw [hfailed] at ht
      generalize s.crawls = crawls₀ at ht
      cases ht with
      | poisoned stage => obtain ⟨hcall, -⟩ | ⟨hcall, -⟩ := stage <;> cases hcall

/-- **The result of a crawl over the web**: a call that returns a result was
given a robots.txt, or there was none; the pages of the result are those that
the servers' own pages and redirects lead to; and the entry of each is that of
an exclusion, or the one that what its server answered leads to. -/
theorem web_crawl_eq {es : List (ServerEvent Url)} {s : ProdCrawler Url} (h : ServerRun es s)
    {i : CallId} {crawl : Option (Mutex (Crawl Url))} {result : CrawlResult Url}
    (hcall : s.calls i = some (.returned seed crawl (.ok result)))
    (hweb : OverWeb web i seed es) :
    ∃ robotsUrl robots, join seed "/robots.txt" = .ok robotsUrl ∧
      RobotsGiven (web robotsUrl) robots ∧
      (∀ url, url ∈ result.pages ↔ WebReach web robots seed url) ∧
      ∀ url page, result.pages.lookup url = some page ↔ WebReach web robots seed url ∧
        (robotsAllow robots url = false ∧ page = .excludedByRobotsTxt ∨
          robotsAllow robots url = true ∧ Classified url (web url) page) := by
  obtain ⟨robotsUrl, hjoin⟩ : ∃ robotsUrl, join seed "/robots.txt" = .ok robotsUrl := by
    obtain hjoined | ⟨e, hfailed⟩ := h.joined hcall
    · exact hjoined
    · cases hfailed
  obtain ⟨inner, ⟨robots, hrobots, hrun⟩, hok, -, rfl⟩ := (h.follows i).2 _ hcall
  -- the one robots.txt of the call is that of its server
  have hgiven : ProdHttpClient.getRobots (web robotsUrl) = .ok robots :=
    (hweb.robots _ (mem_ownEvents.mp (mem_of_robots hrobots)) _ hjoin).symm
  obtain ⟨hpages, hentries⟩ := hrun.reaches hok (innerEvents_got hweb.got)
  have hreach : ∀ url, url ∈ inner.crawl.data.result.pages ↔ WebReach web robots seed url :=
    fun url => (hpages url).trans siteReach_iff_webReach
  refine ⟨robotsUrl, robots, hjoin, robotsGiven_iff.mp hgiven, hreach, fun url page => ?_⟩
  have hlookup : WebReach web robots seed url → inner.crawl.data.result.pages.lookup url = _ :=
    fun hurl => hentries url (siteReach_iff_webReach.mpr hurl)
  rw [← classified_iff]
  constructor
  · intro hpage
    have hurl := (hreach url).mp (Finmap.mem_of_lookup_eq_some hpage)
    refine ⟨hurl, ?_⟩
    rw [hlookup hurl] at hpage
    split at hpage
    · next hallowed => exact Or.inr ⟨hallowed, hpage⟩
    · next hexcl => exact Or.inl ⟨eq_false_of_ne_true hexcl, (Option.some.inj hpage).symm⟩
  · rintro ⟨hurl, ⟨hexcl, rfl⟩ | ⟨hallowed, hpage⟩⟩
    · rw [hlookup hurl, hexcl]
      rfl
    · rw [hlookup hurl, if_pos hallowed, hpage]

end

/-- The crawler that crawls a site once does so over its server. -/
lemma PlainUrl.serverEvents_web : OverWeb PlainUrl.web 0 (site "/") serverEvents where
  robots answer hmem robotsUrl hjoin := by
    cases hjoin
    have hmem' : .robots answer ∈ ownEvents 0 serverEvents := mem_ownEvents.mpr hmem
    have hown : ownEvents 0 serverEvents = callEvents := rfl
    rw [hown] at hmem'
    simp [callEvents] at hmem'
    rw [hmem']
    rfl
  got url response hmem := events_web (mem_innerEvents.mpr hmem)
  abort robots hmem := by simp [serverEvents, callEvents] at hmem

/-- The result of a crawl of a site over its server. -/
theorem web_crawl_eq_events :
    ∃ s crawl result, ServerRun PlainUrl.serverEvents s ∧
      s.calls 0 = some (.returned (PlainUrl.site "/") crawl (.ok result)) ∧
      WebReach PlainUrl.web (some PlainUrl.robotsTxt) (PlainUrl.site "/")
        (PlainUrl.site "/private") := by
  obtain ⟨s, crawl, result, hrun, hcall, hmem⟩ : ∃ s crawl result,
      ServerRun PlainUrl.serverEvents s ∧
        s.calls 0 = some (.returned (PlainUrl.site "/") crawl (.ok result)) ∧
        PlainUrl.site "/private" ∈ result.pages := ⟨_, _, _, rfl, rfl, by decide⟩
  obtain ⟨robotsUrl, robots, hjoin, hgiven, hpages, -⟩ :=
    web_crawl_eq hrun hcall PlainUrl.serverEvents_web
  cases hjoin
  have hrobots : ProdHttpClient.getRobots (PlainUrl.web (PlainUrl.site "/robots.txt"))
      = .ok (some PlainUrl.robotsTxt) := rfl
  cases hrobots.symm.trans (robotsGiven_iff.mpr hgiven)
  exact ⟨s, crawl, result, hrun, hcall, (hpages _).mp hmem⟩

/-! ### A robots.txt that cannot be had -/

/-- A call whose robots.txt is refused waits for it, or has returned the error. -/
lemma ServerRun.refused {es : List (ServerEvent Url)} {s : ProdCrawler Url} (h : ServerRun es s)
    {i : CallId} {call : Call Url} (hi : s.calls i = some call) {robotsUrl : Url} {e : Error}
    (hjoin : join call.seed "/robots.txt" = .ok robotsUrl)
    (hanswer : ∀ answer, .call i (.robots answer) ∈ es → answer = .error e)
    (habort : ∀ robots, .call i (.abort robots) ∉ es) :
    call = .fetchingRobots call.seed robotsUrl ∨ call = .returned call.seed none (.error e) := by
  have hown : ∀ answer, .robots answer ∈ ownEvents i es → answer = .error e :=
    fun answer hmem => hanswer answer (mem_ownEvents.mp hmem)
  have hkept : ∀ robots, .abort robots ∉ ownEvents i es :=
    fun robots hmem => habort robots (mem_ownEvents.mp hmem)
  refine h.call_induction (P := fun es call => (∀ answer, .robots answer ∈ es →
    answer = .error e) → (∀ robots, .abort robots ∉ es) →
      join call.seed "/robots.txt" = .ok robotsUrl →
      call = .fetchingRobots call.seed robotsUrl ∨
        call = .returned call.seed none (.error e)) ?_ ?_ hi hown hkept hjoin
  · intro seed _ _ hjoin
    rw [Call.begin_seed] at hjoin
    simp only [Call.begin, hjoin]
    exact Or.inl rfl
  · rintro es s call event call' crawls - - ih hstep hanswer habort hjoin
    have ht := Call.trans_of_step hstep
    have hbefore := fun answer hmem => hanswer answer (List.mem_append_left _ hmem)
    have hbefore' := fun robots hmem => habort robots (List.mem_append_left _ hmem)
    rw [ht.seed_eq] at hjoin ⊢
    rcases ih hbefore hbefore' hjoin with hstage | hstage
    · rw [hstage] at ht
      generalize s.crawls = crawls₀ at ht
      cases ht with
      | robotsFailed =>
          have hrefused := hanswer _ (List.mem_append_right _ (List.mem_singleton_self _))
          cases hrefused
          exact Or.inr rfl
      | make =>
          have hrefused := hanswer _ (List.mem_append_right _ (List.mem_singleton_self _))
          cases hrefused
      | abort => exact absurd (List.mem_append_right _ (List.mem_singleton_self _)) (habort _)
      | poisoned stage => obtain ⟨hcall, -⟩ | ⟨hcall, -⟩ := stage <;> cases hcall
    · rw [hstage] at ht
      generalize s.crawls = crawls₀ at ht
      cases ht with
      | poisoned stage => obtain ⟨hcall, -⟩ | ⟨hcall, -⟩ := stage <;> cases hcall

/-- An event of the loop of a call is one of a call that has made its crawl. -/
lemma ProdCrawler.crawl_of_inner {s s' : ProdCrawler Url} {i : CallId} {event : Event Url}
    (h : s.step (.call i (.inner event)) = some s') :
    ∃ lock call, s'.calls i = some call ∧ call.crawl? = some lock := by
  obtain ⟨_, _, heq, -⟩ | ⟨j, event', old, new, crawls, heq, hj, hcall, rfl⟩ | ⟨heq, -⟩ :=
    step_cases h
  · cases heq
  · cases heq
    cases Call.trans_of_step hcall with
    | inner => exact ⟨_, _, Function.update_self i _ _, rfl⟩
    | poisoned stage => obtain ⟨-, heq⟩ | ⟨-, heq⟩ := stage <;> cases heq
  · cases heq

/-- **A robots.txt that cannot be had stops a call.**  If the server of a call's
robots.txt cannot be reached, or answers with a status that is neither a success
nor 404, or with a text that cannot be read, then in every run the call waits
for it or has returned that error; nothing of it is in the registry, and its
loop, and so the client, was never asked for anything. -/
theorem robots_failure_stops [HttpLibs] {web : Url → Except Error Response}
    {es : List (ServerEvent Url)} {s : ProdCrawler Url} (h : ServerRun es s) {i : CallId}
    {call : Call Url} (hi : s.calls i = some call) (hweb : OverWeb web i call.seed es)
    {robotsUrl : Url} {e : Error} (hjoin : join call.seed "/robots.txt" = .ok robotsUrl)
    (hrefused : RobotsRefused (web robotsUrl) e) :
    (call = .fetchingRobots call.seed robotsUrl ∨ call = .returned call.seed none (.error e)) ∧
    innerEvents i es = [] ∧ ∀ seed, s.crawls.data.lookup seed ≠ some i := by
  have herror : ProdHttpClient.getRobots (web robotsUrl) = .error e :=
    robotsRefused_iff.mpr hrefused
  have hstage := h.refused hi hjoin
    (fun answer hmem => (hweb.robots answer hmem robotsUrl hjoin).trans herror)
    fun robots hmem => by cases herror.symm.trans ((hweb.abort robots hmem).2 robotsUrl hjoin)
  have hevents : innerEvents i es = [] := by
    rw [List.eq_nil_iff_forall_not_mem]
    intro event hmem
    -- an event of the loop is one of a call that has made its crawl, which it keeps
    obtain ⟨es₁, es₂, rfl⟩ := List.append_of_mem (mem_innerEvents.mp hmem)
    obtain ⟨u, hu, hrest⟩ := exec_split h
    obtain ⟨u', hstep, hrest'⟩ := exec_cons_eq_some.mp hrest
    obtain ⟨lock, new, hnew, hlock⟩ := ProdCrawler.crawl_of_inner hstep
    obtain ⟨call', lock', hi', hlock', -⟩ :=
      ServerRun.grows (exec_concat_eq_some.mpr ⟨u, hu, hstep⟩) hrest' hnew hlock
    cases hi.symm.trans hi'
    rcases hstage with hcall | hcall
    · rw [hcall] at hlock'
      cases hlock'
    · rw [hcall] at hlock'
      cases hlock'
  refine ⟨hstage, hevents, fun seed hslot => ?_⟩
  obtain ⟨holder, hholder, hholds⟩ := h.holds_of_slot hslot
  cases hi.symm.trans hholder
  rcases hstage with hcall | hcall
  · rw [hcall] at hholds
    rcases hholds with ⟨_, hreg⟩ | ⟨_, hreg⟩ <;> cases hreg
  · rw [hcall] at hholds
    rcases hholds with ⟨_, hreg⟩ | ⟨_, hreg⟩ <;> cases hreg

/-- A call whose server is overloaded has returned the error of its robots.txt. -/
theorem robots_failure_stops_overloaded :
    ∃ s call, ServerRun [ServerEvent.crawl 0 (PlainUrl.site "/"), .call 0 (.robots
        (.error ⟨"Got status 503 Service Unavailable for robots.txt"⟩))] s ∧
      s.calls 0 = some call ∧ (call = .fetchingRobots call.seed (PlainUrl.site "/robots.txt") ∨
        call = .returned call.seed none
          (.error ⟨"Got status 503 Service Unavailable for robots.txt"⟩)) := by
  obtain ⟨s, call, hrun, hcall, hseed⟩ : ∃ s call, ServerRun
      [ServerEvent.crawl 0 (PlainUrl.site "/"), .call 0 (.robots
        (.error ⟨"Got status 503 Service Unavailable for robots.txt"⟩))] s ∧
      s.calls 0 = some call ∧ call.seed = PlainUrl.site "/" := ⟨_, _, rfl, rfl, rfl⟩
  have hweb : OverWeb (fun _ => .ok { status := ⟨503⟩, headers := [], text := .ok "" }) 0 call.seed
      [ServerEvent.crawl 0 (PlainUrl.site "/"), .call 0 (.robots
        (.error ⟨"Got status 503 Service Unavailable for robots.txt"⟩))] := by
    refine ⟨fun answer hmem robotsUrl _ => ?_, fun url response hmem => ?_,
      fun robots hmem => ?_⟩
    · simp at hmem
      rw [hmem]
      rfl
    · simp at hmem
    · simp at hmem
  have hjoin : join call.seed "/robots.txt" = .ok (PlainUrl.site "/robots.txt") := by
    rw [hseed]
    rfl
  exact ⟨s, call, hrun, hcall,
    (robots_failure_stops hrun hcall hweb hjoin (.status rfl (by decide))).1⟩

end MikesCrawler
