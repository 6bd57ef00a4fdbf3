/-
What the server answers, end to end.

* `ReadsBack`, `bodies_read_back`: the bodies of the handlers that crawl are well
  formed and read back as what the call returned;
* `SiteAnswer`, `service_answers_site`: they tell the site that can be reached;
* `service_completes`: a request that waits can always be brought to such an
  answer by its own events;
* `status_served`: what a request for the status is answered.
-/
import MikesCrawler.Guarantees.Driving
import MikesCrawler.Guarantees.Requests
import MikesCrawler.Guarantees.Status

open Machine Wire

namespace MikesCrawler

variable {Url : Type} [DecidableEq Url] [Externals Url] [ParseUrl Url]
variable {es : List (WebEvent Url)} {s t : Server Url} {r : CallId} {endpoint : Endpoint}
variable {param : String} {seed : Url}

/-! ### The bodies -/

/-- What a client of an endpoint reads of a result: all of it, or its pages,
each once, or their number. -/
inductive ReadsBack (result : CrawlResult Url) (value : Json) : Endpoint → Prop
  | crawl (read : CrawlResult.read value = some result) : ReadsBack result value .crawl
  | list {urls : List Url} (read : CrawlList.read value = some urls) (nodup : urls.Nodup)
      (pages : urls.toFinset = result.pages.keys) : ReadsBack result value .list
  | count (read : CrawlCount.read value = some result.pages.keys.card) :
      ReadsBack result value .count

/-- What an endpoint makes of a result is well formed and reads back. -/
lemma Endpoint.readsBack (endpoint : Endpoint) {result : CrawlResult Url} {order : Iteration Url}
    (horder : result.Iterates order) :
    ∃ value, endpoint.handle (.ok order) = .ok value ∧
      (result.Carried → value.WellFormed ∧ ReadsBack result value endpoint) := by
  cases endpoint with
  | crawl =>
      refine ⟨_, rfl, fun hcarried => ?_⟩
      obtain ⟨hwell, hread⟩ := CrawlResult.read_serialize horder hcarried
      exact ⟨hwell, .crawl hread⟩
  | list =>
      refine ⟨_, rfl, fun hcarried => ?_⟩
      have hkeys : (urlCodec : Codec Url).list.carries order.keys := by
        intro url hurl
        obtain ⟨page, hpage⟩ := Finmap.mem_iff.mp (horder.mem_keys.mp hurl)
        exact (hcarried url page hpage).1
      exact ⟨wellFormed_single (urlCodec.list.wellFormed hkeys),
        .list (urlCodec.list.read_write hkeys) order.keys_nodup horder.keys_toFinset⟩
  | count =>
      refine ⟨_, rfl, fun hcarried => ⟨wellFormed_single (.num _), .count ?_⟩⟩
      exact congrArg some horder.length

/-- The request behind a response with status 200. -/
lemma ServedRun.handled (h : ServedRun es s) (hreq : .seeded r endpoint param ∈ es)
    {reply : Reply} (hreply : s.requests r = some (.responded reply))
    (hok : reply.status = ⟨200⟩) :
    ∃ seed crawl result order, parse param = .ok seed ∧
      s.crawler.calls r = some (.returned seed crawl (.ok result)) ∧ result.Iterates order ∧
      reply = respondTo (endpoint.handle (.ok order)) := by
  cases h.stage hreq with
  | bad _ _ hreply' =>
      cases hreply.symm.trans hreply'
      cases hok
  | waiting _ _ waits => cases hreply.symm.trans waits
  | responded seed called responds hreply' =>
      cases hreply.symm.trans hreply'
      cases responds with
      | result iterates => exact ⟨_, _, _, _, seed, called, iterates, rfl⟩
      | error | panic | abort => cases hok

/-- **Bodies read back.**  The body of each response with status 200 to a
request to crawl is well-formed JSON, from which a client reads what the call
returned: all of its result, or its pages, each once, or their number; in
whatever order the map of the result was iterated. -/
theorem bodies_read_back (h : ServedRun es s) (hreq : .seeded r endpoint param ∈ es)
    {reply : Reply} (hreply : s.requests r = some (.responded reply))
    (hok : reply.status = ⟨200⟩) :
    ∃ seed crawl result value, s.crawler.calls r = some (.returned seed crawl (.ok result)) ∧
      reply.body = .json value ∧
      (result.Carried → value.WellFormed ∧ ReadsBack result value endpoint) := by
  obtain ⟨seed, crawl, result, order, -, hcall, horder, rfl⟩ := h.handled hreq hreply hok
  obtain ⟨value, hvalue, hread⟩ := endpoint.readsBack horder
  rw [hvalue]
  exact ⟨seed, crawl, result, value, hcall, rfl, hread⟩

/-- The urls of a site parse back. -/
lemma PlainUrl.carried {result : CrawlResult PlainUrl} (h : result.Iterates entries) :
    result.Carried := by
  have hall : ∀ entry ∈ entries.entries, ParsesBack entry.1 ∧ entry.2.Carried := by
    intro entry hmem
    have hentries : entries.entries = [⟨site "/private", .excludedByRobotsTxt⟩,
        ⟨site "/", .crawled { internalLinks := [site "/a"], externalLinks := [] }⟩,
        ⟨site "/a", .redirect ⟨302⟩ (site "/private")⟩] := rfl
    rw [hentries] at hmem
    rcases List.mem_cons.mp hmem with rfl | hmem
    · exact ⟨rfl, trivial⟩
    rcases List.mem_cons.mp hmem with rfl | hmem
    · refine ⟨rfl, fun url hurl => ?_, fun url hurl => by cases hurl⟩
      rw [List.mem_singleton.mp hurl]
      rfl
    · rw [List.mem_singleton.mp hmem]
      exact ⟨rfl, rfl⟩
  intro url page hpage
  rw [← h.lookup] at hpage
  exact hall ⟨url, page⟩ (AList.mem_lookup_iff.mp hpage)

/-- The list of the pages of a site. -/
theorem bodies_read_back_list :
    ∃ s reply value urls, ServedRun (PlainUrl.webEvents .list) s ∧
      s.requests 0 = some (.responded reply) ∧ reply.body = .json value ∧
      CrawlList.read value = some urls ∧ PlainUrl.site "/private" ∈ urls := by
  have hreq : WebEvent.seeded 0 .list "https://example.com/" ∈ PlainUrl.webEvents .list :=
    List.mem_append_left _ (List.mem_append_left _ List.mem_cons_self)
  obtain ⟨s, reply, hrun, hreply, hok, crawl, result, hcall, horder⟩ : ∃ s reply,
      ServedRun (PlainUrl.webEvents .list) s ∧ s.requests 0 = some (.responded reply) ∧
        reply.status = ⟨200⟩ ∧ ∃ crawl result, s.crawler.calls 0
          = some (.returned (PlainUrl.site "/") crawl (.ok result)) ∧
        result.Iterates PlainUrl.entries := ⟨_, _, rfl, rfl, rfl, _, _, rfl, by decide⟩
  obtain ⟨seed, crawl', result', value, hcall', hbody, hread⟩ :=
    bodies_read_back hrun hreq hreply hok
  cases hcall.symm.trans hcall'
  cases (hread (PlainUrl.carried horder)).2 with
  | @list urls read nodup pages =>
      refine ⟨s, reply, value, urls, hrun, hreply, hbody, read, ?_⟩
      rw [← List.mem_toFinset, pages, Finmap.mem_keys, ← horder.mem_keys]
      decide

/-! ### The site that a response tells -/

/-- What an endpoint may answer for a site: for each of its pages the entry that
its own answer determines, or that of an exclusion; its pages, each once; or
their number. -/
inductive SiteAnswer (get : Url → Except Error (HttpResponse Url)) (robots : Option String)
    (seed : Url) : Endpoint → Json → Prop
  | crawl {order : Iteration Url} (pages : ∀ url, url ∈ order ↔ SiteReach get robots seed url)
      (entries : ∀ url ∈ order, order.lookup url =
        if robotsAllow robots url then pageResult url (get url) else some .excludedByRobotsTxt) :
      SiteAnswer get robots seed .crawl (CrawlResult.serialize order)
  | list {urls : List Url} (nodup : urls.Nodup)
      (pages : ∀ url, url ∈ urls ↔ SiteReach get robots seed url) :
      SiteAnswer get robots seed .list (CrawlList.serialize urls)
  | count : SiteAnswer get robots seed .count
      (CrawlCount.serialize (siteUrls get robots seed).ncard)

variable {get : Url → Except Error (HttpResponse Url)} {robots : Option String}

omit [ParseUrl Url] in
/-- What an endpoint makes of the result for a site. -/
lemma Endpoint.siteAnswer (endpoint : Endpoint) {result : CrawlResult Url} {order : Iteration Url}
    (horder : result.Iterates order)
    (hpages : ∀ url, url ∈ result.pages ↔ SiteReach get robots seed url)
    (hentries : ∀ url, SiteReach get robots seed url → result.pages.lookup url =
      if robotsAllow robots url then pageResult url (get url) else some .excludedByRobotsTxt) :
    ∃ value, endpoint.handle (.ok order) = .ok value ∧
      SiteAnswer get robots seed endpoint value := by
  have hkeys : ∀ url, url ∈ order.keys ↔ SiteReach get robots seed url :=
    fun url => horder.mem_keys.trans (hpages url)
  cases endpoint with
  | crawl =>
      refine ⟨_, rfl, .crawl (fun url => hkeys url) fun url hurl => ?_⟩
      rw [horder.lookup]
      exact hentries url ((hkeys url).mp hurl)
  | list => exact ⟨_, rfl, .list order.keys_nodup hkeys⟩
  | count =>
      have hsite : siteUrls get robots seed = (result.pages.keys : Set Url) := by
        ext url
        exact (hpages url).symm.trans Finmap.mem_keys.symm
      have hcard : (siteUrls get robots seed).ncard = order.entries.length := by
        rw [hsite, Set.ncard_coe_finset, horder.length]
      refine ⟨_, rfl, ?_⟩
      rw [← hcard]
      exact .count

/-- **The server tells the site.**  Whatever the other requests do, a response
with status 200 to a request to crawl is the JSON that its endpoint may answer
for the site that can be reached from its seed, under the robots.txt and with
the answers of the client that its call was given. -/
theorem service_answers_site (h : ServedRun es s) (hreq : .seeded r endpoint param ∈ es)
    {reply : Reply} (hreply : s.requests r = some (.responded reply))
    (hok : reply.status = ⟨200⟩) (hrobots : .call r (.robots (.ok robots)) ∈ es)
    (hget : ∀ url response, .call r (.inner (.got url response)) ∈ es → response = get url) :
    ∃ seed value, parse param = .ok seed ∧ reply = ⟨⟨200⟩, .json value⟩ ∧
      SiteAnswer get robots seed endpoint value := by
  obtain ⟨seed, crawl, result, order, hseed, hcall, horder, rfl⟩ := h.handled hreq hreply hok
  obtain ⟨inner, hrun, houtcome, -, rfl⟩ :=
    h.crawler.returned hcall (mem_crawlerEvents.mpr hrobots)
  have hgot : ∀ url response, .got url response ∈ innerEvents r (crawlerEvents es) →
      response = get url := innerEvents_got fun url response hmem =>
    hget url response (mem_crawlerEvents.mp hmem)
  obtain ⟨hpages, hentries⟩ := hrun.reaches houtcome hgot
  obtain ⟨value, hvalue, hanswer⟩ := endpoint.siteAnswer horder hpages hentries
  rw [hvalue]
  exact ⟨seed, value, hseed, rfl, hanswer⟩

/-- The number of the pages of a site. -/
theorem service_answers_site_count :
    ∃ s value, ServedRun (PlainUrl.webEvents .count) s ∧
      s.requests 0 = some (.responded ⟨⟨200⟩, .json value⟩) ∧
      SiteAnswer PlainUrl.get (some PlainUrl.robotsTxt) (PlainUrl.site "/") .count value := by
  have hreq : WebEvent.seeded 0 .count "https://example.com/" ∈ PlainUrl.webEvents .count :=
    List.mem_append_left _ (List.mem_append_left _ List.mem_cons_self)
  obtain ⟨s, reply, hrun, hreply, hok⟩ : ∃ s reply, ServedRun (PlainUrl.webEvents .count) s ∧
      s.requests 0 = some (.responded reply) ∧ reply.status = ⟨200⟩ := ⟨_, _, rfl, rfl, rfl⟩
  have hrobots : WebEvent.call 0 (.robots (.ok (some PlainUrl.robotsTxt)))
      ∈ PlainUrl.webEvents .count := by
    simp [PlainUrl.webEvents, PlainUrl.callEvents]
  have hget : ∀ url response, WebEvent.call 0 (.inner (.got url response))
      ∈ PlainUrl.webEvents .count → response = PlainUrl.get url := by
    intro url response hmem
    simp [PlainUrl.webEvents, PlainUrl.callEvents] at hmem
    exact PlainUrl.events_got hmem
  obtain ⟨seed, value, hseed, rfl, hanswer⟩ :=
    service_answers_site hrun hreq hreply hok hrobots hget
  cases hseed
  exact ⟨s, value, hrun, hreply, hanswer⟩

/-! ### Requests that wait -/

/-- The events of the call of a request move it as they move the call. -/
lemma exec_call {gs : List (CallEvent Url)} {crawler : ProdCrawler Url}
    (h : exec ProdCrawler.step s.crawler (gs.map (.call r)) = some crawler) :
    exec Server.step s (gs.map (.call r)) = some { s with crawler } := by
  induction gs generalizing s with
  | nil =>
      cases h
      rfl
  | cons event gs ih =>
      obtain ⟨next, hnext, hrest⟩ := exec_cons_eq_some.mp h
      have hstep := Server.step_of_trans (.call hnext)
      exact exec_cons_eq_some.mpr ⟨_, hstep, @ih { s with crawler := next } hrest⟩

/-- **A request can always be answered.**  In every state of a server, whatever
the other requests have done, panics of their handlers included, a request that
waits for a call that has not ended has events of its own that take it to its
response with the site: with an allowed seed, a finite site whose pages parse, and
an environment that answers its call by functions of the url. -/
theorem service_completes (h : ServedRun es s) (hwaits : s.requests r = some (.waiting endpoint))
    {call : Call Url} (hi : s.crawler.calls r = some call) (hgoing : ¬ call.Ended)
    {tasks : Url → Except Error Unit} (hanswers : AnswersTo get tasks robots r (crawlerEvents es))
    (hseed : robotsAllow robots call.seed = true)
    (hfin : (siteUrls get robots call.seed).Finite)
    (hpages : PagesParse get tasks robots call.seed) :
    ∃ gs t value, (∀ e ∈ gs, e.of r = true) ∧ ServedRun (es ++ gs) t ∧
      t.requests r = some (.responded ⟨⟨200⟩, .json value⟩) ∧
      SiteAnswer get robots call.seed endpoint value := by
  obtain ⟨gs, crawler, crawl, result, hgs, hcrawler, hcall⟩ :=
    finishes_of_going h.crawler hanswers hi hgoing hseed hfin hpages
  have hrun : ServerRun (crawlerEvents es ++ gs.map (.call r)) crawler :=
    exec_join h.crawler hcrawler
  obtain ⟨hreached, hentries⟩ := hrun.result_of_answers (hanswers.append hgs) hcall
  obtain ⟨order, horder⟩ := result.exists_iterates
  obtain ⟨value, hvalue, hanswer⟩ := endpoint.siteAnswer horder hreached hentries
  obtain ⟨t, hrespond, hreply⟩ : ∃ t, Server.step { s with crawler } (.respond r order) = some t ∧
      t.requests r = some (.responded ⟨⟨200⟩, .json value⟩) := by
    have hresponds : Responds endpoint order (.returned call.seed crawl (.ok result))
        (respondTo (endpoint.handle (.ok order))) := .result horder
    rw [hvalue] at hresponds
    exact ⟨_, Server.step_of_trans (.respond hwaits hcall hresponds),
      Server.update_requests_self _⟩
  have hserved : ServedRun (es ++ (gs.map (.call r) ++ [.respond r order])) t :=
    exec_join h (exec_concat_eq_some.mpr ⟨_, exec_call hcrawler, hrespond⟩)
  refine ⟨_, t, value, fun e hmem => ?_, hserved, hreply, hanswer⟩
  rcases List.mem_append.mp hmem with hmem | hmem
  · obtain ⟨event, -, rfl⟩ := List.mem_map.mp hmem
    exact decide_eq_true rfl
  · rw [List.mem_singleton.mp hmem]
    exact decide_eq_true rfl

/-- A request that was just received comes to its response. -/
theorem service_completes_received :
    ∃ (s t : Server PlainUrl) (gs : List (WebEvent PlainUrl)) (value : Json),
      ServedRun [.seeded 0 .list "https://example.com/"] s ∧
      ServedRun ([.seeded 0 .list "https://example.com/"] ++ gs) t ∧
      t.requests 0 = some (.responded ⟨⟨200⟩, .json value⟩) ∧
      SiteAnswer PlainUrl.get (some PlainUrl.robotsTxt) (PlainUrl.site "/") .list value := by
  obtain ⟨s, hrun, hwaits, hi⟩ : ∃ s : Server PlainUrl,
      ServedRun [.seeded 0 .list "https://example.com/"] s ∧
        s.requests 0 = some (.waiting .list) ∧ s.crawler.calls 0
          = some (.fetchingRobots (PlainUrl.site "/") (PlainUrl.site "/robots.txt")) :=
    ⟨_, rfl, rfl, rfl⟩
  have hanswers : AnswersTo PlainUrl.get (fun _ => .ok ()) (some PlainUrl.robotsTxt) 0
      (crawlerEvents [.seeded 0 .list "https://example.com/"]) := by
    intro event hmem
    cases hmem
  obtain ⟨gs, t, value, -, ht, hreply, hanswer⟩ := service_completes hrun hwaits hi
    (fun hended => hended) hanswers rfl (PlainUrl.siteReach_finite (by decide))
    (PlainUrl.pagesParse _ _)
  exact ⟨s, t, gs, value, hrun, ht, hreply, hanswer⟩

/-! ### Requests for the status -/

/-- An item of the status is the progress of a request that its handler has not
answered: it waits for its call, or Rocket has answered for its panic. -/
def Listed (es : List (WebEvent Url)) (s : Server Url) (status : CrawlStatus Url) : Prop :=
  ∃ r endpoint param call lock, .seeded r endpoint param ∈ es ∧ parse param = .ok status.seed ∧
    s.crawler.calls r = some call ∧ call.crawl? = some lock ∧
    status = lock.counts status.seed ∧ status.done + status.todo = lock.data.seen.card ∧
    (s.requests r = some (.waiting endpoint) ∨ s.requests r = some (.responded caught))

/-- A request whose call holds a slot has not been answered by its handler. -/
lemma ServedRun.unanswered (h : ServedRun es s) {call : Call Url}
    (hi : s.crawler.calls r = some call) (hholds : call.Holds seed) :
    ∃ endpoint param, .seeded r endpoint param ∈ es ∧ parse param = .ok seed ∧
      (s.requests r = some (.waiting endpoint) ∨ s.requests r = some (.responded caught)) := by
  obtain ⟨endpoint, param, hreq, hseed⟩ := h.seeded_of_call hi
  rw [hholds.seed_eq] at hseed
  refine ⟨endpoint, param, hreq, hseed, ?_⟩
  cases h.stage hreq with
  | bad _ uncalled => cases uncalled.symm.trans hi
  | waiting _ _ waits => exact Or.inl waits
  | responded _ called responds reply =>
      cases called.symm.trans hi
      cases responds with
      | result | error | abort => obtain ⟨_, hreg⟩ | ⟨_, hreg⟩ := hholds <;> cases hreg
      | panic => exact Or.inr reply

/-- **What a request for the status is answered**, in every state of a server:
status 500 with the text of a poisoned lock if a crawl in the registry is
poisoned, and else status 200 with JSON that reads back as at most one item for
each seed, each of which is the progress of a request that its handler has not
answered.  Its handler never panics, and leaves the crawler as it is. -/
theorem status_served (h : ServedRun es s) (hstep : s.step (.status r) = some t) :
    t.crawler = s.crawler ∧
    ((s.crawler.Poisoned ∧ t.requests r = some (.responded
        ⟨⟨500⟩, .text "poisoned lock: another task failed inside"⟩)) ∨
      (¬ s.crawler.Poisoned ∧ ∃ crawls, t.requests r
          = some (.responded ⟨⟨200⟩, .json (CrawlerStatus.serialize crawls)⟩) ∧
        ((∀ status ∈ crawls, ParsesBack status.seed) →
          (CrawlerStatus.serialize crawls).WellFormed ∧
            CrawlerStatus.read (CrawlerStatus.serialize crawls) = some crawls) ∧
        (crawls.map CrawlStatus.seed).Nodup ∧ ∀ status ∈ crawls, Listed es s status)) := by
  cases Server.trans_of_step hstep with
  | status fresh =>
      refine ⟨rfl, ?_⟩
      rw [Server.update_requests_self]
      by_cases hp : s.crawler.Poisoned
      · rw [h.crawler.status_of_poisoned hp]
        exact Or.inl ⟨hp, rfl⟩
      · obtain ⟨crawls, hok, hall⟩ := h.crawler.status_of_not_poisoned hp
        refine Or.inr ⟨hp, crawls, by rw [hok]; rfl, CrawlerStatus.read_serialize, ?_,
          fun status hmem => ?_⟩
        · rw [h.crawler.seeds_eq_keys hok]
          exact s.crawler.crawls.data.keys_nodup
        · obtain ⟨slot, hslot, lock, hlock, heq, hadd⟩ := exists_of_forall₂ hall hmem
          obtain ⟨call, hi, hholds⟩ := h.crawler.holds_of_slot (AList.mem_lookup_iff.mpr hslot)
          obtain ⟨endpoint, param, hreq, hseed, hwaits⟩ := h.unanswered hi hholds
          have hlock' : call.crawl? = some lock := by
            rw [ProdCrawler.slotCrawl, hi] at hlock
            exact hlock
          have hsame : slot.1 = status.seed := by
            rw [heq]
            rfl
          rw [hsame] at heq hseed
          exact ⟨slot.2, endpoint, param, call, lock, hreq, hseed, hi, hlock', heq, hadd, hwaits⟩

/-- The status while a request waits for its crawl lists it. -/
theorem status_served_registered :
    ∃ (s t : Server PlainUrl) (crawls : List (CrawlStatus PlainUrl)),
      ServedRun ((PlainUrl.webEvents .list).take 4) s ∧ s.step (.status 2) = some t ∧
      t.requests 2 = some (.responded ⟨⟨200⟩, .json (CrawlerStatus.serialize crawls)⟩) ∧
      crawls ≠ [] ∧ ∀ status ∈ crawls, Listed ((PlainUrl.webEvents .list).take 4) s status := by
  obtain ⟨s, t, hrun, hstep, hreply⟩ : ∃ s t : Server PlainUrl,
      ServedRun ((PlainUrl.webEvents .list).take 4) s ∧ s.step (.status 2) = some t ∧
        t.requests 2 = some (.responded ⟨⟨200⟩, .json (CrawlerStatus.serialize
          [{ seed := PlainUrl.site "/", done := 0, todo := 1 }])⟩) := ⟨_, _, rfl, rfl, rfl⟩
  obtain ⟨-, ⟨-, hpoisoned⟩ | ⟨-, crawls, hreply', -, -, hlisted⟩⟩ := status_served hrun hstep
  · cases hreply.symm.trans hpoisoned
  · refine ⟨s, t, crawls, hrun, hstep, hreply', ?_, hlisted⟩
    rintro rfl
    cases hreply.symm.trans hreply'

end MikesCrawler
