/-
A request whose seed its robots.txt excludes.

* `CrawlInner.Halted`, `Run.halted`: the crawl of an excluded seed records the
  exclusion, and then nothing happens to it;
* `Call.InLoop`, `Call.InLoop.step`, `ServerRun.inLoop`: so its call neither ends nor panics;
* `excluded_unanswered`: its request is never answered, whatever the server goes
  on to do, and `status` says of it that all is done.
-/
import MikesCrawler.Guarantees.Order
import MikesCrawler.Guarantees.Requests

open Machine

namespace MikesCrawler

variable {Url : Type} [DecidableEq Url] [Externals Url]
variable {robots : Option String} {seed : Url}

/-! ### The crawl of an excluded seed -/

/-- A crawl that waits, with the exclusion of its seed for all it has seen. -/
structure CrawlInner.Halted (s : CrawlInner Url) (seed : Url) : Prop where
  waiting : s.Waiting
  running : s.outcome = none
  seen : s.crawl.data.seen = {seed}
  keys : s.crawl.data.result.pages.keys = {seed}

/-- A crawl of an excluded seed begins halted. -/
lemma begin_halted (hexcl : robotsAllow robots seed = false) :
    (CrawlInner.begin robots seed).Halted seed := by
  have hcrawl :
      (CrawlInner.begin robots seed).crawl.data = ({ robots } : Crawl Url).exclude seed := by
    rw [begin_crawl]
    obtain ⟨hs, -⟩ | ⟨-, ha, -⟩ | ⟨-, -, heq⟩ := ({ robots } : Crawl Url).discover_cases seed
    · exact absurd hs (Finset.notMem_empty seed)
    · cases hexcl.symm.trans ha
    · exact heq
  refine ⟨⟨?_, rfl, rfl⟩, rfl, ?_, ?_⟩
  · rw [hcrawl]
    rfl
  · rw [hcrawl]
    rfl
  · rw [hcrawl, Crawl.exclude, Crawl.insertPage, keys_insert]
    rfl

/-- **The crawl of an excluded seed stays halted**, and fetches nothing. -/
theorem Run.halted {es : List (Event Url)} {s : CrawlInner Url} (h : Run robots seed es s)
    (hexcl : robotsAllow robots seed = false) : s.Halted seed ∧ fetched es = [] := by
  refine Run.induction (P := fun es s => s.Halted seed ∧ fetched es = []) ?_ ?_ h
  · exact ⟨begin_halted hexcl, rfl⟩
  · rintro es e s s' - - ⟨⟨⟨hqueue, hflight, hcompleted⟩, hrun, hseen, hkeys⟩, hfetched⟩ ht
    cases ht with
    | start _ queued =>
        rw [hqueue] at queued
        cases queued
    | suspend _ mem | settle _ _ _ mem | fail _ _ _ mem =>
        rw [hflight] at mem
        cases mem
    | resume _ consumed | stop _ consumed | abort _ consumed =>
        cases hcompleted.symm.trans consumed
    | poison =>
        rw [fetched_concat_of_none rfl]
        exact ⟨⟨⟨hqueue, hflight, hcompleted⟩, hrun, hseen, hkeys⟩, hfetched⟩

/-! ### Its call -/

/-- The loop of a call makes a run under the robots.txt that the call was given. -/
lemma Call.Loops.run_of_robots {es : List (CallEvent Url)}
    {inner : CrawlInner Url} (h : Loops es seed inner) (hrobots : .robots (.ok robots) ∈ es) :
    Run robots seed (es.filterMap CallEvent.inner?) inner := by
  obtain ⟨robots', hr, hrun⟩ := h
  have hmem : robots ∈ es.filterMap CallEvent.robots? := List.mem_filterMap.mpr ⟨_, hrobots, rfl⟩
  rw [hr, List.mem_singleton] at hmem
  rw [hmem]
  exact hrun

/-- A call has made its crawl, and its loop has not returned. -/
def Call.InLoop (call : Call Url) (seed : Url) (inner : CrawlInner Url) : Prop :=
  call = .made seed inner ∨ call = .registered seed inner

/-- A call in its loop panics in a step that is in flight. -/
lemma Call.InLoop.inFlight_of_panic {i : CallId} {call : Call Url} {crawls : Mutex (Registry Url)}
    {locked : Bool} {inner : CrawlInner Url} {moved : Call Url × Mutex (Registry Url)}
    (hloop : call.InLoop seed inner) (h : call.step i crawls (.panic locked) = some moved) :
    inner.inFlight ≠ [] := by
  rcases hloop with rfl | rfl
  · cases h
  · rw [step] at h
    split at h
    · next hc => exact hc.2.1
    · cases h

/-- A call whose crawl is halted stays in its loop. -/
lemma Call.InLoop.step {i : CallId} {call call' : Call Url} {crawls crawls' : Mutex (Registry Url)}
    {event : CallEvent Url} {inner : CrawlInner Url} (hloop : call.InLoop seed inner)
    (hstep : call.step i crawls event = some (call', crawls')) (hlock : crawls.poisoned = false)
    (hhalted : inner.Halted seed) : ∃ inner', call'.InLoop seed inner' := by
  have hpanic : ∀ locked, event ≠ .panic locked := by
    rintro locked rfl
    exact hloop.inFlight_of_panic hstep hhalted.waiting.2.1
  have ht := Call.trans_of_step hstep
  rcases hloop with rfl | rfl
  · cases ht with
    | register => exact ⟨inner, Or.inr rfl⟩
    | poisoned _ hpoisoned => cases hlock.symm.trans hpoisoned
  · cases ht with
    | @inner _ _ inner' => exact ⟨inner', Or.inr rfl⟩
    | panic => exact absurd rfl (hpanic _)
    | remove ended => exact absurd hhalted.running ended
    | poisoned _ hpoisoned => cases hlock.symm.trans hpoisoned

/-- The crawl of a call in its loop is halted, if its robots.txt excludes its seed. -/
lemma Call.InLoop.halted {es : List (CallEvent Url)} {call : Call Url} {inner : CrawlInner Url}
    (hloop : call.InLoop seed inner) (h : call.Follows es) (hrobots : .robots (.ok robots) ∈ es)
    (hexcl : robotsAllow robots seed = false) :
    inner.Halted seed ∧ fetched (es.filterMap CallEvent.inner?) = [] := by
  rcases hloop with rfl | rfl
  · exact (Call.Loops.run_of_robots h hrobots).halted hexcl
  · exact (Call.Loops.run_of_robots h hrobots).halted hexcl

omit [DecidableEq Url] [Externals Url] in
/-- What `status` makes of a slot of a call whose crawl is halted. -/
lemma Call.InLoop.slotStatus {s : ProdCrawler Url} {call : Call Url} {inner : CrawlInner Url}
    (hloop : call.InLoop seed inner) (hhalted : inner.Halted seed) {slot : (_ : Url) × CallId}
    (hi : s.calls slot.2 = some call) {status : CrawlStatus Url}
    (h : s.slotStatus slot = .ok status) : status.done = 1 ∧ status.todo = 0 := by
  have hcrawl : call.crawl? = some inner.crawl := by
    rcases hloop with rfl | rfl <;> rfl
  rw [ProdCrawler.slotStatus, hi, Option.bind_some, hcrawl] at h
  simp only [lockMapErr] at h
  split at h
  · next hlocked => cases h
  · next hlocked =>
      split at hlocked
      · cases hlocked
      · cases hlocked
        rw [Crawl.status, hhalted.seen, hhalted.keys] at h
        cases h
        exact ⟨rfl, rfl⟩

/-- **The call of an excluded seed stays in its loop**, whatever happens. -/
theorem ServerRun.inLoop {es : List (ServerEvent Url)} {s : ProdCrawler Url} (h : ServerRun es s)
    {i : CallId} {call : Call Url} (hi : s.calls i = some call)
    (hrobots : .robots (.ok robots) ∈ ownEvents i es)
    (hexcl : robotsAllow robots call.seed = false) : ∃ inner, call.InLoop call.seed inner := by
  refine h.call_induction (P := fun es call => .robots (.ok robots) ∈ es →
    robotsAllow robots call.seed = false → ∃ inner, call.InLoop call.seed inner)
    ?_ ?_ hi hrobots hexcl
  · intro seed hrobots
    cases hrobots
  · intro es s call event call' crawls hs hi ih hstep hrobots hexcl
    have ht := Call.trans_of_step hstep
    rw [ht.seed_eq] at hexcl ⊢
    rcases List.mem_append.mp hrobots with hbefore | hnew
    · obtain ⟨inner, hloop⟩ := ih hbefore hexcl
      exact hloop.step hstep hs.unpoisoned
        (hloop.halted ((hs.follows i).2 call hi) hbefore hexcl).1
    · cases List.mem_singleton.mp hnew
      generalize s.crawls = crawls₀ at ht
      cases ht with
      | make => exact ⟨_, Or.inl rfl⟩
      | poisoned stage => obtain ⟨-, heq⟩ | ⟨-, heq⟩ := stage <;> cases heq

/-! ### Its request -/

variable [ParseUrl Url]

/-- **A request for an excluded seed is never answered.**  In every run of a
server in which the robots.txt that the call of a request was given excludes its
seed, whatever else happens, panics of others and a poisoned lock included: the
request waits, nothing was fetched for it, and what `status` makes of its slot, if
it is not an error, is that one page is done and none is to do. -/
theorem excluded_unanswered {es : List (WebEvent Url)} {s : Server Url} (h : ServedRun es s)
    {r : CallId} {endpoint : Endpoint} {param : String} (hreq : .seeded r endpoint param ∈ es)
    (hparam : parse param = .ok seed) (hrobots : .call r (.robots (.ok robots)) ∈ es)
    (hexcl : robotsAllow robots seed = false) :
    s.requests r = some (.waiting endpoint) ∧
    (∀ url, .call r (.inner (.start url)) ∉ es) ∧
    ∀ seed' status, s.crawler.slotStatus ⟨seed', r⟩ = .ok status →
      status.done = 1 ∧ status.todo = 0 := by
  have hmem := mem_ownEvents.mpr (mem_crawlerEvents.mpr hrobots)
  cases h.stage hreq with
  | bad bad => cases bad.symm.trans hparam
  | responded good called responds =>
      cases good.symm.trans hparam
      obtain ⟨inner, hloop⟩ := h.crawler.inLoop called hmem hexcl
      generalize Call.seed _ = seed at hloop
      cases responds with
      | result | error | panic | abort => rcases hloop with hcall | hcall <;> cases hcall
  | @waiting call good called waits =>
      cases good.symm.trans hparam
      obtain ⟨inner, hloop⟩ := h.crawler.inLoop called hmem hexcl
      obtain ⟨hhalted, hfetched⟩ := hloop.halted ((h.crawler.follows r).2 _ called) hmem hexcl
      refine ⟨waits, fun url hstart => ?_, fun seed' status => hloop.slotStatus hhalted called⟩
      have hstart' : Event.start url ∈ innerEvents r (crawlerEvents es) :=
        mem_innerEvents.mpr (mem_crawlerEvents.mpr hstart)
      rw [← mem_fetched, innerEvents, hfetched] at hstart'
      cases hstart'

/-- The request for the page that the example site excludes waits, and its slot
stands for a page done. -/
theorem excluded_unanswered_private :
    ∃ s : Server PlainUrl, ServedRun [.seeded 0 .crawl "https://example.com/private",
        .call 0 (.robots (.ok (some PlainUrl.robotsTxt))), .call 0 .register, .status 1] s ∧
      s.requests 0 = some (.waiting .crawl) ∧
      ∀ seed status, s.crawler.slotStatus ⟨seed, 0⟩ = .ok status →
        status.done = 1 ∧ status.todo = 0 := by
  obtain ⟨s, hrun⟩ : ∃ s : Server PlainUrl, ServedRun
      [.seeded 0 .crawl "https://example.com/private",
        .call 0 (.robots (.ok (some PlainUrl.robotsTxt))), .call 0 .register, .status 1] s :=
    ⟨_, rfl⟩
  have hparam : parse "https://example.com/private" = Except.ok (PlainUrl.site "/private") := rfl
  have hwaits := excluded_unanswered hrun List.mem_cons_self hparam
    (List.mem_cons_of_mem _ List.mem_cons_self) (by decide)
  exact ⟨s, hrun, hwaits.1, hwaits.2.2⟩

end MikesCrawler
