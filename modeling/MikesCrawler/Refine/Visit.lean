/-
What one step does to a crawl, said once: a response is a visit, the urls to
note and the entry to record, and the critical section of `step` carries it
out.

* `Visit`, `visitOf`: the visit a response determines, by itself alone;
  `visitOf_found_cases`: the urls it finds are links or the target of a redirect;
* `Crawl.discover`, `Crawl.visit`: a visit carried out, without the errors that
  a living receiver rules out;
* `Crawl.addLink_eq`, `Crawl.addLinks_eq`: `add_link` under a living receiver;
* `stepGot_cases`, `stepParsed_cases`: the ends of `step` are a visit, or an
  error that leaves the crawl as it was.
-/
import MikesCrawler.Model.CrawlInner

namespace MikesCrawler

variable {Url : Type} [DecidableEq Url] [Externals Url]

/-- What a response makes `step` do: note some urls and record one entry. -/
structure Visit (Url : Type) where
  found : List Url
  entry : PageResult Url

/-- The visit a response determines, `none` for a page that does not parse. -/
def visitOf (url : Url) : Except Error (HttpResponse Url) → Option (Visit Url)
  | .ok (.html body) =>
      match parsePage url body with
      | .ok info => some ⟨info.internalLinks.map fun link => setFragment link none, .crawled info⟩
      | .error _ => none
  | .ok (.serverFailure status msg) => some ⟨[], .serverFailure status msg⟩
  | .ok (.redirect status target) =>
      some ⟨if domain target = domain url then [target] else [], .redirect status target⟩
  | .ok (.otherContent contentType) => some ⟨[], .otherContent contentType⟩
  | .error e => some ⟨[], .error e.msg⟩

omit [DecidableEq Url] in
/-- No page a step visits is recorded as excluded. -/
lemma visitOf_entry_ne {url : Url} {response : Except Error (HttpResponse Url)} {v : Visit Url}
    (h : visitOf url response = some v) : v.entry ≠ .excludedByRobotsTxt := by
  match response with
  | .ok (.html body) =>
      simp only [visitOf] at h
      split at h
      · cases h
        simp
      · cases h
  | .ok (.serverFailure status msg) | .ok (.redirect status target)
  | .ok (.otherContent contentType) | .error e =>
      cases h
      simp

omit [DecidableEq Url] in
/-- What a visit finds: the links of a page without their fragments, or the
target of a redirect within a domain. -/
lemma visitOf_found_cases {url found : Url} {response : Except Error (HttpResponse Url)}
    {v : Visit Url} (h : visitOf url response = some v) (hfound : found ∈ v.found) :
    (∃ body info link, response = .ok (.html body) ∧ parsePage url body = .ok info ∧
      link ∈ info.internalLinks ∧ found = setFragment link none) ∨
    ∃ status, response = .ok (.redirect status found) ∧ domain found = domain url := by
  match response with
  | .ok (.html body) =>
      simp only [visitOf] at h
      split at h
      · next info hinfo =>
          cases h
          obtain ⟨link, hlink, rfl⟩ := List.mem_map.mp hfound
          exact Or.inl ⟨body, info, link, rfl, hinfo, hlink, rfl⟩
      · cases h
  | .ok (.redirect status target) =>
      cases h
      by_cases hd : domain target = domain url
      · have heq : found = target := by simpa [hd] using hfound
        rw [heq]
        exact Or.inr ⟨status, rfl, hd⟩
      · simp [hd] at hfound
  | .ok (.serverFailure status msg) | .ok (.otherContent contentType) | .error e =>
      cases h
      simp at hfound

/-! ### The keys of a finite map -/

lemma keys_insert {α : Type} {β : Type} [DecidableEq α] (m : Finmap fun _ : α => β) (a : α)
    (b : β) : (m.insert a b).keys = insert a m.keys := by
  ext x
  rw [Finmap.mem_keys, Finmap.mem_insert, Finset.mem_insert, Finmap.mem_keys]

namespace Crawl

/-! ### Noting urls -/

/-- A new url is queued. -/
def enqueue (crawl : Crawl Url) (url : Url) : Crawl Url :=
  { crawl with
    seen := insert url crawl.seen
    todo := { crawl.todo with queue := crawl.todo.queue ++ [url] } }

/-- A new url is recorded as excluded. -/
def exclude (crawl : Crawl Url) (url : Url) : Crawl Url :=
  ({ crawl with seen := insert url crawl.seen } : Crawl Url).insertPage url .excludedByRobotsTxt

/-- `add_link` while the receiver lives. -/
def discover (crawl : Crawl Url) (url : Url) : Crawl Url :=
  if url ∈ crawl.seen then crawl
  else if crawl.allowedByRobots url then crawl.enqueue url else crawl.exclude url

/-- Note a list of urls in turn. -/
def discoverAll (crawl : Crawl Url) (urls : List Url) : Crawl Url := urls.foldl discover crawl

/-- A visit: note the urls found, then record the entry. -/
def visit (crawl : Crawl Url) (url : Url) (v : Visit Url) : Crawl Url :=
  (crawl.discoverAll v.found).insertPage url v.entry

lemma discoverAll_nil (crawl : Crawl Url) : crawl.discoverAll [] = crawl := rfl

lemma discoverAll_cons (crawl : Crawl Url) (url : Url) (urls : List Url) :
    crawl.discoverAll (url :: urls) = (crawl.discover url).discoverAll urls := rfl

/-- The three things that noting a url can do. -/
lemma discover_cases (crawl : Crawl Url) (url : Url) :
    (url ∈ crawl.seen ∧ crawl.discover url = crawl) ∨
    (url ∉ crawl.seen ∧ crawl.allowedByRobots url = true ∧
      crawl.discover url = crawl.enqueue url) ∨
    (url ∉ crawl.seen ∧ crawl.allowedByRobots url = false ∧
      crawl.discover url = crawl.exclude url) := by
  by_cases hs : url ∈ crawl.seen
  · have h : crawl.discover url = crawl := by simp [discover, hs]
    exact Or.inl ⟨hs, h⟩
  · cases ha : crawl.allowedByRobots url with
    | true =>
        have h : crawl.discover url = crawl.enqueue url := by simp [discover, hs, ha]
        exact Or.inr (Or.inl ⟨hs, rfl, h⟩)
    | false =>
        have h : crawl.discover url = crawl.exclude url := by simp [discover, hs, ha]
        exact Or.inr (Or.inr ⟨hs, rfl, h⟩)

@[simp] lemma discover_robots (crawl : Crawl Url) (url : Url) :
    (crawl.discover url).robots = crawl.robots := by
  obtain ⟨-, h⟩ | ⟨-, -, h⟩ | ⟨-, -, h⟩ := crawl.discover_cases url
  · rw [h]
  · simp [h, enqueue]
  · simp [h, exclude, insertPage]

@[simp] lemma discover_receiver (crawl : Crawl Url) (url : Url) :
    (crawl.discover url).todo.receiver = crawl.todo.receiver := by
  obtain ⟨-, h⟩ | ⟨-, -, h⟩ | ⟨-, -, h⟩ := crawl.discover_cases url
  · rw [h]
  · simp [h, enqueue]
  · simp [h, exclude, insertPage]

@[simp] lemma discoverAll_robots (crawl : Crawl Url) (urls : List Url) :
    (crawl.discoverAll urls).robots = crawl.robots := by
  induction urls generalizing crawl with
  | nil => rfl
  | cons url urls ih => rw [discoverAll_cons, ih, discover_robots]

@[simp] lemma discoverAll_receiver (crawl : Crawl Url) (urls : List Url) :
    (crawl.discoverAll urls).todo.receiver = crawl.todo.receiver := by
  induction urls generalizing crawl with
  | nil => rfl
  | cons url urls ih => rw [discoverAll_cons, ih, discover_receiver]

@[simp] lemma visit_robots (crawl : Crawl Url) (url : Url) (v : Visit Url) :
    (crawl.visit url v).robots = crawl.robots := by simp [visit, insertPage]

@[simp] lemma visit_receiver (crawl : Crawl Url) (url : Url) (v : Visit Url) :
    (crawl.visit url v).todo.receiver = crawl.todo.receiver := by simp [visit, insertPage]

/-- While the receiver lives, `add_link` does not fail. -/
lemma addLink_eq {crawl : Crawl Url} (h : crawl.todo.receiver = true) (url : Url) :
    crawl.addLink url = (.ok (), crawl.discover url) := by
  obtain ⟨hs, heq⟩ | ⟨hs, ha, heq⟩ | ⟨hs, ha, heq⟩ := crawl.discover_cases url
  · rw [heq, addLink, if_neg (not_not.mpr hs)]
  · rw [allowedByRobots] at ha
    rw [heq, addLink, if_pos hs]
    simp [allowedByRobots, ha, Channel.send, h, enqueue]
  · rw [allowedByRobots] at ha
    rw [heq, addLink, if_pos hs]
    simp [allowedByRobots, ha, exclude]

lemma addLinks_eq {crawl : Crawl Url} (h : crawl.todo.receiver = true) (links : List Url) :
    crawl.addLinks links
      = (.ok (), crawl.discoverAll (links.map fun link => setFragment link none)) := by
  induction links generalizing crawl with
  | nil => rfl
  | cons link links ih =>
      have hrx : (crawl.discover (setFragment link none)).todo.receiver = true := by simp [h]
      rw [addLinks, addLink_eq h, List.map_cons, discoverAll_cons]
      exact ih hrx

end Crawl

/-! ### The ends of a step -/

/-- The crawl after a visit, under its lock. -/
def visited (crawl : Mutex (Crawl Url)) (url : Url) (v : Visit Url) : Mutex (Crawl Url) :=
  { crawl with data := crawl.data.visit url v }

lemma withLock_of_ok {α : Type} {lock : Mutex α} {body : α → Except Error Unit × α} {a : α}
    (hlock : lock.poisoned = false) (h : body lock.data = (.ok (), a)) :
    withLock lock body = (.ok (), { lock with data := a }) := by
  simp [withLock, lockMapErr, hlock, h]

lemma withLock_of_poisoned {α : Type} {lock : Mutex α} {body : α → Except Error Unit × α}
    (hlock : lock.poisoned = true) : ∃ e, withLock lock body = (.error e, lock) := by
  simp [withLock, lockMapErr, hlock]

lemma withLock_insertPage {crawl : Mutex (Crawl Url)} (hlock : crawl.poisoned = false) (url : Url)
    (page : PageResult Url) :
    (withLock crawl fun crawl => (.ok (), crawl.insertPage url page))
      = (.ok (), visited crawl url ⟨[], page⟩) :=
  withLock_of_ok hlock rfl

/-- The answer of the client ends the step with the visit it determines, sends
a page to be parsed, or meets a poisoned lock. -/
lemma stepGot_cases {crawl : Mutex (Crawl Url)} (hrx : crawl.data.todo.receiver = true) (url : Url)
    (response : Except Error (HttpResponse Url)) :
    (∃ body, response = .ok (.html body) ∧
      stepGot crawl url response = (.pending (.parsing body), crawl)) ∨
    (∃ v, (∀ body, response ≠ .ok (.html body)) ∧ visitOf url response = some v ∧
      crawl.poisoned = false ∧
      stepGot crawl url response = (.ready (.ok ()), visited crawl url v)) ∨
    (∃ e, (∀ body, response ≠ .ok (.html body)) ∧ crawl.poisoned = true ∧
      stepGot crawl url response = (.ready (.error e), crawl)) := by
  cases hp : crawl.poisoned with
  | true =>
      match response with
      | .ok (.html body) => exact Or.inl ⟨body, rfl, rfl⟩
      | .ok (.serverFailure status msg) | .ok (.redirect status target)
      | .ok (.otherContent contentType) | .error e =>
          refine Or.inr (Or.inr ?_)
          rw [stepGot]
          obtain ⟨e, he⟩ := withLock_of_poisoned hp
          refine ⟨e, by simp, rfl, ?_⟩
          rw [he]
  | false =>
      match response with
      | .ok (.html body) => exact Or.inl ⟨body, rfl, rfl⟩
      | .ok (.redirect status target) =>
          refine Or.inr (Or.inl ⟨_, by simp, rfl, rfl, ?_⟩)
          rw [stepGot, withLock_of_ok hp (a := crawl.data.visit url
            ⟨if domain target = domain url then [target] else [], .redirect status target⟩)]
          · rfl
          · by_cases hd : domain target = domain url
            · rw [if_pos hd, if_pos hd, Crawl.addLink_eq hrx]
              rfl
            · rw [if_neg hd, if_neg hd]
              rfl
      | .ok (.serverFailure status msg) | .ok (.otherContent contentType) | .error e =>
          refine Or.inr (Or.inl ⟨_, by simp, rfl, rfl, ?_⟩)
          rw [stepGot, withLock_insertPage hp]

/-- The end of the parse task ends the step: with the visit of the page, or
with an error if the task or the parser failed or the lock is poisoned. -/
lemma stepParsed_cases {crawl : Mutex (Crawl Url)} (hrx : crawl.data.todo.receiver = true)
    (url : Url) (body : String) (joined : Except Error Unit) :
    (∃ v, joined = .ok () ∧ visitOf url (.ok (.html body)) = some v ∧ crawl.poisoned = false ∧
      stepParsed crawl url body joined = (.ok (), visited crawl url v)) ∨
    (∃ e, (crawl.poisoned = true ∨ joined ≠ .ok () ∨ visitOf url (.ok (.html body)) = none) ∧
      stepParsed crawl url body joined = (.error e, crawl)) := by
  cases joined with
  | error e => exact Or.inr ⟨e, Or.inr (Or.inl (by simp)), rfl⟩
  | ok _ =>
      rw [stepParsed, visitOf]
      cases parsePage url body with
      | error e => exact Or.inr ⟨e, Or.inr (Or.inr rfl), rfl⟩
      | ok info =>
          cases hp : crawl.poisoned with
          | true =>
              obtain ⟨e, he⟩ := withLock_of_poisoned hp
              exact Or.inr ⟨e, Or.inl rfl, he⟩
          | false =>
              refine Or.inl ⟨_, rfl, rfl, rfl, ?_⟩
              refine withLock_of_ok hp ?_
              rw [Crawl.addLinks_eq hrx]
              rfl

end MikesCrawler
