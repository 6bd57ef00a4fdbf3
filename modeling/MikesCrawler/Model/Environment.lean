/-
What a crawl lives among: the channel, which hands out urls in the order they
were sent, and a client and parse tasks that answer by a function of the url.

* `CrawlInner.inOrder`: the next url to be started is the one sent first, as
  with the channel of the source;
* `Event.answers`, `Answers`: the answers are those of the functions, and no
  other thread panics with the crawl's lock;
* `CrawlInner.closedStep`, `ClosedRun`: the loop closed with both.
-/
import MikesCrawler.Machine.Completion
import MikesCrawler.Refine.Transitions

open Machine

namespace MikesCrawler

variable {Url : Type} [DecidableEq Url] [Externals Url]

/-- The channel hands out the url that was sent first. -/
def CrawlInner.inOrder (s : CrawlInner Url) : Event Url → Bool
  | .start url => s.crawl.data.todo.queue.head? = some url
  | .got _ _ | .parsed _ _ _ | .next | .poison => true

/-- The client and the parse tasks answer by a function of the url, and no
other thread panics with the crawl's lock. -/
def Event.answers (get : Url → Except Error (HttpResponse Url))
    (parse : Url → Except Error Unit) : Event Url → Bool
  | .got url response => response = get url
  | .parsed url _ joined => joined = parse url
  | .start _ | .next => true
  | .poison => false

/-- All answers of a run are those of the functions. -/
def Answers (get : Url → Except Error (HttpResponse Url)) (parse : Url → Except Error Unit)
    (es : List (Event Url)) : Prop := ∀ e ∈ es, e.answers get parse = true

/-- One event of a crawl in its loop that the channel, the client and the parse
tasks let happen. -/
def CrawlInner.closedStep (get : Url → Except Error (HttpResponse Url))
    (parse : Url → Except Error Unit) : CrawlInner Url → Event Url → Option (CrawlInner Url) :=
  restrict (fun s e => s.inOrder e && e.answers get parse) CrawlInner.step

/-- A run of the closed loop from the state `crawl` calls it in. -/
def ClosedRun (get : Url → Except Error (HttpResponse Url)) (parse : Url → Except Error Unit)
    (robots : Option String) (seed : Url) (es : List (Event Url)) (s : CrawlInner Url) : Prop :=
  exec (CrawlInner.closedStep get parse) (CrawlInner.begin robots seed) es = some s

variable {get : Url → Except Error (HttpResponse Url)} {parse : Url → Except Error Unit}
variable {robots : Option String} {seed : Url} {es fs : List (Event Url)} {s t : CrawlInner Url}

/-! ### What the answers of a run are -/

omit [Externals Url] in
lemma Answers.append (h : Answers get parse es) (h' : Answers get parse fs) :
    Answers get parse (es ++ fs) := fun e hmem =>
  (List.mem_append.mp hmem).elim (h e) (h' e)

omit [Externals Url] in
lemma Answers.got (h : Answers get parse es) :
    ∀ url response, .got url response ∈ es → response = get url := fun _ _ hmem =>
  of_decide_eq_true (h _ hmem)

omit [Externals Url] in
lemma Answers.parsed (h : Answers get parse es) :
    ∀ url body joined, .parsed url body joined ∈ es → joined = parse url := fun _ _ _ hmem =>
  of_decide_eq_true (h _ hmem)

omit [Externals Url] in
lemma Answers.unpoisoned (h : Answers get parse es) : .poison ∉ es := fun hmem => by
  cases h _ hmem

/-! ### Runs of the closed loop -/

lemma CrawlInner.closedStep_eq_some {e : Event Url} :
    s.closedStep get parse e = some t ↔
      (s.inOrder e = true ∧ e.answers get parse = true) ∧ s.step e = some t := by
  rw [closedStep, restrict_eq_some, Bool.and_eq_true]

/-- What the closed loop does, the loop does, with the answers of the
functions. -/
lemma exec_of_closed (h : exec (CrawlInner.closedStep get parse) s es = some t) :
    exec CrawlInner.step s es = some t ∧ Answers get parse es := by
  unfold CrawlInner.closedStep at h
  have hanswers : ∀ e ∈ es, Event.answers get parse e = true := by
    refine restrict_forall (fun s e hlets => ?_) h
    exact (Bool.and_eq_true_iff.mp hlets).2
  exact ⟨exec_of_restrict h, hanswers⟩

lemma ClosedRun.run (h : ClosedRun get parse robots seed es s) : Run robots seed es s :=
  (exec_of_closed h).1

lemma ClosedRun.answers (h : ClosedRun get parse robots seed es s) : Answers get parse es :=
  (exec_of_closed h).2

end MikesCrawler
