/-
# ApiCatalog.Proofs.Order -- one fetch at a time, in the order of arrival

What a fetch does and what it ends with is left to its source (`Core.Move`).  The
lock does not ask: `Core.Act` is what may happen to a core with any source, and
every move is at most two acts (`acts_of_move`).

A core is `Orderly` when its attempts are a `Line`: first those that have ended,
then at most one that fetches, and then those that wait.  The one that fetches
holds the lock, and those that wait are the queue.  Acts keep the order: who
joins goes to the end of the line, who starts is the first that waits, and who
ends is the one that fetches.
-/
import ApiCatalog.Proofs.Core

namespace ApiCatalog

set_option autoImplicit false

namespace Core

variable {τ σ κ : Type}

/-! ## Acts -/

/-- What may happen to a core, whatever its fetches do. -/
inductive Act [Clock τ] : Core τ σ → Core τ σ → Prop
  | join {c : Core τ σ} {owner : Owner} (admitted : c.Admits owner) :
      Act c ((c.expect owner).enqueue owner)
  | start {c : Core τ σ} {ticket : Nat} {rest : List Nat} (free : c.locked = false)
      (head : c.queue = ticket :: rest) (work : σ) :
      Act c ((c.take rest).setStage ticket (.fetching c.now work))
  | resume {c : Core τ σ} {ticket : Nat} {owner : Owner} {arrived began : τ} {before : σ}
      (there : c.attempts[ticket]? = some ⟨owner, arrived, .fetching began before⟩) (work : σ) :
      Act c (c.setStage ticket (.fetching began work))
  | conclude {c : Core τ σ} {ticket : Nat} {owner : Owner} {arrived began : τ} {work : σ}
      (there : c.attempts[ticket]? = some ⟨owner, arrived, .fetching began work⟩)
      (outcome : Outcome) : Act c (c.conclude ticket owner began outcome)
  | found {c : Core τ σ} (idle : c.lifecycle = .idle) :
      Act c { c with lifecycle := .running, hasLoop := true, loopBusy := false }
  | retire (c : Core τ σ) : Act c c.retire
  | pass {c : Core τ σ} {moment : τ} (later : c.now < moment) : Act c { c with now := moment }

theorem setStage_there {c : Core τ σ} {ticket : Nat} {a : Attempt τ σ}
    (there : c.attempts[ticket]? = some a) (stage : AttemptStage τ σ) :
    (c.setStage ticket stage).attempts[ticket]? = some { a with stage } := by
  simp [setStage, there]

/-- What a fetch has done is taken over by one act, or by two if it has ended. -/
theorem acts_absorb [Clock τ] {b c : Core τ σ} {ticket : Nat} {owner : Owner} {began : τ}
    {p : Progress τ σ κ} {a : Attempt τ σ} (there : c.attempts[ticket]? = some a)
    (mine : a.owner = owner) (act : Act b (c.setStage ticket (.fetching began p.work))) :
    Relation.ReflTransGen Act b (c.absorb ticket owner began p) := by
  simp only [absorb]
  cases p.outcome with
  | none => exact .single act
  | some outcome =>
    subst mine
    exact (Relation.ReflTransGen.single act).tail (.conclude (setStage_there there _) outcome)

theorem acts_of_move [Clock τ] {source : Source τ σ κ} {c d : Core τ σ} (move : Move source c d) :
    Relation.ReflTransGen Act c d := by
  cases move with
  | join admitted => exact .single (.join admitted)
  | start free head there => exact acts_absorb there rfl (.start free head _)
  | resume there token => exact acts_absorb there rfl (.resume there _)
  | found idle => exact .single (.found idle)
  | retire => exact .single (.retire c)
  | pass later => exact .single (.pass later)

theorem acts_of_moves [Clock τ] {source : Source τ σ κ} {c d : Core τ σ}
    (moves : c.Moves source d) : Relation.ReflTransGen Act c d := by
  unfold Moves at moves
  induction moves with
  | refl => exact .refl
  | tail before last ih => exact ih.trans (acts_of_move last)

/-! ## The line -/

end Core

/-- Who asked for an attempt, and when. -/
def Attempt.arrival {τ σ : Type} (a : Attempt τ σ) : Owner × τ := (a.owner, a.arrived)

/-- Attempts in the order of arrival. -/
structure Line (τ σ : Type) where
  ended : List (Attempt τ σ)
  /-- The attempt that fetches, if there is one. -/
  current : Option (Attempt τ σ)
  waiting : List (Attempt τ σ)

namespace Line

variable {τ σ : Type}

/-- All attempts, by ticket. -/
def attempts (l : Line τ σ) : List (Attempt τ σ) := l.ended ++ l.current.toList ++ l.waiting

/-- The attempts whose owners still wait for them. -/
def pending (l : Line τ σ) : List (Attempt τ σ) := l.current.toList ++ l.waiting

/-- A new attempt goes to the end. -/
def join (a : Attempt τ σ) (l : Line τ σ) : Line τ σ := { l with waiting := l.waiting ++ [a] }

/-- The second line has come from the first: nobody has lost a place, and what has ended stays. -/
structure Grows (l m : Line τ σ) : Prop where
  arrivals : l.attempts.map Attempt.arrival <+: m.attempts.map Attempt.arrival
  ended : l.ended <+: m.ended

theorem Grows.refl (l : Line τ σ) : l.Grows l := ⟨List.prefix_rfl, List.prefix_rfl⟩

theorem Grows.trans {k l m : Line τ σ} (first : k.Grows l) (second : l.Grows m) : k.Grows m :=
  ⟨first.arrivals.trans second.arrivals, first.ended.trans second.ended⟩

theorem grows_join (a : Attempt τ σ) (l : Line τ σ) : l.Grows (l.join a) := by
  refine ⟨⟨[a.arrival], ?_⟩, List.prefix_rfl⟩
  simp [join, attempts]

variable (ended waiting : List (Attempt τ σ)) (a : Attempt τ σ) (stage : AttemptStage τ σ)

theorem grows_start :
    Grows ⟨ended, none, a :: waiting⟩ ⟨ended, some { a with stage }, waiting⟩ := by
  refine ⟨⟨[], ?_⟩, List.prefix_rfl⟩
  simp [attempts, Attempt.arrival]

theorem grows_resume :
    Grows ⟨ended, some a, waiting⟩ ⟨ended, some { a with stage }, waiting⟩ := by
  refine ⟨⟨[], ?_⟩, List.prefix_rfl⟩
  simp [attempts, Attempt.arrival]

theorem grows_conclude :
    Grows ⟨ended, some a, waiting⟩ ⟨ended ++ [{ a with stage }], none, waiting⟩ := by
  refine ⟨⟨[], ?_⟩, List.prefix_append _ _⟩
  simp [attempts, Attempt.arrival]

end Line

namespace Core

variable {τ σ κ : Type}

/-- The attempts of a core are a line, whose first part has ended and whose last part waits. -/
structure Orderly (c : Core τ σ) (l : Line τ σ) : Prop where
  attempts : c.attempts = l.attempts
  ended : ∀ a ∈ l.ended, a.isEnded = true
  current : ∀ a ∈ l.current, a.isFetching = true
  waiting : ∀ a ∈ l.waiting, a.stage = .queued
  locked : c.locked = l.current.isSome
  queue : c.queue = List.range' (l.ended.length + l.current.toList.length) l.waiting.length

theorem getElem?_filterMap {α β : Type} {f : α → Option β} {xs : List α}
    (each : ∀ x ∈ xs, (f x).isSome = true) (n : Nat) : (xs.filterMap f)[n]? = xs[n]?.bind f := by
  induction xs generalizing n with
  | nil => rfl
  | cons x xs ih =>
    obtain ⟨y, there⟩ := Option.isSome_iff_exists.1 (each x List.mem_cons_self)
    have rest := ih fun x mem => each x (List.mem_cons_of_mem _ mem)
    rw [List.filterMap_cons_some there]
    cases n with
    | zero => simp [there]
    | succ n => simpa using rest n

/-- What is read off the first of some elements, and off none of the others, is at their places. -/
theorem getElem?_filterMap_append {α β : Type} {f : α → Option β} {xs ys : List α}
    (each : ∀ x ∈ xs, (f x).isSome = true) (none : ∀ y ∈ ys, f y = .none) (n : Nat) :
    ((xs ++ ys).filterMap f)[n]? = (xs ++ ys)[n]?.bind f := by
  rw [List.filterMap_append, List.filterMap_eq_nil_iff.2 none, List.append_nil,
    getElem?_filterMap each]
  rcases Nat.lt_or_ge n xs.length with inside | outside
  · rw [List.getElem?_append_left inside]
  · rw [List.getElem?_eq_none outside, List.getElem?_append_right outside]
    cases there : ys[n - xs.length]? with
    | none => rfl
    | some y => exact (none y (List.mem_of_getElem? there)).symm

theorem modify_after {α : Type} (first rest : List α) (a : α) (f : α → α) :
    (first ++ a :: rest).modify first.length f = first ++ f a :: rest := by
  induction first with
  | nil => rfl
  | cons b first ih => simpa using ih

namespace Orderly

variable {c : Core τ σ} {l : Line τ σ}

/-- Whoever fetches is the one that holds the lock. -/
theorem at_current (orderly : c.Orderly l) {ticket : Nat} {a : Attempt τ σ}
    (there : c.attempts[ticket]? = some a) (fetches : a.isFetching = true) :
    l.current = some a ∧ ticket = l.ended.length := by
  rw [orderly.attempts, Line.attempts, List.append_assoc] at there
  have idle : a ∉ l.waiting := by
    intro mem
    simp [Attempt.isFetching, orderly.waiting a mem] at fetches
  -- the place is among the ended, is that of the current one, or is among those that wait
  rcases Nat.lt_or_ge ticket l.ended.length with low | high
  · rw [List.getElem?_append_left low] at there
    have ended := orderly.ended a (List.mem_of_getElem? there)
    exact absurd (ended.symm.trans (Attempt.isEnded_of_isFetching fetches)) (by decide)
  · rw [List.getElem?_append_right high] at there
    cases current : l.current with
    | none =>
      rw [current] at there
      exact absurd (List.mem_of_getElem? there) idle
    | some b =>
      rw [current] at there
      cases place : ticket - l.ended.length with
      | zero =>
        rw [place] at there
        cases there
        exact ⟨rfl, by omega⟩
      | succ n =>
        rw [place] at there
        exact absurd (List.mem_of_getElem? (i := n) there) idle

/-- Whoever is at the head of the queue of a free lock is the first that waits. -/
theorem at_head (orderly : c.Orderly l) (free : c.locked = false) {ticket : Nat}
    {rest : List Nat} (head : c.queue = ticket :: rest) :
    ∃ a waiting, l = ⟨l.ended, none, a :: waiting⟩ ∧ ticket = l.ended.length ∧
      rest = List.range' (l.ended.length + 1) waiting.length := by
  obtain ⟨ended, current, waiting⟩ := l
  have none : current = none := by
    cases current with
    | none => rfl
    | some a => cases orderly.locked.symm.trans free
  subst none
  have queue := orderly.queue
  cases waiting with
  | nil =>
    rw [head] at queue
    cases queue
  | cons a waiting =>
    rw [head, List.length_cons, List.range'_succ] at queue
    obtain ⟨rfl, rfl⟩ := List.cons.inj queue
    exact ⟨a, waiting, rfl, rfl, rfl⟩

/-- Whoever is at the head of the queue of a free lock comes after all that have ended. -/
theorem split_head (orderly : c.Orderly l) (free : c.locked = false) {ticket : Nat}
    {rest : List Nat} (head : c.queue = ticket :: rest) {a : Attempt τ σ}
    (there : c.attempts[ticket]? = some a) :
    ticket = l.ended.length ∧ a ∈ l.pending ∧ ∃ waiting, c.attempts = l.ended ++ a :: waiting ∧
      ∀ b ∈ a :: waiting, b.stage = .queued := by
  obtain ⟨first, waiting, line, rfl, -⟩ := orderly.at_head free head
  have attempts : c.attempts = l.ended ++ first :: waiting := by
    rw [orderly.attempts, line]
    simp [Line.attempts]
  have queued : ∀ b ∈ first :: waiting, b.stage = .queued := by
    have waits := orderly.waiting
    rwa [line] at waits
  have same : a = first := by
    rw [attempts, List.getElem?_append_right (Nat.le_refl _), Nat.sub_self] at there
    exact (Option.some.inj there).symm
  subst same
  refine ⟨rfl, ?_, waiting, attempts, queued⟩
  rw [line]
  exact List.mem_cons_self

/-- Whoever fetches comes after all that have ended. -/
theorem split_current (orderly : c.Orderly l) {ticket : Nat} {a : Attempt τ σ}
    (there : c.attempts[ticket]? = some a) (fetches : a.isFetching = true) :
    ticket = l.ended.length ∧ a ∈ l.pending ∧ c.attempts = l.ended ++ a :: l.waiting := by
  obtain ⟨current, rfl⟩ := orderly.at_current there fetches
  refine ⟨rfl, ?_, ?_⟩
  · rw [Line.pending, current]
    exact List.mem_cons_self
  · rw [orderly.attempts, Line.attempts, current]
    simp

theorem attempts_eq (orderly : c.Orderly l) : c.attempts = l.ended ++ l.pending := by
  rw [orderly.attempts, Line.attempts, Line.pending, List.append_assoc]

/-- Of an attempt that is pending nothing is known yet. -/
theorem unknown (orderly : c.Orderly l) {a : Attempt τ σ} (mem : a ∈ l.pending) :
    a.isEnded = false ∧ a.verdict? = none ∧ a.course? = none := by
  rcases List.mem_append.1 mem with current | waiting
  · have fetches := orderly.current a (Option.mem_toList.1 current)
    exact ⟨Attempt.isEnded_of_isFetching fetches, Attempt.verdict?_of_isFetching fetches,
      Attempt.course?_of_isFetching fetches⟩
  · have queued := orderly.waiting a waiting
    exact ⟨Attempt.isEnded_of_queued queued, Attempt.verdict?_of_queued queued,
      Attempt.course?_of_queued queued⟩

theorem completed (orderly : c.Orderly l) :
    c.attempts.countP Attempt.isEnded = l.ended.length := by
  have pending : l.pending.countP Attempt.isEnded = 0 :=
    List.countP_eq_zero.2 fun a mem => by simp [(orderly.unknown mem).1]
  rw [orderly.attempts_eq, List.countP_append, pending, List.countP_eq_length.2 orderly.ended,
    Nat.add_zero]

theorem course (orderly : c.Orderly l) :
    c.attempts.filterMap Attempt.course? = l.ended.filterMap Attempt.course? := by
  have pending : l.pending.filterMap Attempt.course? = [] :=
    List.filterMap_eq_nil_iff.2 fun a mem => (orderly.unknown mem).2.2
  rw [orderly.attempts_eq, List.filterMap_append, pending, List.append_nil]

/-- Those who have ended are the first ones. -/
theorem isEnded_iff (orderly : c.Orderly l) {n : Nat} {a : Attempt τ σ}
    (there : c.attempts[n]? = some a) : a.isEnded = true ↔ n < l.ended.length := by
  rw [orderly.attempts_eq] at there
  rcases Nat.lt_or_ge n l.ended.length with inside | outside
  · rw [List.getElem?_append_left inside] at there
    exact iff_of_true (orderly.ended a (List.mem_of_getElem? there)) inside
  · rw [List.getElem?_append_right outside] at there
    refine iff_of_false ?_ (Nat.not_lt.2 outside)
    simp [(orderly.unknown (List.mem_of_getElem? there)).1]

/-- The fetch of an ended attempt is the one of its number. -/
theorem getElem?_course (orderly : c.Orderly l) (n : Nat) :
    (c.attempts.filterMap Attempt.course?)[n]? = c.attempts[n]?.bind Attempt.course? := by
  rw [orderly.attempts_eq]
  refine getElem?_filterMap_append (fun b mem => ?_) (fun b mem => (orderly.unknown mem).2.2) n
  rw [b.isSome_course?, orderly.ended b mem]

theorem take_course (orderly : c.Orderly l) {n : Nat} {a : Attempt τ σ}
    (there : c.attempts[n]? = some a) {fetch : τ × Outcome} (ended : a.course? = some fetch) :
    (c.attempts.filterMap Attempt.course?).take (n + 1) =
      (c.attempts.filterMap Attempt.course?).take n ++ [fetch] := by
  rw [List.take_add_one, orderly.getElem?_course, there, Option.bind_some, ended]
  rfl

/-! ## Acts keep the order -/

theorem init [Clock τ] (strict : Bool) (κ : Type) :
    (World.core (World.init strict : World τ σ κ)).Orderly ⟨[], none, []⟩ := by
  constructor <;> simp [World.core, World.init, Line.attempts]

/-- The order is one of the attempts, the lock and the queue. -/
theorem congr {d : Core τ σ} (orderly : c.Orderly l) (attempts : d.attempts = c.attempts)
    (locked : d.locked = c.locked) (queue : d.queue = c.queue) : d.Orderly l :=
  ⟨attempts.trans orderly.attempts, orderly.ended, orderly.current, orderly.waiting,
    locked.trans orderly.locked, queue.trans orderly.queue⟩

theorem expect (orderly : c.Orderly l) (owner : Owner) : (c.expect owner).Orderly l := by
  cases owner <;> exact orderly.congr rfl rfl rfl

theorem goOn (orderly : c.Orderly l) (owner : Owner) (verdict : Verdict) :
    (c.goOn owner verdict).Orderly l := by
  cases owner <;> exact orderly.congr rfl rfl rfl

theorem enqueue (orderly : c.Orderly l) (owner : Owner) :
    (c.enqueue owner).Orderly (l.join { owner, arrived := c.now }) := by
  have count : c.attempts.length =
      l.ended.length + l.current.toList.length + l.waiting.length := by
    rw [orderly.attempts, Line.attempts, List.length_append, List.length_append]
  refine ⟨?_, orderly.ended, orderly.current, ?_, orderly.locked, ?_⟩
  · simp [Core.enqueue, orderly.attempts, Line.attempts, Line.join]
  · intro a mem
    rcases List.mem_append.1 mem with old | new
    · exact orderly.waiting a old
    · cases List.mem_singleton.1 new
      rfl
  · simp only [Core.enqueue, Line.join, orderly.queue, count, List.length_append,
      List.length_singleton, List.range'_concat, Nat.one_mul]

/-- Who joins goes to the end of the line. -/
theorem join (orderly : c.Orderly l) (owner : Owner) :
    ((c.expect owner).enqueue owner).Orderly (l.join { owner, arrived := c.now }) := by
  have now : (c.expect owner).now = c.now := by cases owner <;> rfl
  exact now ▸ (orderly.expect owner).enqueue owner

/-- Who starts is the first that waits. -/
theorem start {ended waiting : List (Attempt τ σ)} {a : Attempt τ σ}
    (orderly : c.Orderly ⟨ended, none, a :: waiting⟩) (began : τ) (work : σ) :
    ((c.take (List.range' (ended.length + 1) waiting.length)).setStage ended.length
      (.fetching began work)).Orderly
      ⟨ended, some { a with stage := .fetching began work }, waiting⟩ := by
  refine ⟨?_, orderly.ended, ?_, fun b mem => orderly.waiting b (List.mem_cons_of_mem a mem),
    rfl, rfl⟩
  · simp [Core.setStage, Core.take, orderly.attempts, Line.attempts, modify_after]
  · rintro b ⟨⟩
    rfl

theorem resume {ended waiting : List (Attempt τ σ)} {a : Attempt τ σ}
    (orderly : c.Orderly ⟨ended, some a, waiting⟩) (began : τ) (work : σ) :
    (c.setStage ended.length (.fetching began work)).Orderly
      ⟨ended, some { a with stage := .fetching began work }, waiting⟩ := by
  refine ⟨?_, orderly.ended, ?_, orderly.waiting, orderly.locked, orderly.queue⟩
  · simp [Core.setStage, orderly.attempts, Line.attempts, modify_after]
  · rintro b ⟨⟩
    rfl

/-- Who ends is the one that fetches. -/
theorem conclude {ended waiting : List (Attempt τ σ)} {a : Attempt τ σ}
    (orderly : c.Orderly ⟨ended, some a, waiting⟩) (owner : Owner) (began : τ)
    (outcome : Outcome) :
    (c.conclude ended.length owner began outcome).Orderly
      ⟨ended ++ [{ a with stage := .ended began c.now outcome (Verdict.of c.strict outcome) }],
        none, waiting⟩ := by
  refine goOn ?_ owner _
  refine ⟨?_, ?_, ?_, orderly.waiting, rfl, ?_⟩
  · simp [Core.settle, Core.setStage, orderly.attempts, Line.attempts, modify_after]
  · intro b mem
    rcases List.mem_append.1 mem with old | new
    · exact orderly.ended b old
    · cases List.mem_singleton.1 new
      rfl
  · rintro b ⟨⟩
  · simpa [Core.settle, Core.setStage] using orderly.queue

end Orderly

end Core

end ApiCatalog
