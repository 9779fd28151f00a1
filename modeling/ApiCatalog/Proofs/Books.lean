/-
# ApiCatalog.Proofs.Books -- what everybody is told is what the attempts say

The attempts of an orderly core are the books of its refreshes.

* `Core.Shown`: what is shown is the ledger replayed on the attempts that have
  ended, and a fetch is in flight for the one that holds the lock;
* `Core.Told`: whoever called for a refresh is answered what became of its own
  attempt, once that has ended and with nothing before; the loop waits for at
  most one attempt of its own, and reports each that failed.

Acts keep the order and the books (`Kept.act`).
-/
import ApiCatalog.Proofs.Order

namespace ApiCatalog

set_option autoImplicit false

/-! ## What the owner of an attempt is told -/

namespace Attempt

variable {τ σ : Type}

/-- The call that an attempt was made for, and what it is answered. -/
def asked? (a : Attempt τ σ) : Option (Nat × Option Answer) :=
  match a.owner with
  | .loop => none
  | .caller id => some (id, a.verdict?.map World.answerOf)

/-- Whether an attempt was made by the loop. -/
def isOfLoop (a : Attempt τ σ) : Bool :=
  match a.owner with
  | .loop => true
  | .caller _ => false

/-- What the loop reports of an attempt of its own. -/
def report (a : Attempt τ σ) : List Failure :=
  match a.owner, a.verdict? with
  | .loop, some verdict => verdict.report
  | _, _ => []

/-- Nobody is told anything of an attempt before it has ended. -/
theorem asked?_of_pending {a b : Attempt τ σ} (owner : a.owner = b.owner)
    (first : a.verdict? = none) (second : b.verdict? = none) : a.asked? = b.asked? := by
  simp [asked?, owner, first, second]

end Attempt

/-! ## What is shown -/

namespace Core

variable {τ σ κ : Type}

/-- The ledger and the traffic agree with the attempts. -/
structure Shown (c : Core τ σ) (l : Line τ σ) : Prop where
  ledger : c.ledger = Ledger.replay c.strict (l.ended.filterMap Attempt.course?)
  judged : ∀ a ∈ l.ended, a.verdict? = a.course?.map fun fetch => Verdict.of c.strict fetch.2
  running : c.traffic.running = l.current.toList.length
  peak : c.traffic.peak ≤ 1

namespace Shown

variable {c : Core τ σ} {ended waiting : List (Attempt τ σ)} {a : Attempt τ σ}

theorem init [Clock τ] (strict : Bool) (κ : Type) :
    (World.core (World.init strict : World τ σ κ)).Shown ⟨[], none, []⟩ where
  ledger := rfl
  judged := by simp
  running := rfl
  peak := Nat.zero_le 1

/-- What is shown is the ledger and the traffic. -/
theorem congr {d : Core τ σ} {l m : Line τ σ} (shown : c.Shown l) (strict : d.strict = c.strict)
    (ledger : d.ledger = c.ledger) (traffic : d.traffic = c.traffic) (ended : m.ended = l.ended)
    (current : m.current.toList.length = l.current.toList.length) : d.Shown m := by
  refine ⟨?_, ?_, ?_, ?_⟩
  · rw [ledger, strict, ended, shown.ledger]
  · rw [strict, ended]
    exact shown.judged
  · rw [traffic, current, shown.running]
  · rw [traffic]
    exact shown.peak

theorem join {l : Line τ σ} (shown : c.Shown l) (owner : Owner) :
    ((c.expect owner).enqueue owner).Shown (l.join { owner, arrived := c.now }) := by
  cases owner <;> exact shown.congr rfl rfl rfl rfl rfl

theorem start (shown : c.Shown ⟨ended, none, a :: waiting⟩) (queue : List Nat) (began : τ)
    (work : σ) :
    ((c.take queue).setStage ended.length (.fetching began work)).Shown
      ⟨ended, some { a with stage := .fetching began work }, waiting⟩ := by
  have running : c.traffic.running = 0 := shown.running
  have peak := shown.peak
  refine ⟨shown.ledger, shown.judged, ?_, ?_⟩ <;>
    simp only [Core.take, Core.setStage, Report.Traffic.after, running]
  · rfl
  · omega

/-- The ledger is taken on by the attempt that has ended. -/
theorem conclude (shown : c.Shown ⟨ended, some a, waiting⟩) (owner : Owner) (began : τ)
    (outcome : Outcome) :
    (c.conclude ended.length owner began outcome).Shown
      ⟨ended ++ [{ a with stage := .ended began c.now outcome (Verdict.of c.strict outcome) }],
        none, waiting⟩ := by
  have running : c.traffic.running = 1 := shown.running
  have ledger : c.ledger.after c.strict began outcome =
      Ledger.replay c.strict (ended.filterMap Attempt.course? ++ [(began, outcome)]) := by
    rw [shown.ledger, ← Ledger.replay_append_singleton]
  have closed : (c.traffic.after .closed).running = 0 := by
    simp [Report.Traffic.after, running]
  have judged : ∀ b ∈ ended ++
        [{ a with stage := .ended began c.now outcome (Verdict.of c.strict outcome) }],
      b.verdict? = b.course?.map fun fetch => Verdict.of c.strict fetch.2 := by
    intro b mem
    rcases List.mem_append.1 mem with old | new
    · exact shown.judged b old
    · cases List.mem_singleton.1 new
      rfl
  have course : (ended ++
        [{ a with stage := .ended began c.now outcome (Verdict.of c.strict outcome) }]).filterMap
      Attempt.course? = ended.filterMap Attempt.course? ++ [(began, outcome)] :=
    List.filterMap_append
  rw [← course] at ledger
  cases owner <;> exact ⟨ledger, judged, closed, shown.peak⟩

end Shown

/-! ## What is told -/

/-- What the owners of the attempts are told agrees with the attempts. -/
structure Told (c : Core τ σ) (l : Line τ σ) : Prop where
  asked : c.asked = l.attempts.filterMap Attempt.asked?
  numbered : (c.asked.map Prod.fst).Pairwise (· < ·)
  busy : l.pending.countP Attempt.isOfLoop = c.loopBusy.toNat
  reports : c.reports = l.ended.flatMap Attempt.report
  loopless : c.hasLoop = false → c.loopBusy = false
  unfounded : c.lifecycle = .idle → c.hasLoop = false

namespace Told

variable {c : Core τ σ} {l : Line τ σ} {ended waiting : List (Attempt τ σ)} {a : Attempt τ σ}

theorem init [Clock τ] (strict : Bool) (κ : Type) :
    (World.core (World.init strict : World τ σ κ)).Told ⟨[], none, []⟩ where
  asked := rfl
  numbered := List.Pairwise.nil
  busy := rfl
  reports := rfl
  loopless _ := rfl
  unfounded _ := rfl

theorem join {owner : Owner} (told : c.Told l) (admitted : c.Admits owner) :
    ((c.expect owner).enqueue owner).Told (l.join { owner, arrived := c.now }) := by
  have attempts (a : Attempt τ σ) : (l.join a).attempts = l.attempts ++ [a] := by
    simp [Line.join, Line.attempts]
  have pending (a : Attempt τ σ) : (l.join a).pending = l.pending ++ [a] := by
    simp [Line.join, Line.pending]
  cases owner with
  | loop =>
    obtain ⟨hasLoop, idle⟩ := admitted
    have busy := told.busy
    rw [idle] at busy
    refine ⟨?_, told.numbered, ?_, told.reports, ?_, told.unfounded⟩
    · rw [attempts, List.filterMap_append, ← told.asked]
      exact (List.append_nil _).symm
    · rw [pending, List.countP_append, busy]
      rfl
    · intro none
      cases hasLoop.symm.trans none
  | caller id =>
    refine ⟨?_, ?_, ?_, told.reports, told.loopless, told.unfounded⟩
    · rw [attempts, List.filterMap_append, ← told.asked]
      rfl
    · simp only [Core.enqueue, Core.expect, List.map_append, List.pairwise_append]
      refine ⟨told.numbered, List.pairwise_singleton _ _, ?_⟩
      intro number mem id' mem'
      obtain ⟨pair, there, rfl⟩ := List.mem_map.1 mem
      cases List.mem_singleton.1 mem'
      exact admitted pair there
    · rw [pending, List.countP_append, told.busy]
      rfl

theorem start (told : c.Told ⟨ended, none, a :: waiting⟩) (queued : a.stage = .queued)
    (queue : List Nat) (began : τ) (work : σ) :
    ((c.take queue).setStage ended.length (.fetching began work)).Told
      ⟨ended, some { a with stage := .fetching began work }, waiting⟩ := by
  have same : ({ a with stage := .fetching began work } : Attempt τ σ).asked? = a.asked? :=
    Attempt.asked?_of_pending rfl rfl (Attempt.verdict?_of_queued queued)
  refine ⟨?_, told.numbered, told.busy, told.reports, told.loopless, told.unfounded⟩
  refine told.asked.trans ?_
  simp [Line.attempts, List.filterMap_cons, same]

theorem resume (told : c.Told ⟨ended, some a, waiting⟩) (fetches : a.isFetching = true)
    (began : τ) (work : σ) :
    (c.setStage ended.length (.fetching began work)).Told
      ⟨ended, some { a with stage := .fetching began work }, waiting⟩ := by
  have same : ({ a with stage := .fetching began work } : Attempt τ σ).asked? = a.asked? :=
    Attempt.asked?_of_pending rfl rfl (Attempt.verdict?_of_isFetching fetches)
  refine ⟨?_, told.numbered, told.busy, told.reports, told.loopless, told.unfounded⟩
  refine told.asked.trans ?_
  simp [Line.attempts, List.filterMap_cons, same]

/-- Whoever is pending for the loop keeps it busy. -/
theorem loopBusy_of_pending (told : c.Told l) {b : Attempt τ σ} (pending : b ∈ l.pending)
    (mine : b.owner = .loop) : c.loopBusy = true := by
  have one : 0 < l.pending.countP Attempt.isOfLoop :=
    List.countP_pos_iff.2 ⟨b, pending, by simp [Attempt.isOfLoop, mine]⟩
  rw [told.busy] at one
  cases loopBusy : c.loopBusy with
  | true => rfl
  | false => simp [loopBusy] at one

/-- The loop learns what became of its attempt. -/
theorem goOn_loop (told : c.Told ⟨ended, some a, waiting⟩) (mine : a.owner = .loop)
    {b : Attempt τ σ} (same : b.owner = .loop) {verdict : Verdict}
    (judged : b.verdict? = some verdict) :
    (c.goOn .loop verdict).Told ⟨ended ++ [b], none, waiting⟩ := by
  have busy := told.busy
  have ofLoop : a.isOfLoop = true := by simp [Attempt.isOfLoop, mine]
  have waits : c.loopBusy = true := told.loopBusy_of_pending List.mem_cons_self mine
  simp only [Line.pending, Option.toList_some, List.singleton_append, List.countP_cons, ofLoop,
    if_true] at busy
  have before : a.asked? = none := by simp [Attempt.asked?, mine]
  have after : b.asked? = none := by simp [Attempt.asked?, same]
  refine ⟨?_, told.numbered, ?_, ?_, fun _ => rfl, told.unfounded⟩
  · refine told.asked.trans ?_
    simp [Line.attempts, before, after]
  · rw [waits] at busy
    show waiting.countP Attempt.isOfLoop = 0
    simpa using busy
  · have report : b.report = verdict.report := by
      simp [Attempt.report, same, judged]
    show (if c.loopBusy then c.reports ++ _ else c.reports) = _
    rw [if_pos waits, told.reports]
    simp [report]

/-- A caller is answered what became of its attempt. -/
theorem goOn_caller (told : c.Told ⟨ended, some a, waiting⟩) {id : Nat}
    (mine : a.owner = .caller id) (unjudged : a.verdict? = none) {b : Attempt τ σ}
    (same : b.owner = .caller id) {verdict : Verdict} (judged : b.verdict? = some verdict) :
    (c.goOn (.caller id) verdict).Told ⟨ended ++ [b], none, waiting⟩ := by
  have before : a.asked? = some (id, none) := by simp [Attempt.asked?, mine, unjudged]
  have after : b.asked? = some (id, some (World.answerOf verdict)) := by
    simp [Attempt.asked?, same, judged]
  have asked := told.asked
  simp only [Line.attempts, Option.toList_some, List.append_assoc, List.singleton_append,
    List.filterMap_append, List.filterMap_cons, before] at asked
  refine ⟨?_, ?_, ?_, ?_, told.loopless, told.unfounded⟩
  · -- the numbers increase, so the answer goes to one call only
    have numbered := told.numbered
    rw [asked] at numbered
    refine (congrArg (deliver id _) asked).trans ((deliver_of_numbered numbered _).trans ?_)
    simp [Line.attempts, after]
  · exact (numbers_deliver id _ c.asked).symm ▸ told.numbered
  · have ofCaller : a.isOfLoop = false := by simp [Attempt.isOfLoop, mine]
    have busy := told.busy
    simp only [Line.pending, Option.toList_some, List.singleton_append, List.countP_cons,
      ofCaller] at busy
    exact busy
  · refine told.reports.trans ?_
    simp [Attempt.report, same]

theorem conclude (told : c.Told ⟨ended, some a, waiting⟩) (fetches : a.isFetching = true)
    (began : τ) (outcome : Outcome) :
    (c.conclude ended.length a.owner began outcome).Told
      ⟨ended ++ [{ a with stage := .ended began c.now outcome (Verdict.of c.strict outcome) }],
        none, waiting⟩ := by
  have settled : (c.settle ended.length began outcome).Told ⟨ended, some a, waiting⟩ :=
    ⟨told.asked, told.numbered, told.busy, told.reports, told.loopless, told.unfounded⟩
  simp only [Core.conclude]
  cases owner : a.owner with
  | loop => exact settled.goOn_loop owner rfl rfl
  | caller id => exact settled.goOn_caller owner (Attempt.verdict?_of_isFetching fetches) rfl rfl

end Told

/-! ## Acts keep the order and the books -/

/-- The attempts of a core are in order, and what is shown and told agrees with them. -/
structure Kept (c : Core τ σ) (l : Line τ σ) : Prop where
  orderly : c.Orderly l
  shown : c.Shown l
  told : c.Told l

theorem Kept.init [Clock τ] (strict : Bool) (κ : Type) :
    (World.core (World.init strict : World τ σ κ)).Kept ⟨[], none, []⟩ :=
  ⟨.init strict κ, .init strict κ, .init strict κ⟩

/-- What is told of an attempt is what its outcome means. -/
theorem Kept.judged {c : Core τ σ} {l : Line τ σ} (kept : c.Kept l) {a : Attempt τ σ}
    (mem : a ∈ c.attempts) :
    a.verdict? = a.course?.map fun fetch => Verdict.of c.strict fetch.2 := by
  rw [kept.orderly.attempts_eq] at mem
  rcases List.mem_append.1 mem with ended | pending
  · exact kept.shown.judged a ended
  · obtain ⟨-, verdict, course⟩ := kept.orderly.unknown pending
    rw [verdict, course]
    rfl

/-- The loop reports those of its attempts that failed. -/
theorem Kept.reports {c : Core τ σ} {l : Line τ σ} (kept : c.Kept l) :
    c.reports = c.attempts.flatMap Attempt.report := by
  have pending : l.pending.flatMap Attempt.report = [] :=
    List.flatMap_eq_nil_iff.2 fun a mem => by
      simp [Attempt.report, (kept.orderly.unknown mem).2.1]
  rw [kept.orderly.attempts_eq, List.flatMap_append, pending, List.append_nil,
    kept.told.reports]

theorem Kept.act [Clock τ] {c d : Core τ σ} {l : Line τ σ} (kept : c.Kept l) (act : Act c d) :
    ∃ m, d.Kept m ∧ l.Grows m := by
  obtain ⟨orderly, shown, told⟩ := kept
  cases act with
  | join admitted =>
    exact ⟨_, ⟨orderly.join _, shown.join _, told.join admitted⟩, Line.grows_join _ l⟩
  | start free head work =>
    obtain ⟨a, waiting, line, rfl, rfl⟩ := orderly.at_head free head
    rw [line] at orderly shown told ⊢
    have queued : a.stage = .queued := orderly.waiting a List.mem_cons_self
    exact ⟨_, ⟨orderly.start _ work, shown.start _ _ work, told.start queued _ _ work⟩,
      Line.grows_start ..⟩
  | resume there work =>
    obtain ⟨ended, current, waiting⟩ := l
    obtain ⟨rfl, rfl⟩ := orderly.at_current there rfl
    exact ⟨_, ⟨orderly.resume _ work, shown.congr rfl rfl rfl rfl rfl, told.resume rfl _ work⟩,
      Line.grows_resume ..⟩
  | conclude there outcome =>
    obtain ⟨ended, current, waiting⟩ := l
    obtain ⟨rfl, rfl⟩ := orderly.at_current there rfl
    exact ⟨_, ⟨orderly.conclude _ _ outcome, shown.conclude _ _ outcome,
      told.conclude rfl _ outcome⟩, Line.grows_conclude ..⟩
  | found idle =>
    have loopBusy := told.loopless (told.unfounded idle)
    have busy : l.pending.countP Attempt.isOfLoop = 0 := by rw [told.busy, loopBusy]; rfl
    refine ⟨l, ⟨orderly.congr rfl rfl rfl, shown.congr rfl rfl rfl rfl rfl,
      ⟨told.asked, told.numbered, busy, told.reports, fun _ => rfl, fun running => ?_⟩⟩, .refl l⟩
    cases running
  | retire =>
    refine ⟨l, ⟨orderly.congr rfl rfl rfl, shown.congr rfl rfl rfl rfl rfl,
      ⟨told.asked, told.numbered, told.busy, told.reports, told.loopless, fun idle => ?_⟩⟩,
      .refl l⟩
    cases idle
  | pass later =>
    exact ⟨l, ⟨orderly.congr rfl rfl rfl, shown.congr rfl rfl rfl rfl rfl,
      ⟨told.asked, told.numbered, told.busy, told.reports, told.loopless, told.unfounded⟩⟩,
      .refl l⟩

theorem Kept.acts [Clock τ] {c d : Core τ σ} {l : Line τ σ} (kept : c.Kept l)
    (acts : Relation.ReflTransGen Act c d) : ∃ m, d.Kept m ∧ l.Grows m := by
  induction acts with
  | refl => exact ⟨l, kept, .refl l⟩
  | tail before last ih =>
    obtain ⟨m, kept, grows⟩ := ih
    obtain ⟨n, kept, further⟩ := kept.act last
    exact ⟨n, kept, grows.trans further⟩

end Core

end ApiCatalog
