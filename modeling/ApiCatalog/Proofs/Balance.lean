/-
# ApiCatalog.Proofs.Balance -- every refresh is counted once, by what became of it

A refresh comes to one of five sorts of end (`Ending`).  Three of them have a
counter of their own; a crash and a cancellation are only timed.  What is said
of a refresh is one event when its fetch starts, one when a snapshot is published
or the fetch has failed, and one more when the loop reports a failure of its own.

`Account.replay` adds up what every attempt adds, so each number is the number of
the attempts that add to it:

* `durations_replay` for the durations, `tally_replay` for the counters;
* `said_replay` for the events, and `count_events` for those on one topic.
-/
import ApiCatalog.Proofs.Accounts
import ApiCatalog.Proofs.LastError
import ApiCatalog.Proofs.Serial

namespace ApiCatalog

set_option autoImplicit false

/-! ## The ends of refreshes -/

/-- The sorts of end that a refresh may come to. -/
inductive Ending where
  | success
  | failure
  | breach
  | crash
  | cancellation
deriving DecidableEq, Repr

/-- The sort of end that a refresh came to. -/
def Verdict.ending : Verdict → Ending
  | .published => .success
  | .kept _ => .failure
  | .raised .cancelled => .cancellation
  | .raised why => if why.isBreach then .breach else .crash

/-- The sort of end that an attempt has come to, if it has. -/
def Attempt.ending? {τ σ : Type} (a : Attempt τ σ) : Option Ending := a.verdict?.map Verdict.ending

/-- Whether an attempt has come to an end of a sort. -/
def Attempt.endsIn {τ σ : Type} (e : Ending) (a : Attempt τ σ) : Bool := a.ending? == some e

/-- How long an attempt took from the start of its fetch to its end. -/
def Attempt.duration? {τ σ : Type} [Sub τ] (a : Attempt τ σ) : Option τ :=
  match a.stage with
  | .ended began ended _ _ => some (ended - began)
  | _ => none

theorem Attempt.isSome_duration? {τ σ : Type} [Sub τ] (a : Attempt τ σ) :
    a.duration?.isSome = a.isEnded := by
  obtain ⟨owner, arrived, stage⟩ := a
  cases stage <;> rfl

/-- The number of attempts that have come to an end of a sort. -/
def Keeper.endings {τ σ : Type} (k : Keeper τ σ) (e : Ending) : Nat :=
  k.attempts.countP (Attempt.endsIn e)

/-- The number of attempts of the loop that have come to an end of a sort. -/
def Keeper.loopEndings {τ σ : Type} (k : Keeper τ σ) (e : Ending) : Nat :=
  k.attempts.countP fun a => a.isOfLoop && a.endsIn e

/-- An attempt that has ended has come to one sort of end, and no other has come to any. -/
theorem Attempt.one_ending {τ σ : Type} (a : Attempt τ σ) :
    (if a.isEnded then 1 else 0) =
      (if a.endsIn .success then 1 else 0) + (if a.endsIn .failure then 1 else 0) +
        (if a.endsIn .breach then 1 else 0) +
        ((if a.endsIn .crash then 1 else 0) + if a.endsIn .cancellation then 1 else 0) := by
  have ended : a.isEnded = a.ending?.isSome := by
    obtain ⟨owner, arrived, stage⟩ := a
    cases stage <;> rfl
  unfold endsIn
  rw [ended]
  cases a.ending? with
  | none => rfl
  | some e => cases e <;> rfl

theorem Keeper.completed_eq {τ σ : Type} (k : Keeper τ σ) :
    k.completed = k.endings .success + k.endings .failure + k.endings .breach +
      (k.endings .crash + k.endings .cancellation) := by
  unfold completed endings
  induction k.attempts with
  | nil => rfl
  | cons a rest ih =>
    have one := a.one_ending
    simp only [List.countP_cons]
    omega

/-! ## The topics of events -/

/-- What an event is about. -/
inductive Topic where
  | refreshStarted
  | refreshFailed
  | snapshotPublished
  | startIgnored
  | started
  | stopped
  | contractViolated
  | refreshCrashed
deriving DecidableEq, Repr

/-- What an event is about. -/
def Event.topic {τ : Type} : Event τ → Topic
  | .refreshStarted => .refreshStarted
  | .refreshFailed _ => .refreshFailed
  | .snapshotPublished _ _ => .snapshotPublished
  | .startIgnored _ => .startIgnored
  | .started _ => .started
  | .stopped => .stopped
  | .contractViolated _ => .contractViolated
  | .refreshCrashed _ => .refreshCrashed

/-- Whether a topic is one of refreshes. -/
def Topic.isOfRefresh : Topic → Bool
  | .startIgnored | .started | .stopped => false
  | _ => true

theorem Event.isOfRefresh_eq {τ : Type} (e : Event τ) : e.isOfRefresh = e.topic.isOfRefresh := by
  cases e <;> rfl

/-- How often a keeper has spoken on a topic. -/
def Keeper.count {τ σ : Type} (k : Keeper τ σ) (t : Topic) : Nat :=
  k.events.countP fun e => e.topic = t

/-- What is said at the end of a fetch. -/
def Event.ofOutcome {τ : Type} (strict : Bool) : Outcome → List (Event τ)
  | .error why => if why.isCancelled then [] else [.refreshFailed why]
  | .ok listings =>
    match (Snapshot.index strict listings).result with
    | .ok entries =>
      let s : Snapshot Unit := ⟨entries, ()⟩
      [.snapshotPublished s.groupVersions.size s.resourceCount]
    | .error _ => []

/-- What is said of an attempt that has come so far. -/
def Attempt.events {τ σ : Type} (strict : Bool) (a : Attempt τ σ) : List (Event τ) :=
  match a.stage with
  | .queued => []
  | .fetching _ _ => [.refreshStarted]
  | .ended _ _ outcome _ =>
    .refreshStarted :: (Event.ofOutcome strict outcome ++ a.report.map .ofFailure)

/-- Whether an attempt that has come so far is spoken of on a topic. -/
def Attempt.isSpokenOf {τ σ : Type} (t : Topic) (a : Attempt τ σ) : Bool :=
  match t with
  | .refreshStarted => a.isStarted
  | .refreshFailed => a.endsIn .failure
  | .snapshotPublished => a.endsIn .success
  | .contractViolated => a.isOfLoop && a.endsIn .breach
  | .refreshCrashed => a.isOfLoop && a.endsIn .crash
  | .startIgnored | .started | .stopped => false

/-- The events that the end of a fetch brings, by their topics. -/
def Ending.topics : Ending → List Topic
  | .success => [.snapshotPublished]
  | .failure => [.refreshFailed]
  | _ => []

/-- The reports of the loop about a refresh of its own, by their topics. -/
def Ending.reports : Ending → List Topic
  | .breach => [.contractViolated]
  | .crash => [.refreshCrashed]
  | _ => []

theorem Event.topics_ofOutcome {τ : Type} (strict : Bool) (outcome : Outcome) :
    (ofOutcome strict outcome : List (Event τ)).map topic =
      (Verdict.of strict outcome).ending.topics := by
  cases outcome with
  | error why => cases why <;> rfl
  | ok listings =>
    simp only [ofOutcome, Verdict.of]
    cases indexed : (Snapshot.index strict listings).result with
    | ok entries => rfl
    | error why => rcases Snapshot.refusal_of_index indexed with ⟨cause, rfl⟩ | rfl | rfl <;> rfl

theorem Verdict.topics_report {τ : Type} (verdict : Verdict) :
    (verdict.report.map (Event.ofFailure (τ := τ))).map Event.topic = verdict.ending.reports := by
  cases verdict with
  | raised why => cases why <;> rfl
  | _ => rfl

/-- What an attempt has ended with is what its outcome means to a reader. -/
def Attempt.Judged {τ σ : Type} (strict : Bool) (a : Attempt τ σ) : Prop :=
  a.verdict? = a.course?.map fun fetch => Verdict.of strict fetch.2

/-- An attempt is spoken of on a topic once, or not at all. -/
theorem Attempt.count_events {τ σ : Type} {strict : Bool} {a : Attempt τ σ}
    (judged : a.Judged strict) (t : Topic) :
    (a.events strict).countP (fun e => e.topic = t) = (a.isSpokenOf t).toNat := by
  have counted (events : List (Event τ)) :
      events.countP (fun e => e.topic = t) = (events.map Event.topic).count t := by
    rw [List.count, List.countP_map]
    rfl
  obtain ⟨owner, arrived, stage⟩ := a
  rw [counted]
  cases stage with
  | queued => cases owner <;> cases t <;> rfl
  | fetching began work => cases owner <;> cases t <;> rfl
  | ended began ended outcome verdict =>
    cases Option.some.inj judged
    cases owner with
    | loop =>
      simp only [events, report, verdict?, List.map_cons, List.map_append, Event.topics_ofOutcome,
        Verdict.topics_report, isSpokenOf, isStarted, isOfLoop, endsIn, ending?, Option.map_some]
      cases (Verdict.of strict outcome).ending <;> cases t <;> rfl
    | caller id =>
      simp only [events, report, verdict?, List.map_cons, List.map_append, Event.topics_ofOutcome,
        List.map_nil, isSpokenOf, isStarted, isOfLoop, endsIn, ending?, Option.map_some]
      cases (Verdict.of strict outcome).ending <;> cases t <;> rfl

/-! ## What accounts add up to -/

namespace Account

variable {τ σ : Type}

/-- The counter of the refreshes that came to an end of a sort; two sorts have none. -/
def tally (e : Ending) (x : Account τ) : Option Nat :=
  match e with
  | .success => some x.meters.successes
  | .failure => some x.meters.failures
  | .breach => some x.meters.breaches
  | .crash | .cancellation => none

/-- The end of a fetch is counted by the counter of its sort, and by no other. -/
theorem tally_judge (strict : Bool) (began : τ) (outcome : Outcome) (x : Account τ) (e : Ending) :
    (x.judge strict began outcome).tally e =
      (x.tally e).map (· + ((Verdict.of strict outcome).ending == e).toNat) := by
  cases outcome with
  | error why => cases why <;> cases e <;> rfl
  | ok listings =>
    simp only [judge, Verdict.of]
    cases indexed : (Snapshot.index strict listings).result with
    | ok entries => cases e <;> rfl
    | error why =>
      rcases Snapshot.refusal_of_index indexed with ⟨cause, rfl⟩ | rfl | rfl <;> cases e <;> rfl

theorem durations_judge (strict : Bool) (began : τ) (outcome : Outcome) (x : Account τ) :
    (x.judge strict began outcome).meters.durations = x.meters.durations := by
  unfold judge
  split
  · split <;> rfl
  · split
    · rfl
    · split <;> rfl

theorem said_judge (strict : Bool) (began : τ) (outcome : Outcome) (x : Account τ) :
    (x.judge strict began outcome).said = x.said ++ Event.ofOutcome strict outcome := by
  cases outcome with
  | error why =>
    simp only [judge, Event.ofOutcome]
    split
    · exact (List.append_nil _).symm
    · rfl
  | ok listings =>
    simp only [judge, Event.ofOutcome]
    cases (Snapshot.index strict listings).result with
    | ok entries => rfl
    | error why =>
      simp only [List.append_nil]
      split <;> rfl

variable [Sub τ] {strict : Bool}

theorem tally_after {a : Attempt τ σ} (judged : a.Judged strict) (x : Account τ) (e : Ending) :
    (x.after strict a).tally e = (x.tally e).map (· + (a.endsIn e).toNat) := by
  obtain ⟨owner, arrived, stage⟩ := a
  cases stage with
  | ended began ended outcome verdict =>
    cases Option.some.inj judged
    exact tally_judge strict began outcome (x.say .refreshStarted) e
  | _ => cases e <;> rfl

/-- A counter shows how many attempts have come to an end of its sort. -/
theorem tally_replay {attempts : List (Attempt τ σ)} (judged : ∀ a ∈ attempts, a.Judged strict)
    (e : Ending) :
    (replay strict attempts).tally e =
      (tally e ({} : Account τ)).map (· + attempts.countP (Attempt.endsIn e)) := by
  induction attempts using List.reverseRecOn with
  | nil => cases e <;> rfl
  | append_singleton attempts a ih =>
    rw [replay_append_singleton, tally_after (judged a (by simp)),
      ih fun b mem => judged b (List.mem_append_left _ mem), Option.map_map]
    congr 1
    funext n
    cases ends : a.endsIn e <;> simp [ends, Nat.add_assoc]

/-- What each attempt adds to a record makes up the record. -/
theorem replay_eq_flatMap {β : Type} (record : Account τ → List β) {adds : Attempt τ σ → List β}
    (first : record {} = []) (each : ∀ x a, record (x.after strict a) = record x ++ adds a)
    (attempts : List (Attempt τ σ)) : record (replay strict attempts) = attempts.flatMap adds := by
  induction attempts using List.reverseRecOn with
  | nil => exact first
  | append_singleton attempts a ih =>
    rw [replay_append_singleton, each, ih]
    simp

/-- Every attempt that has ended was timed, in the order of arrival. -/
theorem durations_replay (attempts : List (Attempt τ σ)) :
    (replay strict attempts).meters.durations = attempts.filterMap Attempt.duration? := by
  rw [List.filterMap_eq_flatMap_toList]
  refine replay_eq_flatMap (fun x => x.meters.durations) rfl (fun x a => ?_) attempts
  obtain ⟨owner, arrived, stage⟩ := a
  cases stage with
  | ended began ended outcome verdict =>
    exact congrArg (· ++ [ended - began]) (durations_judge strict began outcome _)
  | _ => exact (List.append_nil _).symm

/-- What is said is what is said of one attempt after the other. -/
theorem said_replay (attempts : List (Attempt τ σ)) :
    (replay strict attempts).said = attempts.flatMap (Attempt.events strict) := by
  refine replay_eq_flatMap Account.said rfl (fun x a => ?_) attempts
  obtain ⟨owner, arrived, stage⟩ := a
  cases stage with
  | queued => exact (List.append_nil _).symm
  | fetching began work => rfl
  | ended began ended outcome verdict =>
    simp only [after, report, time, said_judge, say, Attempt.events, List.append_assoc,
      List.cons_append, List.nil_append]

end Account

/-! ## The balance -/

namespace Source

/-- A fetch that fails after a unit, one that brings a catalogue, one that brings a listing without
records, one that brings a group-version that cannot be read, one that is cancelled, and then none
that comes to an end soon. -/
def mixed : Nat → Reply Int (Option (List Listing))
  | 0 => ⟨some 1, .error (.raised .timeout "timed out")⟩
  | 1 => ⟨none, .ok (some [])⟩
  | 2 => shapeless
  | 3 => ⟨none, .ok (some [⟨some "a/b/c", some []⟩])⟩
  | 4 => ⟨none, .error .cancelled⟩
  | _ => ⟨some 99, .ok (some [])⟩

end Source

section

variable {τ σ : Type} {strict : Bool}

/-- How often refreshes are spoken of on a topic is how many of them are. -/
theorem Attempt.count_flatMap_events {attempts : List (Attempt τ σ)}
    (judged : ∀ a ∈ attempts, a.Judged strict) (t : Topic) :
    (attempts.flatMap (Attempt.events strict)).countP (fun e => e.topic = t) =
      attempts.countP (Attempt.isSpokenOf t) := by
  induction attempts with
  | nil => rfl
  | cons a rest ih =>
    rw [List.flatMap_cons, List.countP_append, Attempt.count_events (judged a List.mem_cons_self),
      List.countP_cons, ih fun b mem => judged b (List.mem_cons_of_mem a mem), Nat.add_comm]
    cases a.isSpokenOf t <;> rfl

/-- A topic of refreshes is touched by what is said of refreshes only. -/
theorem Keeper.count_eq (k : Keeper τ σ) {t : Topic} (ofRefresh : t.isOfRefresh = true) :
    k.count t = k.said.countP fun e => e.topic = t := by
  rw [count, Keeper.said, List.countP_filter]
  refine List.countP_congr fun e _ => ?_
  simp only [decide_eq_true_eq, Bool.and_eq_true, Event.isOfRefresh_eq]
  refine ⟨fun same => ⟨same, ?_⟩, And.left⟩
  rw [same, ofRefresh]

/-- A contract is broken by what a fetch has brought, to a strict reader. -/
theorem Attempt.Judged.breach {a : Attempt τ σ} (judged : a.Judged strict)
    (breach : a.endsIn .breach = true) : ∃ began listings cause,
      a.course? = some (began, .ok listings) ∧
      (Snapshot.index strict listings).result = .error (.malformed cause) := by
  obtain ⟨owner, arrived, stage⟩ := a
  cases stage with
  | ended began ended outcome verdict =>
    cases Option.some.inj judged
    cases outcome with
    | error why => cases why <;> cases breach
    | ok listings =>
      simp only [endsIn, ending?, verdict?, Verdict.of, Option.map_some] at breach
      cases indexed : (Snapshot.index strict listings).result with
      | ok entries =>
        rw [indexed] at breach
        cases breach
      | error why =>
        rw [indexed] at breach
        rcases Snapshot.refusal_of_index indexed with ⟨cause, rfl⟩ | rfl | rfl
        · exact ⟨began, listings, cause, rfl, indexed⟩
        · cases breach
        · cases breach
  | _ => cases breach

end

namespace World

variable {τ σ κ : Type} [Clock τ]

/-- Refreshes are counted, timed and spoken of once each, by what became of them. -/
structure Balanced (strict : Bool) (w : World τ σ κ) : Prop where
  /-- Every attempt that has ended was timed, and nothing else. -/
  durations : w.state.meters.durations = w.state.attempts.filterMap Attempt.duration?
  observed : w.state.meters.durations.length = w.state.completed
  /-- What is said of refreshes is said of one attempt after the other. -/
  said : w.state.said = w.state.attempts.flatMap (Attempt.events strict)
  started : w.state.count .refreshStarted = w.state.meters.durations.length + inFlight w
  single : inFlight w ≤ 1
  successes : w.state.meters.successes = w.state.endings .success
  published : w.state.count .snapshotPublished = w.state.endings .success
  failures : w.state.meters.failures = w.state.endings .failure
  failed : w.state.count .refreshFailed = w.state.endings .failure
  breaches : w.state.meters.breaches = w.state.endings .breach
  /-- An attempt breaks the contract where its fetch has succeeded and a strict reader cannot index
  what it brought. -/
  indexing : ∀ a ∈ w.state.attempts, a.endsIn .breach = true → ∃ began listings cause,
    a.course? = some (began, .ok listings) ∧
    (Snapshot.index strict listings).result = .error (.malformed cause)
  total : w.state.meters.durations.length =
    w.state.meters.successes + w.state.meters.failures + w.state.meters.breaches +
      (w.state.endings .crash + w.state.endings .cancellation)
  /-- The loop speaks of those of its attempts that raised a failure other than being cancelled. -/
  violated : w.state.count .contractViolated = w.state.loopEndings .breach
  crashed : w.state.count .refreshCrashed = w.state.loopEndings .crash

variable {source : Source τ σ κ} {strict : Bool} {w : World τ σ κ}

/-- In every reachable world the refreshes are counted, timed and spoken of once each. -/
theorem refreshes_balance [DecidableEq κ] (reached : Reachable source strict w) :
    Balanced strict w := by
  obtain ⟨l, sound⟩ := reached.sound
  have serial := serial_of_sound sound
  have judged : ∀ a ∈ w.state.attempts, a.Judged strict := serial.judged
  have audited : account w = Account.replay strict w.state.attempts := reached.audited
  have durations : w.state.meters.durations = w.state.attempts.filterMap Attempt.duration? :=
    (congrArg (·.meters.durations) audited).trans (Account.durations_replay _)
  have said : w.state.said = w.state.attempts.flatMap (Attempt.events strict) :=
    (congrArg Account.said audited).trans (Account.said_replay _)
  have tally (e : Ending) : (account w).tally e =
      (({} : Account τ).tally e).map (· + w.state.endings e) := by
    rw [audited]
    exact Account.tally_replay judged e
  have count {t : Topic} (ofRefresh : t.isOfRefresh = true) :
      w.state.count t = w.state.attempts.countP (Attempt.isSpokenOf t) := by
    rw [w.state.count_eq ofRefresh, said, Attempt.count_flatMap_events judged]
  have observed : w.state.meters.durations.length = w.state.completed := by
    rw [durations, List.length_filterMap_eq_countP]
    exact List.countP_congr fun a _ => by rw [a.isSome_duration?]
  have started : w.state.count .refreshStarted = w.state.completed + inFlight w := by
    have fetches : w.state.fetches = l.ended.length + l.current.toList.length :=
      sound.kept.orderly.fetches_eq
    have completed : w.state.completed = l.ended.length := sound.kept.orderly.completed
    rw [inFlight_eq sound, completed, ← fetches]
    exact count rfl
  have successes : w.state.meters.successes = w.state.endings .success :=
    (Option.some.inj (tally .success)).trans (Nat.zero_add _)
  have failures : w.state.meters.failures = w.state.endings .failure :=
    (Option.some.inj (tally .failure)).trans (Nat.zero_add _)
  have breaches : w.state.meters.breaches = w.state.endings .breach :=
    (Option.some.inj (tally .breach)).trans (Nat.zero_add _)
  exact {
    durations, observed, said, successes, failures, breaches
    started := by rw [observed, started]
    single := by
      rw [inFlight_eq sound]
      cases l.current <;> simp
    published := count rfl
    failed := count rfl
    indexing := fun a mem => (judged a mem).breach
    total := by rw [observed, w.state.completed_eq, successes, failures, breaches]
    violated := count rfl
    crashed := count rfl }

/-- The loop fetches five times, every three units: the first fetch fails after a unit, the others
bring a catalogue, a listing without records, one that cannot be read, and no end.  Between them a
caller is cancelled. -/
theorem refreshes_balance_mixed :
    let source : Source Int Outcome Unit := .answering Source.mixed
    let w := advance source 12 60 <| call source .refresh <| advance source 10 60 <|
      call source (.start 3) (init true)
    Balanced true w ∧ w.state.completed = 5 ∧ inFlight w = 1 ∧
      w.state.count .refreshStarted = 6 ∧ w.state.endings .success = 1 ∧
      w.state.endings .failure = 1 ∧ w.state.endings .breach = 1 ∧ w.state.endings .crash = 1 ∧
      w.state.endings .cancellation = 1 ∧ w.state.count .contractViolated = 1 ∧
      w.state.count .refreshCrashed = 1 := by
  intro source w
  have reached : Reachable source true w :=
    ((run_call (.start 3) _).trans (run_advance 10 60 _)).trans (run_call .refresh _)
      |>.trans (run_advance 12 60 _)
  exact ⟨refreshes_balance reached, by decide, by decide, by decide, by decide, by decide,
    by decide, by decide, by decide, by decide, by decide⟩

end World

end ApiCatalog
