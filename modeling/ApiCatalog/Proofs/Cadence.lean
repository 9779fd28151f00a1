/-
# ApiCatalog.Proofs.Cadence -- the loop keeps its interval

The iterations of the loop are its refreshes (`Keeper.rounds`): one begins when the
loop asks for it and ends with it, whether it has waited for the lock or not and
whatever has become of it.  `Keeper.dueAt` says when each is due.  No iteration begins
at any other time (`Helm.Scheduled`).

Nor is one left out.  While the loop is on its way to an iteration
(`Helm.Heads`), whatever runs takes off from one load: that of all the attempts there
are, of which there are no more than iterations and callers.  So with fuel for the
load the iteration begins (`nears_round`), and since waiting for it is prompt, it
begins when it is due.
-/
import ApiCatalog.Proofs.Schedule

namespace ApiCatalog

set_option autoImplicit false

/-- When the loop is due again after a refresh of its own, if that has ended and was not
cancelled. -/
def Attempt.nextDue? {τ σ : Type} [Clock τ] (interval : τ) (a : Attempt τ σ) : Option τ :=
  a.finish?.bind (nextDue interval a.arrived)

/-- When the iteration of a number is due, as far as that is known: the first when the loop is
started, and any other when the loop is due again after the one before. -/
def Keeper.dueAt {τ σ : Type} [Clock τ] (start interval : τ) (k : Keeper τ σ) : Nat → Option τ
  | 0 => some start
  | n + 1 => k.rounds[n]?.bind (Attempt.nextDue? interval)

/-! ## The iterations that have ended -/

theorem Attempt.isSome_finish? {τ σ : Type} (a : Attempt τ σ) : a.finish?.isSome = a.isEnded := by
  rw [← a.isSome_verdict?, ← a.verdict?_of_finish?, Option.isSome_map]

namespace World

variable {τ σ κ : Type} {w : World τ σ κ} {l : Line τ σ}

/-- The iterations that have ended are the first ones. -/
theorem getElem?_endings (orderly : (core w).Orderly l) (n : Nat) :
    (helm w).endings[n]? = w.state.rounds[n]?.bind Attempt.finish? := by
  have rounds : w.state.rounds =
      l.ended.filter Attempt.isOfLoop ++ l.pending.filter Attempt.isOfLoop := by
    rw [Keeper.rounds, show w.state.attempts = _ from orderly.attempts_eq, List.filter_append]
  show (w.state.rounds.filterMap Attempt.finish?)[n]? = _
  rw [rounds]
  refine Core.getElem?_filterMap_append (fun a mem => ?_) (fun a mem => ?_) n
  · rw [a.isSome_finish?]
    exact orderly.ended a (List.mem_of_mem_filter mem)
  · have unended := (orderly.unknown (List.mem_of_mem_filter mem)).1
    rwa [← a.isSome_finish?, Option.isSome_eq_false_iff, Option.isNone_iff_eq_none] at unended

theorem due_helm [Clock τ] (orderly : (core w).Orderly l) (start interval : τ) (n : Nat) :
    (helm w).due start interval n = w.state.dueAt start interval n := by
  cases n with
  | zero => rfl
  | succ n =>
    have ticks : (helm w).ticks[n]? = w.state.rounds[n]?.map Attempt.arrived := List.getElem?_map
    rw [Helm.due, ticks, getElem?_endings orderly, Keeper.dueAt]
    cases w.state.rounds[n]? <;> rfl

/-- Who is no iteration of the loop is a call to refresh. -/
theorem length_attempts_le {source : Source τ σ κ} {strict : Bool}
    (sound : (core w).Sound source strict l) :
    w.state.attempts.length ≤ w.state.rounds.length + w.state.callers.length := by
  have asked : w.state.asked = l.attempts.filterMap Attempt.asked? := sound.kept.told.asked
  have attempts : w.state.attempts = l.attempts := sound.kept.orderly.attempts
  have others : w.state.attempts.countP (fun a => !a.isOfLoop) = w.state.asked.length := by
    rw [asked, attempts, List.length_filterMap_eq_countP]
    refine List.countP_congr fun a _ => ?_
    cases owner : a.owner <;> simp [Attempt.isOfLoop, Attempt.asked?, owner]
  have few : w.state.asked.length ≤ w.state.callers.length := by
    refine (List.length_filterMap_le _ _).trans ?_
    rw [List.length_zipIdx]
  have all := List.length_eq_countP_add_countP Attempt.isOfLoop (l := w.state.attempts)
  have mine : w.state.attempts.countP Attempt.isOfLoop = w.state.rounds.length :=
    List.countP_eq_length_filter
  simp only [Bool.not_eq_true, Bool.decide_eq_false] at all
  omega

end World

/-! ## On the way to an iteration -/

namespace Helm

variable {τ : Type} {g h : Helm τ} {n : Nat}

/-- The loop has not been asked to stop, and the iteration of a number has begun or is the next for
which the loop waits. -/
structure Heads (n : Nat) (h : Helm τ) : Prop where
  unasked : h.stopAsked = false
  ahead : n < h.ticks.length ∨
    h.ticks.length = n ∧ ∃ l, h.loop = some l ∧ l.phase.isPoised = true

variable [Clock τ]

theorem Heads.move (heads : g.Heads n) (move : Move g h) : h.Heads n := by
  obtain ⟨unasked, begun | ⟨next, l, there, poised⟩⟩ := heads
  · have more := move.grows.ticks.length_le
    exact ⟨move.stopAsked.trans unasked, .inl (by omega)⟩
  · cases move with
    | quit turn there' poised' asked => cases unasked.symm.trans asked
    | tick turn there' poised' unasked =>
      refine ⟨unasked, .inl ?_⟩
      show n < (g.ticks ++ [g.now]).length
      rw [List.length_append, next]
      exact Nat.lt_succ_self n
    | learn refreshes verdict =>
      cases refreshes.symm.trans there
      cases poised
    | _ => exact ⟨unasked, .inr ⟨next, l, there, poised⟩⟩

omit [Clock τ] in
/-- While the iteration has not begun, the loop waits for it. -/
theorem Heads.waits (heads : h.Heads n) (waiting : ¬ n < h.ticks.length) :
    h.ticks.length = n ∧ ∃ l, h.loop = some l ∧ l.phase.isPoised = true :=
  heads.ahead.resolve_left waiting

variable {start interval moment : τ}

/-- A loop that is due again has never been cancelled. -/
theorem Scheduled.uncancelled (scheduled : h.Scheduled start interval) (counted : h.Counted)
    (due : h.due start interval h.ticks.length = some moment) :
    .raised .cancelled ∉ h.verdicts := by
  intro mem
  obtain ⟨⟨ended, verdict⟩, mem, rfl⟩ := List.mem_map.1 mem
  obtain ⟨n, ending⟩ := List.mem_iff_getElem?.1 mem
  have inside : n < h.endings.length := (List.getElem?_eq_some_iff.1 ending).1
  have few : h.endings.length ≤ h.ticks.length := by
    rw [counted.count]
    exact Nat.le_add_right _ _
  -- what is known of the iteration after it
  obtain ⟨next, known⟩ : ∃ next, h.due start interval (n + 1) = some next := by
    rcases Nat.lt_or_ge (n + 1) h.ticks.length with within | last
    · exact ⟨_, scheduled.kept (n + 1) _ (List.getElem?_eq_getElem within)⟩
    · have same : n + 1 = h.ticks.length := by omega
      exact ⟨moment, same ▸ due⟩
  obtain ⟨asked, -, rest⟩ := Option.bind_eq_some_iff.1 known
  rw [ending] at rest
  cases rest

/-- A loop that is due again waits for its turn, unless it has been asked to stop. -/
theorem Scheduled.poised (scheduled : h.Scheduled start interval) (counted : h.Counted)
    (parted : h.Parted) (unasked : h.stopAsked = false)
    (due : h.due start interval h.ticks.length = some moment) :
    ∃ l, h.loop = some l ∧ l.phase.isPoised = true := by
  obtain ⟨⟨i, phase⟩, there, -⟩ := Option.map_eq_some_iff.1 scheduled.loop
  refine ⟨⟨i, phase⟩, there, ?_⟩
  cases phase with
  | pending => rfl
  | resting => rfl
  | refreshing began =>
    have count : h.ticks.length = h.endings.length + 1 := by
      simpa [there, LoopPhase.isRefreshing] using counted.count
    rw [count] at due
    obtain ⟨asked, -, rest⟩ := Option.bind_eq_some_iff.1 due
    rw [List.getElem?_eq_none (Nat.le_refl _)] at rest
    cases rest
  | ended cancelled =>
    have ending : h.ending? = some cancelled := by simp [ending?, there, LoopPhase.ending?]
    cases cancelled with
    | false => cases unasked.symm.trans (parted.stopped ending)
    | true => exact absurd (parted.cancelled.1 ending) (scheduled.uncancelled counted due)

end Helm

namespace World

variable {τ σ κ : Type} [Clock τ] {source : Source τ σ κ} {strict : Bool} {v w : World τ σ κ}
  {count n : Nat}

/-- A turn of a loop that waits for it, and is not asked to stop, begins an iteration. -/
theorem length_rounds_loopTurn {l : Loop τ} (there : w.state.loop = some l)
    (poised : l.phase.isPoised = true) (unasked : w.state.stopAsked = false) :
    w.state.rounds.length < (loopTurn source w).state.rounds.length := by
  have ticks : loopTurn source w =
      (w.modify (·.setPhase (.refreshing w.now)) |> arrive source .loop) := by
    obtain ⟨interval, phase⟩ := l
    cases phase with
    | pending => simp [loopTurn, there, unasked]
    | resting => simp [loopTurn, there, unasked]
    | _ => cases poised
  have moves : (helm w).tick.Moves (helm (loopTurn source w)) := ticks ▸ steer_tick there
  have grows := moves.grows.ticks.length_le
  simp only [Helm.tick, helm, List.length_append, List.length_map, List.length_cons,
    List.length_nil] at grows
  omega

variable [DecidableEq κ]

/-- A reachable world whose loop is on its way to an iteration, with so many callers at most. -/
structure Heading (source : Source τ σ κ) (strict : Bool) (count n : Nat) (w : World τ σ κ) :
    Prop where
  reached : Reachable source strict w
  heads : (helm w).Heads n
  few : w.state.callers.length ≤ count

theorem steer_of_goes {l : Line τ σ} (sound : (core v).Sound source strict l)
    (goes : Timeline.Goes (act source) v w) : (helm v).Moves (helm w) := by
  cases goes with
  | turn line => exact steer_runTurn (line ▸ .refl _) sound
  | alarm taken => exact steer_ring (Timeline.perm_of_takeEarliest taken)

theorem Heading.goes (heading : Heading source strict count n v)
    (goes : Timeline.Goes (act source) v w) : Heading source strict count n w := by
  obtain ⟨l, sound⟩ := heading.reached.sound
  have moves := steer_of_goes sound goes
  exact ⟨heading.reached.run (run_of_goes goes),
    moves.keeps (fun _ _ move heads => heads.move move) heading.heads,
    (callers_of_goes goes).trans_le heading.few⟩

variable {cost : Nat → κ → Nat} {fresh : Nat}

/-- What is left to run before an iteration begins. -/
def lead (cost : Nat → κ → Nat) (count fresh n : Nat) (w : World τ σ κ) : Nat :=
  if n < w.state.rounds.length then 0 else burden cost count fresh (n + count) w + 1

omit [Clock τ] [DecidableEq κ] in
theorem lead_le (w : World τ σ κ) :
    lead cost count fresh n w ≤ burden cost count fresh (n + count) w + 1 := by
  unfold lead
  split
  · exact Nat.zero_le _
  · exact Nat.le_refl _

theorem Heading.waits (heading : Heading source strict count n w)
    (waiting : ¬ n < w.state.rounds.length) :
    w.state.rounds.length = n ∧ ∃ l, w.state.loop = some l ∧ l.phase.isPoised = true := by
  have ticks : (helm w).ticks.length = w.state.rounds.length := List.length_map _
  rw [← ticks] at waiting ⊢
  exact heading.heads.waits waiting

/-- A loop that waits for its turn has it in line or an alarm for it. -/
theorem Heading.targets_ne_nil (heading : Heading source strict count n w)
    (waiting : ¬ n < w.state.rounds.length) : w.targets ≠ [] := by
  obtain ⟨-, l, there, poised⟩ := heading.waits waiting
  intro idle
  obtain ⟨line, alarms⟩ : w.ready = [] ∧ w.alarms = [] := by simpa [Timeline.targets] using idle
  have berths := heading.reached.steered.berthed heading.heads.unasked
  rw [show (helm w).loop = _ from there, show (helm w).turns = 0 by simp [helm, line],
    show (helm w).dues = 0 by simp [helm, alarms]] at berths
  obtain ⟨interval, phase⟩ := l
  cases phase with
  | pending => cases berths.1
  | resting => cases berths
  | _ => cases poised

/-- Until the iteration begins to which the loop is on its way, whatever runs takes off from what
is left to run. -/
theorem Heading.lead_lt (heading : Heading source strict count n v)
    (finite : ∀ m, source.Finite m (cost m)) (positive : ∀ m token, 0 < cost m token)
    (light : ∀ m ≤ n + count, (source.start m).load (cost m) ≤ fresh)
    (goes : Timeline.Goes (act source) v w) (waiting : ¬ n < v.state.rounds.length) :
    lead cost count fresh n w < lead cost count fresh n v := by
  have before : lead cost count fresh n v = burden cost count fresh (n + count) v + 1 :=
    if_neg waiting
  have after : lead cost count fresh n w ≤ burden cost count fresh (n + count) w + 1 := lead_le w
  obtain ⟨next, l, there, poised⟩ := heading.waits waiting
  cases goes with
  | alarm taken =>
    have lighter : burden cost count fresh (n + count) _ < _ := burden_ring taken
    omega
  | @turn turn rest line =>
    by_cases ticks : turn = ⟨.loop, 0⟩
    · -- the iteration begins
      subst ticks
      have begun : v.state.rounds.length <
          (loopTurn source { v with ready := rest }).state.rounds.length :=
        length_rounds_loopTurn (w := { v with ready := rest }) there poised heading.heads.unasked
      have none : lead cost count fresh n (loopTurn source { v with ready := rest }) = 0 :=
        if_pos (next ▸ begun)
      show lead cost count fresh n (loopTurn source { v with ready := rest }) < _
      omega
    · obtain ⟨m, sound⟩ := heading.reached.sound
      have few := heading.few
      have attempts := length_attempts_le sound
      have bounded : Bounded source cost count fresh (n + count) v := by
        refine ⟨light, few, List.countP_le_length.trans ?_⟩
        omega
      have lighter := burden_runTurn_other finite positive heading.reached bounded line
        fun mine now => ticks (by rw [← mine, ← now])
      omega

theorem nears_round (finite : ∀ m, source.Finite m (cost m))
    (positive : ∀ m token, 0 < cost m token)
    (light : ∀ m ≤ n + count, (source.start m).load (cost m) ≤ fresh) :
    Timeline.Nears (act source) (Heading source strict count n)
      (fun k => decide (n < k.rounds.length)) (lead cost count fresh n) where
  keeps := Heading.goes
  stays {t u} heading goes begun := by
    obtain ⟨l, sound⟩ := heading.reached.sound
    have grows := (steer_of_goes sound goes).grows.ticks.length_le
    simp only [helm, List.length_map] at grows
    have begun := of_decide_eq_true begun
    exact decide_eq_true (by omega)
  nearer heading goes waiting :=
    heading.lead_lt finite positive light goes (of_decide_eq_false waiting)
  waits heading waiting := heading.targets_ne_nil (of_decide_eq_false waiting)

/-! ## The schedule -/

/-- What has become of the iterations of a loop that was started at some time. -/
structure OnSchedule (source : Source τ σ κ) (start interval : τ) (w : World τ σ κ) : Prop where
  /-- Every iteration has begun when it was due, -/
  kept : ∀ (n : Nat) (a : Attempt τ σ), w.state.rounds[n]? = some a →
    w.state.dueAt start interval n = some a.arrived
  /-- and not before all earlier ones had ended. -/
  apart : w.state.rounds.Pairwise fun a b =>
    ∃ ended verdict, a.finish? = some (ended, verdict) ∧ ¬ b.arrived < ended
  /-- Unless the loop is asked to stop, the next iteration is not late, and begins when it is due,
  whoever else is refreshing. -/
  next : w.state.calls.any Call.isStop = false → ∀ moment,
    w.state.dueAt start interval w.state.rounds.length = some moment → ¬ moment < w.now ∧
      ∃ enough, ∀ fuel ≥ enough, ∃ a : Attempt τ σ,
        (Timeline.await (act source) (fun k => decide (w.state.rounds.length < k.rounds.length))
          fuel fuel w).state.rounds[w.state.rounds.length]? = some a ∧ a.arrived = moment
  /-- After a call to stop no iteration begins, not even one that is due at the moment of the call. -/
  stopped : w.state.calls.any Call.isStop = true → ∀ x, Run source w x →
    x.state.rounds.length = w.state.rounds.length

theorem kept_of_scheduled (reached : Reachable source strict w) {start interval : τ}
    (scheduled : (helm w).Scheduled start interval) {n : Nat} {a : Attempt τ σ}
    (there : w.state.rounds[n]? = some a) :
    w.state.dueAt start interval n = some a.arrived := by
  obtain ⟨l, sound⟩ := reached.sound
  rw [← due_helm sound.kept.orderly]
  refine scheduled.kept n a.arrived ?_
  show (w.state.rounds.map Attempt.arrived)[n]? = _
  rw [List.getElem?_map, there]
  rfl

theorem apart_of_helm (reached : Reachable source strict w) (apart : (helm w).Apart) :
    w.state.rounds.Pairwise fun a b =>
      ∃ ended verdict, a.finish? = some (ended, verdict) ∧ ¬ b.arrived < ended := by
  obtain ⟨l, sound⟩ := reached.sound
  refine List.pairwise_iff_getElem.2 fun m n first second before => ?_
  have ticks : (helm w).ticks.length = w.state.rounds.length := List.length_map _
  have count : (helm w).ticks.length ≤ (helm w).endings.length + 1 := by
    rw [reached.counted.count]
    exact Nat.add_le_add_left (Bool.toNat_le _) _
  have inside : m < (helm w).endings.length := by omega
  have there := List.getElem?_eq_getElem inside
  have finish := getElem?_endings sound.kept.orderly m
  rw [there, List.getElem?_eq_getElem first, Option.bind_some] at finish
  refine ⟨_, _, finish.symm, apart.apart m n _ _ before there ?_⟩
  show (w.state.rounds.map Attempt.arrived)[n]? = _
  rw [List.getElem?_map, List.getElem?_eq_getElem second]
  rfl

variable [Clock.Exact τ]

/-- Where each fetch comes to its end, the next iteration begins when it is due, whatever else goes
on. -/
theorem round_of_await (finite : ∀ m, source.Finite m (cost m))
    (positive : ∀ m token, 0 < cost m token) (reached : Reachable source strict v)
    (idle : v.state.lifecycle = .idle) {interval : τ}
    (onward : PromptRun source (call source (.start interval) v) w)
    (unasked : w.state.stopAsked = false) {moment : τ}
    (due : w.state.dueAt v.now interval w.state.rounds.length = some moment) :
    ¬ moment < w.now ∧ ∃ enough, ∀ fuel ≥ enough, ∃ a : Attempt τ σ,
      (Timeline.await (act source) (fun k => decide (w.state.rounds.length < k.rounds.length))
        fuel fuel w).state.rounds[w.state.rounds.length]? = some a ∧ a.arrived = moment := by
  have reached' : Reachable source strict w :=
    (reached.run (run_call (.start interval) v)).run onward.run
  obtain ⟨l, sound⟩ := reached'.sound
  obtain ⟨scheduled, -⟩ := scheduled_of_start reached idle onward
  have length : (helm w).ticks.length = w.state.rounds.length := List.length_map _
  rw [← due_helm sound.kept.orderly, ← length] at due
  have waits : ∃ l, w.state.loop = some l ∧ l.phase.isPoised = true :=
    scheduled.poised reached'.counted reached'.steered.parted unasked due
  constructor
  · obtain ⟨loop, there, poised⟩ := waits
    obtain ⟨moment', due', awaits⟩ := scheduled.next unasked loop there poised
    cases due.symm.trans due'
    exact awaits.ahead
  · have heading : Heading source strict w.state.callers.length w.state.rounds.length w :=
      ⟨reached', ⟨unasked, .inr ⟨length, waits⟩⟩, Nat.le_refl _⟩
    obtain ⟨fresh, light⟩ :=
      exists_fresh source cost (w.state.rounds.length + w.state.callers.length)
    have nears : Timeline.Nears (act source)
        (Heading source strict w.state.callers.length w.state.rounds.length)
        (fun k => decide (w.state.rounds.length < k.rounds.length))
        (lead cost w.state.callers.length fresh w.state.rounds.length) :=
      nears_round finite positive light
    refine ⟨lead cost w.state.callers.length fresh w.state.rounds.length w + 1,
      fun fuel more => ?_⟩
    have enough : lead cost w.state.callers.length fresh w.state.rounds.length w < fuel := more
    have begun := of_decide_eq_true (nears.await heading (Nat.le_of_lt enough) enough)
    have prompt := promptRun_of_goes
      (nears.promptly_await (now_act source) fuel heading (Nat.le_of_lt enough))
    generalize Timeline.await (act source) _ fuel fuel w = x at begun prompt ⊢
    -- the iteration that has begun was due at the moment at which it was due before
    have there := List.getElem?_eq_getElem begun
    refine ⟨_, there, ?_⟩
    have reached'' := reached'.run prompt.run
    obtain ⟨m, sound'⟩ := reached''.sound
    have kept := kept_of_scheduled reached''
      (scheduled_of_start reached idle (onward.trans prompt)).1 there
    have still := (reached'.grows prompt.run).due due
    rw [due_helm sound'.kept.orderly, length, kept] at still
    exact Option.some.inj still

/-- The loop keeps its interval: whatever the delays and the outcomes of its refreshes and whoever
else refreshes, an iteration begins an interval after the one before has begun, or where that has
ended later, when it has ended. -/
theorem refreshes_on_schedule {replies : Nat → Reply τ (Option (List Listing))}
    {v w : World τ Outcome Unit} (reached : Reachable (.answering replies) strict v)
    (idle : v.state.lifecycle = .idle) {interval : τ}
    (onward : PromptRun (.answering replies) (call (.answering replies) (.start interval) v) w) :
    OnSchedule (.answering replies) v.now interval w := by
  have reached' : Reachable (.answering replies) strict w :=
    (reached.run (run_call (.start interval) v)).run onward.run
  obtain ⟨scheduled, apart⟩ := scheduled_of_start reached idle onward
  have asked : w.state.stopAsked = w.state.calls.any Call.isStop := reached'.steered.lived.asked
  refine ⟨fun n a there => kept_of_scheduled reached' scheduled there,
    apart_of_helm reached' apart, fun unstopped moment due => ?_, fun stopped x further => ?_⟩
  · exact round_of_await (Source.finite_answering replies) (fun _ _ => Nat.one_pos) reached idle
      onward (asked.trans unstopped) due
  · have same := loopAttempts_of_run reached' further (.inl (asked.trans stopped))
    simpa only [Keeper.loopAttempts, Keeper.rounds, List.countP_eq_length_filter] using same

/-- The interval is one unit, and the first iteration waits two for a caller who fetches.  The second
begins when that has ended, and the third a unit later, unless the loop is stopped before. -/
theorem refreshes_on_schedule_unsteady :
    let source : Source Int Outcome Unit := .answering Source.unsteady
    let asked := call source .refresh (init true)
    let queued := settle source 20 <| call source (.start 1) asked
    let second := settle source 20 <| queued.reach 2
    let third := settle source 20 <| second.reach 3
    let stopped := settle source 20 <| call source .stop second
    OnSchedule source 0 1 third ∧ OnSchedule source 0 1 stopped ∧
      third.state.rounds.map (·.arrived) = [0, 2, 3] ∧
      third.state.rounds.map (fun a => a.finish?.map Prod.fst) = [some 2, some 2, some 3] ∧
      stopped.state.rounds.map (·.arrived) = [0, 2] ∧ stopped.state.lifecycle = .stopped := by
  intro source asked queued second third stopped
  have reached : Reachable source true asked := run_call .refresh _
  have idle : asked.state.lifecycle = .idle := by decide
  have line : queued.ready.isEmpty = true := by decide
  have alarms : (queued.alarms.all fun alarm => !decide (alarm.due < 2)) = true := by decide
  have line' : second.ready.isEmpty = true := by decide
  have alarms' : (second.alarms.all fun alarm => !decide (alarm.due < 3)) = true := by decide
  have first : PromptRun source (call source (.start 1) asked) queued := promptRun_settle 20 _
  have onward : PromptRun source (call source (.start 1) asked) second :=
    first.trans <| promptRun_reach (List.isEmpty_iff.1 line)
      (fun alarm set => by simpa using List.all_eq_true.1 alarms alarm set) 20
  have onward' : PromptRun source (call source (.start 1) asked) third :=
    onward.trans <| promptRun_reach (List.isEmpty_iff.1 line')
      (fun alarm set => by simpa using List.all_eq_true.1 alarms' alarm set) 20
  have onward'' : PromptRun source (call source (.start 1) asked) stopped :=
    onward.trans <| (promptRun_call .stop second).trans (promptRun_settle 20 _)
  exact ⟨refreshes_on_schedule reached idle onward', refreshes_on_schedule reached idle onward'',
    by decide, by decide, by decide, by decide⟩

end World

end ApiCatalog
