/-
# ApiCatalog.Proofs.Schedule -- when the loop is due to ask for a refresh

The loop is due when it is started, and then an interval after it asked last, or
where that has passed, when that refresh has ended (`Helm.due`).  After a refresh
that was cancelled it is due no more.

In a prompt run the loop asks when it is due and at no other time.  What carries
this through (`Helm.Scheduled`) is where a loop that waits for its turn has it from:
its turn in line is for this moment, and its alarm is set for the moment at which it
is due.  An order leaves this alone, so does a move at one moment (`Scheduled.move`),
and time that waits for the turn and the alarm (`Scheduled.elapse`).
-/
import ApiCatalog.Proofs.PromptSteering

namespace ApiCatalog

set_option autoImplicit false

/-- When the loop is due again, given when it asked for a refresh, when that ended and what became
of it. -/
def nextDue {τ : Type} [Clock τ] (interval asked : τ) : τ × Verdict → Option τ
  | (_, .raised .cancelled) => none
  | (ended, _) => some (later (asked + interval) ended)

theorem nextDue_of_ne {τ : Type} [Clock τ] {verdict : Verdict}
    (other : verdict ≠ .raised .cancelled) (interval asked ended : τ) :
    nextDue interval asked (ended, verdict) = some (later (asked + interval) ended) := by
  unfold nextDue
  split
  · rename_i same
    cases same
    exact absurd rfl other
  · rename_i same
    cases same
    rfl

theorem LoopPhase.isRefreshing_of_isPoised {τ : Type} {phase : LoopPhase τ}
    (poised : phase.isPoised = true) : phase.isRefreshing = false := by
  cases phase <;> first | rfl | cases poised

theorem getElem?_of_prefix {α : Type} {xs ys : List α} (first : xs <+: ys) {n : Nat} {x : α}
    (there : xs[n]? = some x) : ys[n]? = some x := by
  obtain ⟨more, rfl⟩ := first
  rw [List.getElem?_append_left (List.getElem?_eq_some_iff.1 there).1, there]

namespace Helm

variable {τ : Type} [Clock τ]

/-- When the loop is due to ask for the refresh of a number, as far as that is known. -/
def due (start interval : τ) (h : Helm τ) : Nat → Option τ
  | 0 => some start
  | n + 1 => h.ticks[n]?.bind fun asked => h.endings[n]?.bind (nextDue interval asked)

variable {start interval moment : τ} {g h : Helm τ} {l : Loop τ}

/-! ## What was asked for and what has ended -/

/-- The second helm has asked for all that the first had asked for, and more may have ended. -/
structure Grows (g h : Helm τ) : Prop where
  ticks : g.ticks <+: h.ticks
  endings : g.endings <+: h.endings

omit [Clock τ] in
theorem Grows.of_eq (ticks : h.ticks = g.ticks) (endings : h.endings = g.endings) : g.Grows h :=
  ⟨ticks ▸ List.prefix_rfl, endings ▸ List.prefix_rfl⟩

omit [Clock τ] in
theorem Grows.trans {f : Helm τ} (first : f.Grows g) (second : g.Grows h) : f.Grows h :=
  ⟨first.ticks.trans second.ticks, first.endings.trans second.endings⟩

omit [Clock τ] in
theorem Order.grows {c : Call τ} (order : Order c g h) : g.Grows h := by
  cases order <;> exact .of_eq rfl rfl

theorem Move.grows (move : Move g h) : g.Grows h := by
  cases move with
  | tick turn there poised unasked => exact ⟨List.prefix_append _ _, List.prefix_rfl⟩
  | learn refreshes verdict =>
    obtain ⟨-, -, ticks, endings⟩ := frame_goOn verdict (g.judge verdict)
    exact ⟨ticks ▸ List.prefix_rfl, endings ▸ List.prefix_append _ _⟩
  | _ => exact .of_eq rfl rfl

theorem Moves.grows (moves : g.Moves h) : g.Grows h :=
  moves.keeps (P := fun h => g.Grows h) (fun _ _ move first => first.trans move.grows)
    (.of_eq rfl rfl)

/-- What is known of when the loop is due stays so. -/
theorem Grows.due (grows : g.Grows h) {n : Nat} (known : g.due start interval n = some moment) :
    h.due start interval n = some moment := by
  cases n with
  | zero => exact known
  | succ n =>
    obtain ⟨asked, there, rest⟩ := Option.bind_eq_some_iff.1 known
    obtain ⟨ending, there', next⟩ := Option.bind_eq_some_iff.1 rest
    refine Option.bind_eq_some_iff.2 ⟨asked, ?_, Option.bind_eq_some_iff.2 ⟨ending, ?_, next⟩⟩
    · exact getElem?_of_prefix grows.ticks there
    · exact getElem?_of_prefix grows.endings there'

/-- All refreshes have ended that the loop has asked for, except the one that it waits for. -/
structure Counted (h : Helm τ) : Prop where
  barren : h.loop = none → h.ticks = []
  count : h.ticks.length = h.endings.length + (h.loop.any (·.phase.isRefreshing)).toNat

namespace Counted

omit [Clock τ] in
theorem congr (counted : g.Counted) (barren : h.loop = none → g.loop = none)
    (busy : h.loop.any (·.phase.isRefreshing) = g.loop.any (·.phase.isRefreshing))
    (ticks : h.ticks = g.ticks) (endings : h.endings = g.endings) : h.Counted := by
  constructor
  · intro none
    rw [ticks]
    exact counted.barren (barren none)
  · rw [ticks, endings, busy]
    exact counted.count

omit [Clock τ] in
/-- A loop that waits for its turn sees no refresh begin or end. -/
theorem setPhase (counted : g.Counted) (there : g.loop = some l) (phase : LoopPhase τ)
    (same : phase.isRefreshing = l.phase.isRefreshing) : (g.setPhase phase).Counted := by
  refine counted.congr ?_ ?_ rfl rfl <;> simp [Helm.setPhase, there, same]

omit [Clock τ] in
theorem order (counted : g.Counted) (lived : g.Lived) {c : Call τ} (order : Order c g h) :
    h.Counted := by
  cases order with
  | found idle interval =>
    have none := (lived.loop_of_idle idle).1
    exact counted.congr (fun _ => none) (by simp [Helm.notify, Helm.found, Helm.wake, none,
      LoopPhase.isRefreshing]) rfl rfl
  | rouse rests => exact (counted.setPhase rests .pending rfl).congr id rfl rfl rfl
  | _ => exact counted.congr id rfl rfl rfl

/-- One refresh more has ended, and the loop waits for none. -/
theorem learn (counted : g.Counted) {interval began : τ}
    (refreshes : g.loop = some ⟨interval, .refreshing began⟩) (verdict : Verdict) :
    (g.learn verdict).Counted := by
  have there : (g.judge verdict).loop = some ⟨interval, .refreshing began⟩ := refreshes
  have count : g.ticks.length = g.endings.length + 1 := by
    simpa [refreshes, LoopPhase.isRefreshing] using counted.count
  have idle (phase : LoopPhase τ) (idle : phase.isRefreshing = false) :
      ((g.judge verdict).setPhase phase).Counted := by
    constructor
    · simp [Helm.setPhase, there]
    · simp [Helm.setPhase, refreshes, idle, judge, count]
  show ((g.judge verdict).goOn verdict).Counted
  rcases goOn_cases there verdict with ⟨-, ends⟩ | ⟨-, ⟨-, ends⟩ | ⟨left, rests⟩ | next⟩
  · rw [ends]
    exact (idle (.ended true) rfl).congr id rfl rfl rfl
  · rw [ends]
    exact (idle (.ended false) rfl).congr id rfl rfl rfl
  · rw [rests]
    exact (idle .resting rfl).congr id rfl rfl rfl
  · rw [next]
    exact (idle .pending rfl).congr id rfl rfl rfl

theorem move (counted : g.Counted) (move : Move g h) : h.Counted := by
  cases move with
  | quit turn there poised asked =>
    exact (counted.setPhase there (.ended false)
      (LoopPhase.isRefreshing_of_isPoised poised).symm).congr id rfl rfl rfl
  | @tick l rest turn there poised unasked =>
    have count : g.ticks.length = g.endings.length := by
      simpa [there, LoopPhase.isRefreshing_of_isPoised poised] using counted.count
    constructor
    · simp [Helm.tick, Helm.setPhase, there]
    · simp [Helm.tick, Helm.setPhase, there, LoopPhase.isRefreshing, count]
  | learn refreshes verdict => exact counted.learn refreshes verdict
  | _ => exact counted.congr id rfl rfl rfl

end Counted

/-! ## The loop waits for the moment at which it is due -/

/-- A loop that waits for its turn has it in line at the moment, or an alarm set for that. -/
structure Awaits (moment : τ) (h : Helm τ) : Prop where
  ahead : ¬ moment < h.now
  turn : h.turns ≠ 0 → h.now = moment
  alarm : ∀ due ∈ h.dues, due = moment

/-- The loop has asked for each of its refreshes when it was due, and waits to be due again. -/
structure Scheduled (start interval : τ) (h : Helm τ) : Prop where
  loop : h.loop.map Loop.interval = some interval
  kept : ∀ n asked, h.ticks[n]? = some asked → h.due start interval n = some asked
  last : ∀ i began, h.loop = some ⟨i, .refreshing began⟩ → h.ticks.getLast? = some began
  next : h.stopAsked = false → ∀ l, h.loop = some l → l.phase.isPoised = true →
    ∃ moment, h.due start interval h.ticks.length = some moment ∧ h.Awaits moment

namespace Scheduled

/-- The loop is where it was, with no more turns or alarms, and no time has passed. -/
theorem congr (scheduled : g.Scheduled start interval) (loop : h.loop = g.loop)
    (ticks : h.ticks = g.ticks) (endings : h.endings = g.endings) (now : h.now = g.now)
    (asked : h.stopAsked = false → g.stopAsked = false) (turns : h.turns ≠ 0 → g.turns ≠ 0)
    (dues : h.dues = g.dues) : h.Scheduled start interval := by
  have grows : g.Grows h := .of_eq ticks endings
  refine ⟨?_, fun n asked there => ?_, ?_, fun unasked l there poised => ?_⟩
  · rw [loop]
    exact scheduled.loop
  · rw [ticks] at there
    exact grows.due (scheduled.kept n asked there)
  · rw [loop, ticks]
    exact scheduled.last
  · rw [loop] at there
    obtain ⟨moment, due, awaits⟩ := scheduled.next (asked unasked) l there poised
    refine ⟨moment, ticks ▸ grows.due due, ?_, ?_, ?_⟩
    · rw [now]
      exact awaits.ahead
    · rw [now]
      exact fun inLine => awaits.turn (turns inLine)
    · rw [dues]
      exact awaits.alarm

/-- The loop goes on, and waits for the moment at which it is due if it has to wait for its turn. -/
theorem setPhase (scheduled : g.Scheduled start interval) (phase : LoopPhase τ)
    (idle : phase.isRefreshing = false) (loop : h.loop = (g.setPhase phase).loop)
    (ticks : h.ticks = g.ticks) (endings : h.endings = g.endings)
    (next : h.stopAsked = false → phase.isPoised = true →
      ∃ moment, g.due start interval g.ticks.length = some moment ∧ h.Awaits moment) :
    h.Scheduled start interval := by
  have grows : g.Grows h := .of_eq ticks endings
  have phased {l : Loop τ} (there : h.loop = some l) : l.phase = phase := by
    rw [loop, Helm.setPhase, Option.map_eq_some_iff] at there
    obtain ⟨l, -, rfl⟩ := there
    rfl
  refine ⟨?_, fun n asked there => ?_, fun i began there => ?_, fun unasked l there poised => ?_⟩
  · rw [loop, Helm.setPhase, Option.map_map]
    exact scheduled.loop
  · rw [ticks] at there
    exact grows.due (scheduled.kept n asked there)
  · cases idle.symm.trans (congrArg LoopPhase.isRefreshing (phased there)).symm
  · obtain ⟨moment, due, awaits⟩ := next unasked (phased there ▸ poised)
    exact ⟨moment, ticks ▸ grows.due due, awaits⟩

theorem endLoop (scheduled : g.Scheduled start interval) (cancelled : Bool) :
    (g.endLoop cancelled).Scheduled start interval :=
  scheduled.setPhase (.ended cancelled) rfl rfl rfl rfl fun _ poised => by cases poised

theorem order (scheduled : g.Scheduled start interval) (lived : g.Lived) {c : Call τ}
    (order : Order c g h) : h.Scheduled start interval := by
  have founded : g.loop ≠ none := by
    intro none
    have loop := scheduled.loop
    rw [none] at loop
    cases loop
  cases order with
  | found idle interval => exact absurd (lived.loop_of_idle idle).1 founded
  | ignore busy interval => exact scheduled.congr rfl rfl rfl rfl id id rfl
  | retire none => exact absurd none founded
  | ask there awake => exact scheduled.congr rfl rfl rfl rfl (by simp) id rfl
  | rouse rests => exact scheduled.setPhase .pending rfl rfl rfl rfl fun unasked => by cases unasked

/-- Time that waits for the turn and the alarm of the loop does not pass the moment at which it is
due. -/
theorem elapse (scheduled : g.Scheduled start interval) (berthed : g.Berthed) (line : g.turns = 0)
    (alarms : ∀ due ∈ g.dues, ¬ due < moment) :
    ({ g with now := moment } : Helm τ).Scheduled start interval := by
  refine ⟨scheduled.loop, scheduled.kept, scheduled.last, fun unasked l there poised => ?_⟩
  obtain ⟨next, due, awaits⟩ := scheduled.next unasked l there poised
  refine ⟨next, due, ?_, fun inLine => absurd line inLine, awaits.alarm⟩
  -- without a turn in line there is an alarm
  have berths := berthed unasked
  rw [there, line] at berths
  have set : ∃ alarm, alarm ∈ g.dues := by
    obtain ⟨i, phase⟩ := l
    cases phase with
    | pending => cases berths.1
    | resting =>
      have one : Multiset.card (0 : Multiset Nat) + g.dues.card = 1 := berths
      refine Multiset.card_pos_iff_exists_mem.1 ?_
      rw [Multiset.card_zero] at one
      omega
    | _ => cases poised
  obtain ⟨alarm, set⟩ := set
  rw [← awaits.alarm alarm set]
  exact alarms alarm set

/-- The loop asks for a refresh at the moment at which it is due. -/
theorem tick (scheduled : g.Scheduled start interval) {rest : Multiset Nat}
    (turn : g.turns = 0 ::ₘ rest) (there : g.loop = some l) (poised : l.phase.isPoised = true)
    (unasked : g.stopAsked = false) :
    ({ g with turns := rest }.tick).Scheduled start interval := by
  obtain ⟨moment, due, awaits⟩ := scheduled.next unasked l there poised
  have now : g.now = moment := awaits.turn (turn ▸ Multiset.cons_ne_zero)
  have grows : g.Grows ({ g with turns := rest }.tick) :=
    (Move.tick turn there poised unasked).grows
  refine ⟨?_, fun n asked place => ?_, fun i began same => ?_, fun _ l' same waits => ?_⟩
  · show (g.loop.map _).map Loop.interval = _
    rw [Option.map_map]
    exact scheduled.loop
  · apply grows.due
    have place : (g.ticks ++ [g.now])[n]? = some asked := place
    rcases Nat.lt_or_ge n g.ticks.length with inside | outside
    · rw [List.getElem?_append_left inside] at place
      exact scheduled.kept n asked place
    · -- the last one is the one that is new
      obtain ⟨rfl, rfl⟩ : n = g.ticks.length ∧ g.now = asked := by
        rw [List.getElem?_append_right outside, List.getElem?_singleton] at place
        split at place
        · rename_i first
          exact ⟨by omega, Option.some.inj place⟩
        · cases place
      rw [due, now]
  · have asks : g.loop.map (fun l => { l with phase := .refreshing g.now }) =
      some ⟨i, .refreshing began⟩ := same
    rw [there] at asks
    cases asks
    exact List.getLast?_concat
  · have asks : g.loop.map (fun l => { l with phase := .refreshing g.now }) = some l' := same
    rw [there] at asks
    cases asks
    cases waits

/-- What became of a refresh says when the loop is due again. -/
theorem due_judge (scheduled : g.Scheduled start interval) (counted : g.Counted) {i began : τ}
    (refreshes : g.loop = some ⟨i, .refreshing began⟩) {verdict : Verdict}
    (other : verdict ≠ .raised .cancelled) :
    (g.judge verdict).due start interval (g.judge verdict).ticks.length =
      some (later (began + interval) g.now) := by
  have count : g.ticks.length = g.endings.length + 1 := by
    simpa [refreshes, LoopPhase.isRefreshing] using counted.count
  have asked : g.ticks[g.endings.length]? = some began := by
    have last := scheduled.last i began refreshes
    rwa [List.getLast?_eq_getElem?, count, Nat.add_sub_cancel] at last
  have ended : (g.judge verdict).endings[g.endings.length]? = some (g.now, verdict) :=
    List.getElem?_concat_length
  show (g.judge verdict).due start interval g.ticks.length = _
  rw [count, due, show (g.judge verdict).ticks = g.ticks from rfl, asked, Option.bind_some, ended,
    Option.bind_some, nextDue_of_ne other]

theorem judge (scheduled : g.Scheduled start interval) {i began : τ}
    (refreshes : g.loop = some ⟨i, .refreshing began⟩) (verdict : Verdict) :
    (g.judge verdict).Scheduled start interval := by
  have grows : g.Grows (g.judge verdict) := ⟨List.prefix_rfl, List.prefix_append _ _⟩
  refine ⟨scheduled.loop, fun n asked there => grows.due (scheduled.kept n asked there),
    scheduled.last, fun _ l there poised => ?_⟩
  cases refreshes.symm.trans there
  cases poised

variable [Clock.Exact τ]

/-- After a refresh the loop waits for what is left of its interval, or goes on at once. -/
theorem learn (scheduled : g.Scheduled start interval) (counted : g.Counted)
    (berthed : g.Berthed) {i began : τ} (refreshes : g.loop = some ⟨i, .refreshing began⟩)
    (verdict : Verdict) : (g.learn verdict).Scheduled start interval := by
  have judged := scheduled.judge refreshes verdict
  have there : (g.judge verdict).loop = some ⟨i, .refreshing began⟩ := refreshes
  obtain rfl : i = interval := by
    have loop := scheduled.loop
    rw [refreshes] at loop
    exact Option.some.inj loop
  have bare (unasked : g.stopAsked = false) : g.turns = 0 ∧ g.dues = 0 := by
    have berths := berthed unasked
    rwa [refreshes] at berths
  by_cases cancelled : verdict = .raised .cancelled
  · have ends : g.learn verdict = (g.judge verdict).endLoop true := by
      rw [Helm.learn, goOn, there, cancelled]
    rw [ends]
    exact judged.endLoop true
  · have due := scheduled.due_judge counted refreshes cancelled
    have rests : g.learn verdict = (g.judge verdict).rest i began := by
      rw [Helm.learn, goOn, there]
      dsimp only
      split
      · exact absurd rfl cancelled
      · rfl
    rw [rests, rest]
    split
    · rename_i left
      have early : g.now < began + i := Clock.Exact.left_pos_iff.1 left
      split
      · exact judged.endLoop false
      · -- the alarm is set for the moment at which the interval has passed
        refine judged.setPhase .resting rfl rfl rfl rfl fun unasked _ => ?_
        obtain ⟨turns, dues⟩ := bare unasked
        rw [Clock.Exact.later_eq_left (Clock.Exact.lt_asymm early)] at due
        refine ⟨_, due, Clock.Exact.lt_asymm early, fun inLine => absurd turns inLine, ?_⟩
        intro alarm set
        have set : alarm ∈ (g.now + (i - (g.now - began))) ::ₘ g.dues := set
        rw [dues, Clock.Exact.add_left] at set
        exact Multiset.mem_singleton.1 set
    · rename_i none
      have late : ¬ g.now < began + i := fun early => none (Clock.Exact.left_pos_iff.2 early)
      refine judged.setPhase .pending rfl rfl rfl rfl fun unasked _ => ?_
      obtain ⟨turns, dues⟩ := bare unasked
      rw [Clock.Exact.later_eq_right late] at due
      refine ⟨_, due, Clock.Exact.lt_irrefl _, fun _ => rfl, fun alarm set => ?_⟩
      have set : alarm ∈ g.dues := set
      rw [dues] at set
      cases set

/-- What happens at one moment keeps the loop to its schedule. -/
theorem move (scheduled : g.Scheduled start interval) (counted : g.Counted) (berthed : g.Berthed)
    (move : Move g h) (now : h.now = g.now) : h.Scheduled start interval := by
  cases move with
  | call other => exact scheduled.congr rfl rfl rfl rfl id id rfl
  | defer turn | miss turn other =>
    exact scheduled.congr rfl rfl rfl rfl id (fun _ => turn ▸ Multiset.cons_ne_zero) rfl
  | quit turn there poised asked =>
    exact scheduled.setPhase (.ended false) rfl rfl rfl rfl fun _ poised => by cases poised
  | tick turn there poised unasked => exact scheduled.tick turn there poised unasked
  | learn refreshes verdict => exact scheduled.learn counted berthed refreshes verdict
  | @ring alarm others set =>
    refine ⟨scheduled.loop, scheduled.kept, scheduled.last, fun unasked l there poised => ?_⟩
    obtain ⟨moment, due, awaits⟩ := scheduled.next unasked l there poised
    have mine : alarm ∈ g.dues := set ▸ Multiset.mem_cons_self _ _
    have up : ¬ g.now < moment := by
      intro early
      have now : (if g.now < alarm then alarm else g.now) = g.now := now
      rw [awaits.alarm alarm mine, if_pos early] at now
      rw [now] at early
      exact Clock.Exact.lt_irrefl _ early
    refine ⟨moment, due, ?_, fun _ => ?_, fun other mem => ?_⟩
    · rw [now]
      exact awaits.ahead
    · rw [now]
      exact Clock.Exact.eq_of_not_lt up awaits.ahead
    · exact awaits.alarm other (set ▸ Multiset.mem_cons_of_mem mem)
  | pass later => exact scheduled.congr rfl rfl rfl now id id rfl

end Scheduled

/-! ## One refresh of the loop after the other -/

/-- No refresh of the loop has ended in the future, or after a later one was asked for. -/
structure Apart (h : Helm τ) : Prop where
  past : ∀ ending ∈ h.endings, ¬ h.now < ending.1
  apart : ∀ (m n : Nat) (ending : τ × Verdict) (asked : τ), m < n →
    h.endings[m]? = some ending → h.ticks[n]? = some asked → ¬ asked < ending.1

namespace Apart

theorem congr (apart : g.Apart) (ticks : h.ticks = g.ticks) (endings : h.endings = g.endings)
    (now : h.now = g.now) : h.Apart := by
  constructor
  · rw [endings, now]
    exact apart.past
  · rw [ticks, endings]
    exact apart.apart

theorem order (apart : g.Apart) {c : Call τ} (order : Order c g h) : h.Apart := by
  cases order <;> exact apart.congr rfl rfl rfl

/-- What is asked for now comes after all that has ended. -/
theorem tick (apart : g.Apart) : g.tick.Apart := by
  refine ⟨apart.past, fun m n ending asked before ended place => ?_⟩
  have place : (g.ticks ++ [g.now])[n]? = some asked := place
  rcases Nat.lt_or_ge n g.ticks.length with inside | outside
  · rw [List.getElem?_append_left inside] at place
    exact apart.apart m n ending asked before ended place
  · rw [List.getElem?_append_right outside] at place
    have new : asked = g.now := by simpa using List.mem_of_getElem? place
    rw [new]
    exact apart.past ending (List.mem_of_getElem? ended)

variable [Clock.Exact τ]

theorem elapse (apart : g.Apart) (later : g.now < moment) :
    ({ g with now := moment } : Helm τ).Apart :=
  ⟨fun ending mem ahead => apart.past ending mem (Clock.Exact.lt_trans later ahead), apart.apart⟩

/-- What ends now is the last that was asked for. -/
theorem judge (apart : g.Apart) (counted : g.Counted) (verdict : Verdict) :
    (g.judge verdict).Apart := by
  have count : g.ticks.length ≤ g.endings.length + 1 := by
    rw [counted.count]
    exact Nat.add_le_add_left (Bool.toNat_le _) _
  constructor
  · intro ending mem
    rcases List.mem_append.1 mem with old | new
    · exact apart.past ending old
    · rw [List.mem_singleton.1 new]
      exact Clock.Exact.lt_irrefl _
  · intro m n ending asked before ended place
    have ended : (g.endings ++ [(g.now, verdict)])[m]? = some ending := ended
    have inside : n < g.ticks.length := (List.getElem?_eq_some_iff.1 place).1
    rw [List.getElem?_append_left (by omega)] at ended
    exact apart.apart m n ending asked before ended place

theorem move (apart : g.Apart) (counted : g.Counted) (move : Move g h) (now : h.now = g.now) :
    h.Apart := by
  cases move with
  | @tick l rest turn there poised unasked =>
    have left : ({ g with turns := rest } : Helm τ).Apart := apart.congr rfl rfl rfl
    exact left.tick
  | learn refreshes verdict =>
    obtain ⟨-, -, ticks, endings⟩ := frame_goOn verdict (g.judge verdict)
    exact (apart.judge counted verdict).congr ticks endings now
  | _ => exact apart.congr rfl rfl now

end Apart

end Helm

namespace World

variable {τ σ κ : Type} [Clock τ] [DecidableEq κ] {source : Source τ σ κ} {strict : Bool}
  {v w : World τ σ κ}

/-- What orders and moves of helms grow by, runs of reachable worlds do. -/
theorem Reachable.grows (reached : Reachable source strict v) (onward : Run source v w) :
    (helm v).Grows (helm w) :=
  Reachable.steers (P := fun h => (helm v).Grows h)
    (fun _ _ _ order first => first.trans order.grows)
    (fun _ _ move first => first.trans move.grows) reached onward (.of_eq rfl rfl)

/-- In every reachable world the loop waits for one refresh of its own at most. -/
theorem Reachable.counted (reached : Reachable source strict w) : (helm w).Counted := by
  have both : (helm w).Lived ∧ (helm w).Counted := by
    refine Reachable.steers (P := fun h => h.Lived ∧ h.Counted) ?_ ?_ (.refl (init strict)) reached
      ⟨(steered_init strict).lived, fun _ => rfl, rfl⟩
    · rintro c g h order ⟨lived, counted⟩
      exact ⟨lived.order order, counted.order lived order⟩
    · rintro g h move ⟨lived, counted⟩
      exact ⟨lived.move move, counted.move move⟩
  exact both.2

/-! ## Prompt runs -/

variable [Clock.Exact τ]

theorem keptPromptly (start interval : τ) :
    KeptPromptly fun h => h.Counted ∧ h.Scheduled start interval ∧ h.Apart where
  order := by
    rintro c g h order steered ⟨counted, scheduled, apart⟩
    exact ⟨counted.order steered.lived order, scheduled.order steered.lived order,
      apart.order order⟩
  move := by
    rintro g h move now steered ⟨counted, scheduled, apart⟩
    exact ⟨counted.move move, scheduled.move counted steered.berthed move now,
      apart.move counted move now⟩
  elapse := by
    rintro g moment later line alarms steered ⟨counted, scheduled, apart⟩
    exact ⟨counted.move (.pass later), scheduled.elapse steered.berthed line alarms,
      apart.elapse later⟩

/-- A call to start that finds the keeper idle has the loop ask at once. -/
theorem scheduled_start (reached : Reachable source strict v)
    (idle : v.state.lifecycle = .idle) (interval : τ) :
    (helm (call source (.start interval) v)).Scheduled v.now interval ∧
      (helm (call source (.start interval) v)).Apart := by
  obtain ⟨lived, -, berthed⟩ := reached.steered
  obtain ⟨loop, unasked⟩ := lived.loop_of_idle idle
  have ticks : (helm v).ticks = [] := reached.counted.barren loop
  have endings : (helm v).endings = [] := by
    have count := reached.counted.count
    rw [ticks, loop] at count
    exact List.length_eq_zero_iff.1 count.symm
  have dues : (helm v).dues = 0 := by
    have berths := berthed unasked
    rw [loop] at berths
    exact berths.2
  have order : Helm.Order (.start interval) (helm v) (helm (call source (.start interval) v)) :=
    order_call rfl v
  generalize helm (call source (.start interval) v) = h at order
  cases order with
  | ignore busy interval => exact absurd idle busy
  | found idle interval =>
    let founded := ((helm v).hear (.start interval)).found interval |>.notify (.started interval)
    have none : founded.ticks = [] := ticks
    have unset : founded.dues = 0 := dues
    show founded.Scheduled v.now interval ∧ founded.Apart
    refine ⟨⟨rfl, ?_, ?_, fun _ _ _ _ => ⟨v.now, ?_, ?_⟩⟩, ?_, ?_⟩
    · simp [none]
    · rintro i began ⟨⟩
    · rw [none]
      rfl
    · exact ⟨Clock.Exact.lt_irrefl _, fun _ => rfl, by simp [unset]⟩
    · simp [show founded.endings = [] from endings]
    · simp [none]

/-- In a prompt run from the start of the loop on, it asks for its refreshes when it is due. -/
theorem scheduled_of_start (reached : Reachable source strict v)
    (idle : v.state.lifecycle = .idle) {interval : τ}
    (onward : PromptRun source (call source (.start interval) v) w) :
    (helm w).Scheduled v.now interval ∧ (helm w).Apart := by
  have started := reached.run (run_call (.start interval) v)
  exact ((keptPromptly v.now interval).run started onward
    ⟨started.counted, scheduled_start reached idle interval⟩).2

end World

end ApiCatalog
