/-
# ApiCatalog.Proofs.Steered -- the life of the background loop

What holds of the helm of every reachable world follows from its orders and moves,
case by case:

* the loop is that of the first call to start or to stop, if it is one to start,
  and the keeper is running as long as it has not ended (`Helm.Lived`);
* a loop that has ended was asked to stop, or a refresh of its own was cancelled
  (`Helm.Parted`);
* until it is asked to stop, a loop that neither refreshes nor has ended has one
  turn in line or one alarm (`Helm.Berthed`).
-/
import ApiCatalog.Proofs.Steering

namespace ApiCatalog

set_option autoImplicit false

/-! ## The life of the loop -/

namespace Helm

variable {τ : Type}

/-- The interval of the loop and whether it has ended. -/
def hull (h : Helm τ) : Option (τ × Bool) := h.loop.map fun l => (l.interval, l.phase.isEnded)

/-- How the calls, the life of the keeper and its loop agree. -/
structure Lived (h : Helm τ) : Prop where
  idle : h.lifecycle = .idle ↔ h.calls.find? Call.isOrder = none
  running : h.lifecycle = .running ↔ ∃ interval, h.hull = some (interval, false)
  founded : h.hull.map Prod.fst = Call.founded? h.calls
  started : h.notices.filterMap Event.started? = (h.hull.map Prod.fst).toList
  asked : h.stopAsked = h.calls.any Call.isStop

namespace Lived

variable {g h : Helm τ} {l : Loop τ}

theorem congr (lived : g.Lived) (lifecycle : h.lifecycle = g.lifecycle)
    (asked : h.stopAsked = g.stopAsked) (hull : h.hull = g.hull) (calls : h.calls = g.calls)
    (notices : h.notices = g.notices) : h.Lived := by
  refine ⟨?_, ?_, ?_, ?_, ?_⟩
  · rw [lifecycle, calls]
    exact lived.idle
  · rw [lifecycle, hull]
    exact lived.running
  · rw [hull, calls]
    exact lived.founded
  · rw [hull, notices]
    exact lived.started
  · rw [asked, calls]
    exact lived.asked

/-- The loop moves on, or not, without coming to its end. -/
theorem setPhase (lived : g.Lived) (there : g.loop = some l) (phase : LoopPhase τ)
    (goes : phase.isEnded = l.phase.isEnded) : (g.setPhase phase).Lived := by
  refine lived.congr rfl rfl ?_ rfl rfl
  simp [hull, Helm.setPhase, there, goes]

theorem lifecycle_of_loop (lived : g.Lived) (there : g.loop = some l)
    (running : l.phase.isEnded = false) : g.lifecycle = .running :=
  lived.running.2 ⟨l.interval, by simp [hull, there, running]⟩

theorem endLoop (lived : g.Lived) (there : g.loop = some l) (running : l.phase.isEnded = false)
    (cancelled : Bool) : (g.endLoop cancelled).Lived := by
  have ended : (g.endLoop cancelled).hull = some (l.interval, true) := by
    simp [hull, Helm.endLoop, Helm.setPhase, there, LoopPhase.isEnded]
  have before : g.hull = some (l.interval, false) := by simp [hull, there, running]
  have late : g.calls.find? Call.isOrder ≠ none := by
    intro none
    cases (lived.lifecycle_of_loop there running).symm.trans (lived.idle.2 none)
  refine ⟨?_, ?_, ?_, ?_, lived.asked⟩
  · exact iff_of_false (fun idle => by cases idle) late
  · rw [ended]
    exact iff_of_false (fun running => by cases running) (by simp)
  · rw [ended, ← show _ = Call.founded? (g.endLoop cancelled).calls from lived.founded, before]
    rfl
  · rw [ended]
    refine lived.started.trans ?_
    rw [before]
    rfl

/-- A call that neither starts nor stops the loop, or comes after one that did. -/
theorem hear (lived : g.Lived) {c : Call τ} (kept : c.isOrder = false ∨ g.lifecycle ≠ .idle) :
    ({ g.hear c with stopAsked := g.stopAsked || c.isStop } : Helm τ).Lived := by
  have orders : (g.calls ++ [c]).find? Call.isOrder = g.calls.find? Call.isOrder := by
    rcases kept with other | busy
    · simp [List.find?_append, other]
    · obtain ⟨first, found⟩ := Option.ne_none_iff_exists'.1 fun none => busy (lived.idle.2 none)
      simp [List.find?_append, found]
  have founded : Call.founded? (g.calls ++ [c]) = Call.founded? g.calls := by
    rw [Call.founded?, orders]
    rfl
  refine ⟨?_, lived.running, ?_, lived.started, ?_⟩
  · show g.lifecycle = .idle ↔ (g.calls ++ [c]).find? Call.isOrder = none
    rw [orders]
    exact lived.idle
  · show g.hull.map Prod.fst = Call.founded? (g.calls ++ [c])
    rw [founded]
    exact lived.founded
  · simp [Helm.hear, lived.asked]

/-- In the beginning there is no loop, and nobody has called. -/
theorem loop_of_idle (lived : g.Lived) (idle : g.lifecycle = .idle) :
    g.loop = none ∧ g.stopAsked = false := by
  have none := lived.idle.1 idle
  constructor
  · have founded := lived.founded
    rw [Call.founded?, none] at founded
    cases loop : g.loop with
    | none => rfl
    | some l => simp [hull, loop] at founded
  · rw [lived.asked, List.any_eq_false]
    intro c mem stops
    have order := List.find?_eq_none.1 none c mem
    cases c <;> first | exact absurd rfl order | cases stops

/-- The first call that starts or stops the loop. -/
theorem founded?_first (idle : g.calls.find? Call.isOrder = none) {c : Call τ}
    (order : c.isOrder = true) : (g.calls ++ [c]).find? Call.isOrder = some c := by
  simp [List.find?_append, idle, order]

theorem found (lived : g.Lived) (idle : g.lifecycle = .idle) (interval : τ) :
    ((g.hear (.start interval)).found interval |>.notify (.started interval)).Lived := by
  have first := founded?_first (lived.idle.1 idle) (c := .start interval) rfl
  have none := (lived.loop_of_idle idle).1
  refine ⟨?_, ?_, ?_, ?_, ?_⟩
  · refine iff_of_false (fun idle => by cases idle) ?_
    exact first ▸ Option.some_ne_none _
  · exact iff_of_true rfl ⟨interval, rfl⟩
  · show some interval = Call.founded? (g.calls ++ [.start interval])
    rw [Call.founded?, first]
  · show (g.notices ++ [Event.started interval]).filterMap Event.started? = [interval]
    rw [List.filterMap_append, lived.started, hull, none]
    rfl
  · show g.stopAsked = (g.calls ++ [Call.start interval]).any Call.isStop
    simp [lived.asked, Call.isStop]

/-- A call to stop that comes after a call that started or stopped the loop. -/
theorem hear_stop (lived : g.Lived) (busy : g.lifecycle ≠ .idle) :
    ({ g.hear .stop with stopAsked := true } : Helm τ).Lived := by
  refine (lived.hear (c := .stop) (.inr busy)).congr rfl ?_ rfl rfl rfl
  exact (Bool.or_true g.stopAsked).symm

theorem retire (lived : g.Lived) (none : g.loop = none) :
    ({ g.hear .stop with stopAsked := true, lifecycle := .stopped } : Helm τ).Lived := by
  have hull : g.hull = Option.none := by simp [hull, none]
  cases life : g.lifecycle with
  | idle =>
    have first := founded?_first (lived.idle.1 life) (c := .stop) rfl
    refine ⟨?_, ?_, ?_, lived.started, ?_⟩
    · refine iff_of_false (fun idle => by cases idle) ?_
      exact first ▸ Option.some_ne_none _
    · refine iff_of_false (fun running => by cases running) ?_
      rintro ⟨interval, there⟩
      cases hull.symm.trans there
    · show g.hull.map Prod.fst = Call.founded? (g.calls ++ [.stop])
      rw [Call.founded?, first, hull]
      rfl
    · show true = (g.calls ++ [Call.stop]).any Call.isStop
      simp [Call.isStop]
  | running =>
    obtain ⟨interval, there⟩ := lived.running.1 life
    cases hull.symm.trans there
  | stopped =>
    have heard := lived.hear_stop (by simp [life])
    exact heard.congr life.symm rfl rfl rfl rfl

/-- Every order keeps the calls, the life of the keeper and its loop in agreement. -/
theorem order [Clock τ] (lived : g.Lived) {c : Call τ} (order : Order c g h) : h.Lived := by
  have busy {l : Loop τ} (there : g.loop = some l) : g.lifecycle ≠ .idle := by
    intro idle
    cases (lived.loop_of_idle idle).1.symm.trans there
  cases order with
  | found idle interval => exact lived.found idle interval
  | ignore late interval =>
    have heard := lived.hear (c := .start interval) (.inr late)
    refine ⟨heard.idle, heard.running, heard.founded, ?_, ?_⟩
    · show (g.notices ++ [Event.startIgnored g.lifecycle]).filterMap Event.started? = _
      rw [List.filterMap_append]
      exact (List.append_nil _).trans heard.started
    · exact (Bool.or_false g.stopAsked).symm.trans heard.asked
  | retire none => exact lived.retire none
  | ask there awake => exact lived.hear_stop (busy there)
  | rouse rests =>
    have asked := lived.hear_stop (busy rests)
    exact (asked.setPhase rests .pending rfl).congr rfl rfl rfl rfl rfl

/-- Every move keeps them in agreement. -/
theorem move [Clock τ] (lived : g.Lived) (move : Move g h) : h.Lived := by
  cases move with
  | @call c other =>
    have stops : c.isStop = false := by cases c <;> first | rfl | cases other
    refine (lived.hear (.inl other)).congr rfl ?_ rfl rfl rfl
    show g.stopAsked = (g.stopAsked || c.isStop)
    rw [stops, Bool.or_false]
  | defer turn => exact lived.congr rfl rfl rfl rfl rfl
  | miss turn other => exact lived.congr rfl rfl rfl rfl rfl
  | @quit l rest turn there poised asked =>
    have goes : l.phase.isEnded = false := LoopPhase.isEnded_of_isPoised poised
    exact (lived.endLoop there goes false).congr rfl rfl rfl rfl rfl
  | @tick l rest turn there poised unasked =>
    have goes : l.phase.isEnded = false := LoopPhase.isEnded_of_isPoised poised
    exact (lived.setPhase there (.refreshing g.now) goes.symm).congr rfl rfl rfl rfl rfl
  | learn refreshes verdict =>
    have same : (g.judge verdict).Lived := lived.congr rfl rfl rfl rfl rfl
    have there : (g.judge verdict).loop = _ := refreshes
    show ((g.judge verdict).goOn verdict).Lived
    rcases goOn_cases there verdict with ⟨-, ends⟩ | ⟨-, ⟨-, ends⟩ | ⟨left, rests⟩ | goes⟩
    · rw [ends]
      exact same.endLoop there rfl true
    · rw [ends]
      exact same.endLoop there rfl false
    · rw [rests]
      exact (same.setPhase there .resting rfl).congr rfl rfl rfl rfl rfl
    · rw [goes]
      exact (same.setPhase there .pending rfl).congr rfl rfl rfl rfl rfl
  | ring set => exact lived.congr rfl rfl rfl rfl rfl
  | pass later => exact lived.congr rfl rfl rfl rfl rfl

end Lived

/-! ## How the loop ends -/

/-- Whether the loop was cancelled, if it has ended. -/
def ending? (h : Helm τ) : Option Bool := h.loop.bind fun l => l.phase.ending?

/-- A loop that has ended was asked to stop, or its last refresh was cancelled. -/
structure Parted (h : Helm τ) : Prop where
  stopped : h.ending? = some false → h.stopAsked = true
  cancelled : h.ending? = some true ↔ .raised .cancelled ∈ h.verdicts

namespace Parted

variable {g h : Helm τ} {l : Loop τ}

theorem congr (parted : g.Parted) (asked : g.stopAsked = true → h.stopAsked = true)
    (ending : h.ending? = g.ending?) (verdicts : h.verdicts = g.verdicts) : h.Parted := by
  refine ⟨fun ended => asked (parted.stopped (ending.symm.trans ended)), ?_⟩
  rw [ending, verdicts]
  exact parted.cancelled

/-- A loop that goes on was not cancelled. -/
theorem not_mem (parted : g.Parted) (goes : g.ending? = none) :
    .raised .cancelled ∉ g.verdicts := by
  intro mem
  cases goes.symm.trans (parted.cancelled.2 mem)

/-- What a loop that goes on does next. -/
theorem setPhase (parted : g.Parted) (there : g.loop = some l) (goes : l.phase.ending? = none)
    (phase : LoopPhase τ) (stopped : phase.ending? = some false → g.stopAsked = true)
    (alive : phase.ending? ≠ some true) : (g.setPhase phase).Parted := by
  have before : g.ending? = none := by simp [ending?, there, goes]
  have after : (g.setPhase phase).ending? = phase.ending? := by
    simp [ending?, Helm.setPhase, there]
  refine ⟨fun ended => stopped (after.symm.trans ended), ?_⟩
  rw [after]
  exact iff_of_false alive (parted.not_mem before)

/-- A loop that goes on may go on in any way that is no end. -/
theorem goOn (parted : g.Parted) (there : g.loop = some l) (goes : l.phase.ending? = none)
    (phase : LoopPhase τ) (alive : phase.ending? = none) : (g.setPhase phase).Parted := by
  refine parted.setPhase there goes phase (fun ended => ?_) (fun ended => ?_)
  · cases alive.symm.trans ended
  · cases alive.symm.trans ended

theorem learn [Clock τ] (parted : g.Parted) {interval began : τ}
    (refreshes : g.loop = some ⟨interval, .refreshing began⟩) (verdict : Verdict) :
    (g.learn verdict).Parted := by
  have there : (g.judge verdict).loop = some ⟨interval, .refreshing began⟩ := refreshes
  have before : g.ending? = none := by simp [ending?, refreshes, LoopPhase.ending?]
  have goes : (LoopPhase.refreshing began).ending? = none := rfl
  have verdicts : (g.judge verdict).verdicts = g.verdicts ++ [verdict] := by
    simp [judge, Helm.verdicts]
  show ((g.judge verdict).goOn verdict).Parted
  rcases goOn_cases there verdict with ⟨rfl, ends⟩ | ⟨other, cases⟩
  · rw [ends]
    have ended : ((g.judge (.raised .cancelled)).endLoop true).ending? = some true := by
      simp [ending?, Helm.endLoop, Helm.setPhase, there, LoopPhase.ending?]
    refine ⟨fun stopped => ?_, iff_of_true ended ?_⟩
    · cases ended.symm.trans stopped
    · show _ ∈ (g.judge (.raised .cancelled)).verdicts
      rw [verdicts]
      exact List.mem_append_right _ (List.mem_singleton_self _)
  · -- the verdict is none of a refresh that was cancelled
    have same : (g.judge verdict).Parted := by
      constructor
      · intro ended
        cases before.symm.trans ended
      · refine iff_of_false (fun ended => ?_) (fun mem => ?_)
        · cases before.symm.trans ended
        · rw [verdicts] at mem
          rcases List.mem_append.1 mem with old | new
          · exact parted.not_mem before old
          · exact other (List.mem_singleton.1 new).symm
    rcases cases with ⟨asked, ends⟩ | ⟨left, rests⟩ | next
    · rw [ends]
      exact (same.setPhase there goes (.ended false) (fun _ => asked)
        (by simp [LoopPhase.ending?])).congr id rfl rfl
    · rw [rests]
      exact (same.goOn there goes .resting rfl).congr id rfl rfl
    · rw [next]
      exact (same.goOn there goes .pending rfl).congr id rfl rfl

theorem order [Clock τ] (parted : g.Parted) (lived : g.Lived) {c : Call τ}
    (order : Order c g h) : h.Parted := by
  cases order with
  | found idle interval =>
    have before : g.ending? = none := by simp [ending?, (lived.loop_of_idle idle).1]
    constructor
    · intro ended
      cases ended
    · exact iff_of_false (fun ended => by cases ended) (parted.not_mem before)
  | ignore late interval => exact parted.congr id rfl rfl
  | retire none => exact parted.congr (fun _ => rfl) rfl rfl
  | ask there awake => exact parted.congr (fun _ => rfl) rfl rfl
  | rouse rests =>
    exact (parted.goOn rests rfl .pending rfl).congr (fun _ => rfl) rfl rfl

theorem move [Clock τ] (parted : g.Parted) (move : Move g h) : h.Parted := by
  cases move with
  | quit turn there poised asked =>
    exact (parted.setPhase there (LoopPhase.ending?_of_isPoised poised) (.ended false)
      (fun _ => asked) (by simp [LoopPhase.ending?])).congr id rfl rfl
  | tick turn there poised unasked =>
    exact (parted.goOn there (LoopPhase.ending?_of_isPoised poised) (.refreshing g.now)
      rfl).congr id rfl rfl
  | learn refreshes verdict => exact parted.learn refreshes verdict
  | _ => exact parted.congr id rfl rfl

end Parted

/-! ## Where the loop waits -/

/-- What a loop that is not asked to stop has in line and on the clock, given where it is: one turn,
or one turn or alarm, or none. -/
def Berths (turns : Multiset Nat) (dues : Multiset τ) : Option (Loop τ) → Prop
  | some ⟨_, .pending⟩ => turns.card = 1 ∧ dues = 0
  | some ⟨_, .resting⟩ => turns.card + dues.card = 1
  | _ => turns = 0 ∧ dues = 0

/-- A loop that is not asked to stop has one turn or alarm where it waits for one. -/
def Berthed (h : Helm τ) : Prop := h.stopAsked = false → Berths h.turns h.dues h.loop

namespace Berthed

variable {g h : Helm τ}

/-- A loop that waits for a turn and has one. -/
theorem berths_one {l : Loop τ} (poised : l.phase.isPoised = true) (relays : Nat) :
    Berths (relays ::ₘ 0) (0 : Multiset τ) (some l) := by
  obtain ⟨interval, phase⟩ := l
  cases phase with
  | pending => exact ⟨rfl, rfl⟩
  | resting => exact rfl
  | _ => cases poised

/-- Until it is asked to stop, a loop that has a turn waits for it and has nothing else. -/
theorem alone (berthed : g.Berthed) (unasked : g.stopAsked = false) {relays : Nat}
    {rest : Multiset Nat} (turn : g.turns = relays ::ₘ rest) :
    ∃ l, g.loop = some l ∧ l.phase.isPoised = true ∧ rest = 0 ∧ g.dues = 0 := by
  have berths := berthed unasked
  rw [turn] at berths
  unfold Berths at berths
  split at berths
  · rename_i interval loop
    obtain ⟨one, dues⟩ := berths
    exact ⟨_, loop, rfl, by simpa using one, dues⟩
  · rename_i interval loop
    rw [Multiset.card_cons] at berths
    have none : rest.card = 0 := by omega
    have unset : g.dues.card = 0 := by omega
    exact ⟨_, loop, rfl, Multiset.card_eq_zero.1 none, Multiset.card_eq_zero.1 unset⟩
  · exact absurd berths.1 (Multiset.cons_ne_zero)

/-- Until it is asked to stop, a loop that has an alarm rests and has nothing else. -/
theorem armed (berthed : g.Berthed) (unasked : g.stopAsked = false) {due : τ}
    {others : Multiset τ} (set : g.dues = due ::ₘ others) :
    ∃ interval, g.loop = some ⟨interval, .resting⟩ ∧ g.turns = 0 ∧ others = 0 := by
  have berths := berthed unasked
  rw [set] at berths
  unfold Berths at berths
  split at berths
  · exact absurd berths.2 (Multiset.cons_ne_zero)
  · rename_i interval loop
    rw [Multiset.card_cons] at berths
    have none : g.turns.card = 0 := by omega
    have unset : others.card = 0 := by omega
    exact ⟨interval, loop, Multiset.card_eq_zero.1 none, Multiset.card_eq_zero.1 unset⟩
  · exact absurd berths.2 (Multiset.cons_ne_zero)

theorem learn [Clock τ] (berthed : g.Berthed) {interval began : τ}
    (refreshes : g.loop = some ⟨interval, .refreshing began⟩) (verdict : Verdict) :
    (g.learn verdict).Berthed := by
  have there : (g.judge verdict).loop = some ⟨interval, .refreshing began⟩ := refreshes
  show ((g.judge verdict).goOn verdict).Berthed
  intro unasked
  have bare (same : ((g.judge verdict).goOn verdict).stopAsked = g.stopAsked) :
      g.turns = 0 ∧ g.dues = 0 := by
    have berths := berthed (same.symm.trans unasked)
    rwa [refreshes] at berths
  rcases goOn_cases there verdict with ⟨-, ends⟩ | ⟨-, ⟨-, ends⟩ | ⟨left, rests⟩ | next⟩
  · rw [ends] at bare ⊢
    simpa [Helm.endLoop, Helm.setPhase, judge, refreshes, Berths] using bare rfl
  · rw [ends] at bare ⊢
    simpa [Helm.endLoop, Helm.setPhase, judge, refreshes, Berths] using bare rfl
  · rw [rests] at bare ⊢
    obtain ⟨turns, dues⟩ := bare rfl
    simp [Helm.arm, Helm.setPhase, Berths, judge, refreshes, turns, dues]
  · rw [next] at bare ⊢
    obtain ⟨turns, dues⟩ := bare rfl
    simp [Helm.wake, Helm.setPhase, Berths, judge, refreshes, turns, dues]

theorem order [Clock τ] (berthed : g.Berthed) (lived : g.Lived) {c : Call τ}
    (order : Order c g h) : h.Berthed := by
  intro unasked
  cases order with
  | found idle interval =>
    obtain ⟨none, -⟩ := lived.loop_of_idle idle
    have berths := berthed unasked
    rw [none] at berths
    obtain ⟨turns, dues⟩ := berths
    show Berths (0 ::ₘ g.turns) g.dues (some ⟨interval, .pending⟩)
    rw [turns, dues]
    exact berths_one rfl 0
  | ignore late interval => exact berthed unasked
  | _ => cases unasked

theorem move [Clock τ] (berthed : g.Berthed) (move : Move g h) : h.Berthed := by
  intro unasked
  cases move with
  | call other => exact berthed unasked
  | @defer relays rest turn =>
    obtain ⟨l, there, poised, none, unset⟩ := berthed.alone unasked turn
    show Berths (relays ::ₘ rest) g.dues g.loop
    rw [there, none, unset]
    exact berths_one poised relays
  | miss turn other =>
    obtain ⟨l, there, poised, -, -⟩ := berthed.alone unasked turn
    cases poised.symm.trans (other l there)
  | quit turn there poised asked => cases asked.symm.trans unasked
  | @tick l rest turn there poised _ =>
    obtain ⟨-, -, -, none, unset⟩ := berthed.alone unasked turn
    simp [Helm.tick, Helm.setPhase, there, Berths, none, unset]
  | learn refreshes verdict => exact berthed.learn refreshes verdict unasked
  | @ring due others set =>
    obtain ⟨interval, rests, none, unset⟩ := berthed.armed unasked set
    show Berths (0 ::ₘ g.turns) others g.loop
    rw [rests, none, unset]
    exact berths_one rfl 0
  | pass later => exact berthed unasked

end Berthed

/-- What holds of the helm of every reachable world. -/
structure Steered (h : Helm τ) : Prop where
  lived : h.Lived
  parted : h.Parted
  berthed : h.Berthed

theorem Steered.order [Clock τ] {g h : Helm τ} (steered : g.Steered) {c : Call τ}
    (order : Order c g h) : h.Steered :=
  ⟨steered.lived.order order, steered.parted.order steered.lived order,
    steered.berthed.order steered.lived order⟩

theorem Steered.move [Clock τ] {g h : Helm τ} (steered : g.Steered) (move : Move g h) :
    h.Steered :=
  ⟨steered.lived.move move, steered.parted.move move, steered.berthed.move move⟩

end Helm

namespace World

variable {τ σ κ : Type} [Clock τ] [DecidableEq κ] {source : Source τ σ κ} {strict : Bool}
  {v w : World τ σ κ}

omit [DecidableEq κ] in
theorem steered_init (strict : Bool) : (helm (init strict : World τ σ κ)).Steered where
  lived := by
    refine ⟨iff_of_true rfl rfl, ?_, rfl, rfl, rfl⟩
    simp [Helm.hull, helm, init]
  parted := by
    refine ⟨?_, ?_⟩ <;> simp [Helm.ending?, Helm.verdicts, helm, init, Keeper.rounds]
  berthed _ := ⟨rfl, rfl⟩

/-- What orders and moves of helms keep, runs of reachable worlds keep. -/
theorem Reachable.steers {P : Helm τ → Prop}
    (order : ∀ (c : Call τ) (g h : Helm τ), Helm.Order c g h → P g → P h)
    (move : ∀ g h : Helm τ, Helm.Move g h → P g → P h) (reached : Reachable source strict v)
    (onward : Run source v w) (first : P (helm v)) : P (helm w) := by
  have both : Reachable source strict w ∧ P (helm w) := by
    refine Run.keeps (P := fun u => Reachable source strict u ∧ P (helm u)) ?_ onward
      ⟨reached, first⟩
    rintro u u' next ⟨reached, holds⟩
    obtain ⟨l, sound⟩ := reached.sound
    refine ⟨reached.run ((Run.refl u).step next), ?_⟩
    rcases helm_of_step next sound with ⟨c, -, ordered⟩ | moves
    · exact order c _ _ ordered holds
    · exact moves.keeps move holds
  exact both.2

/-- In every reachable world calls, loop, turns and alarms agree. -/
theorem Reachable.steered (reached : Reachable source strict w) : (helm w).Steered :=
  Reachable.steers (fun _ _ _ order steered => Helm.Steered.order steered order)
    (fun _ _ move steered => Helm.Steered.move steered move) (.refl (init strict)) reached
    (steered_init strict)

end World

end ApiCatalog
