/-
# ApiCatalog.Proofs.Settling -- enough fuel for what comes to an end

Running a timeline takes fuel.  Where each turn and each alarm takes off from
some load (`Timeline.Drains`), fuel above the load is enough: the line empties
(`Drains.settle`), and what is waited for comes or nothing is left to come
(`Drains.await`).  Either way of running it is a chain of single steps
(`Timeline.chain_settle`, `Timeline.chain_await`).

A fetch is such a run.  `Source.Underway` goes along with it and knows the calls
that it still waits for.  If a fetch waits for a call as long as it has not
ended, and each call costs more than all that it leads to (`Source.Finite`), then
the fetch ends, whatever the clock is like (`Fetch.run_ends`).
-/
import ApiCatalog.Proofs.Fetches
import Mathlib.Algebra.GroupWithZero.Nat
import Mathlib.Algebra.Order.BigOperators.Group.List
import Mathlib.Algebra.Order.Group.Nat

namespace ApiCatalog

set_option autoImplicit false

namespace Timeline

variable {τ α σ : Type}

/-- The parts that will be called: those in line and those with an alarm. -/
def targets (t : Timeline τ α σ) : List α := t.ready.map (·.target) ++ t.alarms.map (·.target)

/-- What a line and its alarms cost, given the cost of calling each part. -/
def load (cost : α → Nat) (t : Timeline τ α σ) : Nat :=
  (t.ready.map fun turn => cost turn.target + turn.relays).sum +
    (t.alarms.map fun alarm => cost alarm.target + 1).sum

/-- What is read off the alarms of other parts is left when a part is disarmed. -/
theorem filterMap_disarm {β : Type} [DecidableEq α] (target : α) (read : Alarm τ α → Option β)
    (other : ∀ due, read ⟨due, target⟩ = none) (t : Timeline τ α σ) :
    (t.disarm target).alarms.filterMap read = t.alarms.filterMap read := by
  rw [disarm, List.filterMap_filter]
  refine List.filterMap_congr fun alarm _ => ?_
  by_cases mine : alarm.target = target
  · rw [if_neg (by simp [mine]), ← other alarm.due, ← mine]
  · rw [if_pos (by simp [mine])]

variable [Clock τ]

theorem follow_eq {ω κ : Type} (lift : κ → α) (p : Progress τ ω κ) (t : Timeline τ α σ) :
    t.follow lift p =
      { t with
        ready := t.ready ++ p.turns.map fun turn => ⟨lift turn.1, turn.2⟩
        alarms := t.alarms ++ p.delays.map fun delay => ⟨t.now + delay.1, lift delay.2⟩ } := by
  have turns : ∀ (turns : List (κ × Nat)) (u : Timeline τ α σ),
      turns.foldl (fun u turn => u.wake (lift turn.1) turn.2) u =
        { u with ready := u.ready ++ turns.map fun turn => ⟨lift turn.1, turn.2⟩ } := by
    intro turns
    induction turns with
    | nil => simp
    | cons turn rest ih =>
      intro u
      rw [List.foldl_cons, ih]
      simp [wake]
  have delays : ∀ (delays : List (τ × κ)) (u : Timeline τ α σ),
      delays.foldl (fun u delay => u.arm delay.1 (lift delay.2)) u =
        { u with alarms := u.alarms ++ delays.map fun d => ⟨u.now + d.1, lift d.2⟩ } := by
    intro delays
    induction delays with
    | nil => simp
    | cons delay rest ih =>
      intro u
      rw [List.foldl_cons, ih]
      simp [arm]
  rw [follow, turns, delays]

@[simp] theorem ring_state (alarm : Alarm τ α) (others : List (Alarm τ α)) (t : Timeline τ α σ) :
    (t.ring alarm others).state = t.state := by
  simp only [ring, reach, wake]
  split <;> rfl

@[simp] theorem ring_ready (alarm : Alarm τ α) (others : List (Alarm τ α)) (t : Timeline τ α σ) :
    (t.ring alarm others).ready = t.ready ++ [⟨alarm.target, 0⟩] := by
  simp only [ring, reach, wake]
  split <;> rfl

@[simp] theorem ring_alarms (alarm : Alarm τ α) (others : List (Alarm τ α)) (t : Timeline τ α σ) :
    (t.ring alarm others).alarms = others := by
  simp only [ring, reach, wake]
  split <;> rfl

/-- An alarm that goes off calls nobody who was not to be called anyway. -/
theorem targets_ring {alarm : Alarm τ α} {others : List (Alarm τ α)} {t : Timeline τ α σ}
    (set : t.alarms.Perm (alarm :: others)) : (t.ring alarm others).targets.Perm t.targets := by
  simpa [targets] using ((set.map Alarm.target).symm.append_left _)

theorem load_ring (cost : α → Nat) {alarm : Alarm τ α} {others : List (Alarm τ α)}
    {t : Timeline τ α σ} (taken : takeEarliest t.alarms = some (alarm, others)) :
    (t.ring alarm others).load cost < t.load cost := by
  have alarms := ((perm_of_takeEarliest taken).map fun a => cost a.target + 1).sum_eq
  simp only [List.map_cons, List.sum_cons] at alarms
  simp only [load, ring, reach, wake]
  split <;>
  · simp only [List.map_append, List.sum_append, List.map_cons, List.map_nil, List.sum_cons,
      List.sum_nil]
    omega

omit [Clock τ] in
@[simp] theorem load_modify (cost : α → Nat) (f : σ → σ) (t : Timeline τ α σ) :
    (t.modify f).load cost = t.load cost := rfl

omit [Clock τ] in
@[simp] theorem load_wake (cost : α → Nat) (target : α) (relays : Nat) (t : Timeline τ α σ) :
    (t.wake target relays).load cost = t.load cost + (cost target + relays) := by
  simp only [load, wake, List.map_append, List.sum_append, List.map_cons, List.map_nil,
    List.sum_cons, List.sum_nil]
  omega

omit [Clock τ] in
@[simp] theorem load_wakeAll (cost : α → Nat) (targets : List α) (relays : Nat)
    (t : Timeline τ α σ) :
    (t.wakeAll targets relays).load cost =
      t.load cost + (targets.map fun target => cost target + relays).sum := by
  simp only [load, wakeAll, List.map_append, List.sum_append, List.map_map, Function.comp_def]
  omega

omit [Clock τ] in
theorem load_disarm_le [DecidableEq α] (cost : α → Nat) (target : α) (t : Timeline τ α σ) :
    (t.disarm target).load cost ≤ t.load cost := by
  have fewer := ((List.filter_sublist (l := t.alarms)
    (p := fun alarm => alarm.target ≠ target)).map fun alarm => cost alarm.target + 1)
  exact Nat.add_le_add_left (fewer.sum_le_sum fun _ _ => Nat.zero_le _) _

@[simp] theorem load_arm (cost : α → Nat) (delay : τ) (target : α) (t : Timeline τ α σ) :
    (t.arm delay target).load cost = t.load cost + (cost target + 1) := by
  simp only [load, arm, List.map_append, List.sum_append, List.map_cons, List.map_nil,
    List.sum_cons, List.sum_nil]
  omega

/-- Each turn and each alarm keeps an invariant and takes off from a load. -/
structure Drains (act : α → Timeline τ α σ → Timeline τ α σ) (Inv : Timeline τ α σ → Prop)
    (load : Timeline τ α σ → Nat) : Prop where
  turn : ∀ {t : Timeline τ α σ} {turn rest}, Inv t → t.ready = turn :: rest →
    Inv (runTurn act turn { t with ready := rest }) ∧
      load (runTurn act turn { t with ready := rest }) < load t
  alarm : ∀ {t : Timeline τ α σ} {alarm others}, Inv t →
    takeEarliest t.alarms = some (alarm, others) →
      Inv (t.ring alarm others) ∧ load (t.ring alarm others) < load t

namespace Drains

variable {act : α → Timeline τ α σ → Timeline τ α σ} {Inv : Timeline τ α σ → Prop}
  {load : Timeline τ α σ → Nat}

/-- With fuel for the load, the line empties. -/
theorem settle (drains : Drains act Inv load) {fuel : Nat} {t : Timeline τ α σ} (inv : Inv t)
    (enough : load t ≤ fuel) :
    Inv (settle act fuel t) ∧ load (Timeline.settle act fuel t) ≤ load t ∧
      (Timeline.settle act fuel t).ready = [] := by
  induction fuel generalizing t with
  | zero =>
    refine ⟨inv, Nat.le_refl _, ?_⟩
    cases line : t.ready with
    | nil => exact line
    | cons turn rest =>
      have less := (drains.turn inv line).2
      omega
  | succ fuel ih =>
    rw [Timeline.settle]
    split
    · rename_i turn rest line
      obtain ⟨inv', less⟩ := drains.turn inv line
      obtain ⟨kept, lighter, empty⟩ := ih inv' (by omega)
      exact ⟨kept, by omega, empty⟩
    · rename_i line
      split
      · exact ⟨inv, Nat.le_refl _, line⟩
      · rename_i alarm others taken
        split
        · exact ⟨inv, Nat.le_refl _, line⟩
        · obtain ⟨inv', less⟩ := drains.alarm inv taken
          obtain ⟨kept, lighter, empty⟩ := ih inv' (by omega)
          exact ⟨kept, by omega, empty⟩

/-- With fuel for the load, what is waited for comes, or else nothing is left to come. -/
theorem await (drains : Drains act Inv load) (done : σ → Bool) {fuel rounds : Nat}
    {t : Timeline τ α σ} (inv : Inv t) (enough : load t ≤ fuel) (more : load t < rounds) :
    Inv (await act done fuel rounds t) ∧
      (done (Timeline.await act done fuel rounds t).state = true ∨
        (Timeline.await act done fuel rounds t).targets = []) := by
  induction rounds generalizing t with
  | zero => omega
  | succ rounds ih =>
    obtain ⟨inv', lighter, empty⟩ := drains.settle inv enough
    simp only [Timeline.await]
    split
    · rename_i ready
      exact ⟨inv', .inl ready⟩
    · split
      · rename_i silent
        exact ⟨inv', .inr (by simp [targets, empty, takeEarliest_eq_none_iff.1 silent])⟩
      · rename_i alarm others taken
        obtain ⟨inv'', less⟩ := drains.alarm inv' taken
        exact ih inv'' (by omega) (by omega)

end Drains

/-! ### What comes while others go on -/

section

variable {act : α → Timeline τ α σ → Timeline τ α σ} {R : Timeline τ α σ → Timeline τ α σ → Prop}

/-- Settling is a chain of turns of the head of the line and of alarms that are due. -/
theorem chain_settle
    (turn : ∀ t turn rest, t.ready = turn :: rest → R t (runTurn act turn { t with ready := rest }))
    (ring : ∀ t alarm others, takeEarliest t.alarms = some (alarm, others) →
      ¬ t.now < alarm.due → R t (t.ring alarm others)) (fuel : Nat) (t : Timeline τ α σ) :
    Relation.ReflTransGen R t (settle act fuel t) := by
  induction fuel generalizing t with
  | zero => exact .refl
  | succ fuel ih =>
    rw [settle]
    split
    · rename_i line
      exact .head (turn _ _ _ line) (ih _)
    · split
      · exact .refl
      · rename_i taken
        split
        · exact .refl
        · rename_i due
          exact .head (ring _ _ _ taken due) (ih _)

/-- Waiting is a chain if settling is one and the alarm after it, unless it has come to what is
waited for, is a link that leads back to where settling is one. -/
theorem chain_await {P : Timeline τ α σ → Prop} {done : σ → Bool} {fuel : Nat}
    (settles : ∀ t, P t → Relation.ReflTransGen R t (settle act fuel t))
    (rings : ∀ t alarm others, P t → done (settle act fuel t).state = false →
      takeEarliest (settle act fuel t).alarms = some (alarm, others) →
        R (settle act fuel t) ((settle act fuel t).ring alarm others) ∧
          P ((settle act fuel t).ring alarm others)) (rounds : Nat) {t : Timeline τ α σ} (holds : P t) :
    Relation.ReflTransGen R t (await act done fuel rounds t) := by
  induction rounds generalizing t with
  | zero => exact .refl
  | succ rounds ih =>
    simp only [await]
    split
    · exact settles t holds
    · rename_i waiting
      split
      · exact settles t holds
      · rename_i taken
        obtain ⟨link, again⟩ := rings t _ _ holds (by simpa using waiting) taken
        exact (settles t holds).trans (.head link (ih again))

end

/-- What runs next: the head of the line, or the earliest alarm. -/
inductive Goes (act : α → Timeline τ α σ → Timeline τ α σ) (t : Timeline τ α σ) :
    Timeline τ α σ → Prop
  | turn {turn rest} (line : t.ready = turn :: rest) :
    Goes act t (runTurn act turn { t with ready := rest })
  | alarm {alarm others} (taken : takeEarliest t.alarms = some (alarm, others)) :
    Goes act t (t.ring alarm others)

theorem goes_settle (act : α → Timeline τ α σ → Timeline τ α σ) (fuel : Nat)
    (t : Timeline τ α σ) : Relation.ReflTransGen (Goes act) t (settle act fuel t) :=
  chain_settle (fun _ _ _ => .turn) (fun _ _ _ taken _ => .alarm taken) fuel t

/-- As long as something is not done, whatever runs takes off from a load, and there is something
left to run.  What is done stays so; what runs then is of no account, and may go on for ever. -/
structure Nears (act : α → Timeline τ α σ → Timeline τ α σ) (Inv : Timeline τ α σ → Prop)
    (done : σ → Bool) (load : Timeline τ α σ → Nat) : Prop where
  keeps : ∀ {t u}, Inv t → Goes act t u → Inv u
  stays : ∀ {t u}, Inv t → Goes act t u → done t.state = true → done u.state = true
  nearer : ∀ {t u}, Inv t → Goes act t u → done t.state = false → load u < load t
  waits : ∀ {t}, Inv t → done t.state = false → t.targets ≠ []

namespace Nears

variable {act : α → Timeline τ α σ → Timeline τ α σ} {Inv : Timeline τ α σ → Prop}
  {done : σ → Bool} {load : Timeline τ α σ → Nat} (nears : Nears act Inv done load)

include nears

theorem onward {t u : Timeline τ α σ} (goes : Relation.ReflTransGen (Goes act) t u) (inv : Inv t) :
    Inv u ∧ (done t.state = true → done u.state = true) := by
  induction goes with
  | refl => exact ⟨inv, id⟩
  | tail before last ih =>
    obtain ⟨inv', still⟩ := ih
    exact ⟨nears.keeps inv' last, fun ready => nears.stays inv' last (still ready)⟩

/-- With fuel for the load the line empties, unless it comes to what is waited for. -/
theorem settle {fuel : Nat} {t : Timeline τ α σ} (inv : Inv t) (enough : load t ≤ fuel) :
    done (Timeline.settle act fuel t).state = true ∨
      (Timeline.settle act fuel t).ready = [] ∧ load (Timeline.settle act fuel t) ≤ load t := by
  induction fuel generalizing t with
  | zero =>
    cases ready : done t.state with
    | true => exact .inl ready
    | false =>
      refine .inr ⟨?_, Nat.le_refl _⟩
      cases line : t.ready with
      | nil => exact line
      | cons turn rest =>
        have less := nears.nearer inv (.turn line) ready
        omega
  | succ fuel ih =>
    cases ready : done t.state with
    | true => exact .inl ((nears.onward (goes_settle act _ t) inv).2 ready)
    | false =>
      rw [Timeline.settle]
      split
      · rename_i turn rest line
        have less := nears.nearer inv (.turn line) ready
        refine (ih (nears.keeps inv (.turn line)) (by omega)).imp_right fun idle => ?_
        exact ⟨idle.1, by omega⟩
      · rename_i line
        split
        · exact .inr ⟨line, Nat.le_refl _⟩
        · rename_i alarm others taken
          split
          · exact .inr ⟨line, Nat.le_refl _⟩
          · have less := nears.nearer inv (.alarm taken) ready
            refine (ih (nears.keeps inv (.alarm taken)) (by omega)).imp_right fun idle => ?_
            exact ⟨idle.1, by omega⟩

/-- With fuel for the load, what is waited for comes. -/
theorem await {fuel rounds : Nat} {t : Timeline τ α σ} (inv : Inv t) (enough : load t ≤ fuel)
    (more : load t < rounds) : done (await act done fuel rounds t).state = true := by
  induction rounds generalizing t with
  | zero => omega
  | succ rounds ih =>
    have inv' := (nears.onward (goes_settle act fuel t) inv).1
    simp only [Timeline.await]
    split
    · assumption
    · rename_i waiting
      have waiting : done (Timeline.settle act fuel t).state = false := by simpa using waiting
      obtain ⟨line, lighter⟩ := (nears.settle inv enough).resolve_left (by simp [waiting])
      split
      · rename_i silent
        -- nobody is left to be called, and yet somebody is
        refine absurd ?_ (nears.waits inv' waiting)
        simp [targets, line, takeEarliest_eq_none_iff.1 silent]
      · rename_i alarm others taken
        have less := nears.nearer inv' (.alarm taken) waiting
        exact ih (nears.keeps inv' (.alarm taken)) (by omega) (by omega)

end Nears

end Timeline

/-! ## A fetch and the calls that it waits for -/

namespace Progress

variable {τ σ κ : Type}

/-- The calls that are asked for, by turns and by delays. -/
def calls (p : Progress τ σ κ) : List κ := p.turns.map Prod.fst ++ p.delays.map Prod.snd

/-- What the calls cost that are asked for. -/
def load (cost : κ → Nat) (p : Progress τ σ κ) : Nat :=
  (p.turns.map fun turn => cost turn.1 + turn.2).sum +
    (p.delays.map fun delay => cost delay.2 + 1).sum

end Progress

namespace Timeline

variable {τ α σ ω κ : Type} [Clock τ]

theorem targets_follow (lift : κ → α) (p : Progress τ ω κ) (t : Timeline τ α σ) :
    (t.follow lift p).targets.Perm (t.targets ++ p.calls.map lift) := by
  rw [follow_eq]
  simp only [targets, Progress.calls, List.map_append, List.map_map, List.append_assoc]
  refine .append_left _ ?_
  simp only [← List.append_assoc]
  exact .append_right _ List.perm_append_comm

theorem load_follow (cost : α → Nat) (lift : κ → α) (p : Progress τ ω κ) (t : Timeline τ α σ) :
    (t.follow lift p).load cost = t.load cost + p.load (fun token => cost (lift token)) := by
  rw [follow_eq]
  simp only [load, Progress.load, List.map_append, List.sum_append, List.map_map,
    Function.comp_def]
  omega

end Timeline

namespace Source

variable {τ σ κ : Type}

/-- What the fetch of a number may have done, and the calls that it still waits for.  They may come
in any order, but each comes once. -/
inductive Underway (source : Source τ σ κ) (n : Nat) : Progress τ σ κ → List κ → Prop
  | start : Underway source n (source.start n) (source.start n).calls
  | resume {p : Progress τ σ κ} {owed rest : List κ} {token : κ}
      (before : Underway source n p owed) (unfinished : p.outcome = none)
      (next : owed.Perm (token :: rest)) :
      Underway source n (source.resume p.work token)
        (rest ++ (source.resume p.work token).calls)

theorem Underway.course {source : Source τ σ κ} {n : Nat} {p : Progress τ σ κ} {owed : List κ}
    (underway : source.Underway n p owed) : source.Course n p := by
  induction underway with
  | start => exact .start
  | resume before unfinished next ih => exact ih.resume unfinished _

/-- A fetch waits for calls just as long as it has not ended, and none of them leads to more than it
costs itself. -/
structure Finite (source : Source τ σ κ) (n : Nat) (cost : κ → Nat) : Prop where
  ends : ∀ {p owed}, source.Underway n p owed → (p.outcome = none ↔ owed ≠ [])
  cheaper : ∀ {p owed token rest}, source.Underway n p owed → p.outcome = none →
    owed.Perm (token :: rest) → (source.resume p.work token).load cost < cost token

/-- A fetch that is answered at once or after a delay waits for one call at most. -/
theorem length_owed_answering {replies : Nat → Reply τ (Option (List Listing))} {n : Nat}
    {p : Progress τ Outcome Unit} {owed : List Unit}
    (underway : (answering replies).Underway n p owed) : owed.length ≤ 1 := by
  induction underway with
  | start =>
    simp only [answering]
    split <;> simp [Progress.calls]
  | resume before unfinished next ih =>
    have fewer := next.length_eq
    simp only [answering, Progress.calls, List.map_nil, List.append_nil, List.length_cons]
      at fewer ⊢
    omega

theorem finite_answering (replies : Nat → Reply τ (Option (List Listing))) (n : Nat) :
    (answering replies).Finite n fun _ => 1 where
  ends underway := by
    cases underway with
    | start =>
      simp only [answering]
      split <;> simp [Progress.calls]
    | @resume p owed rest token before unfinished next =>
      have one := length_owed_answering before
      rw [next.length_eq, List.length_cons] at one
      have called : rest = [] := List.length_eq_zero_iff.1 (by omega)
      simp [answering, Progress.calls, called]
  cheaper _ _ _ := by simp [answering, Progress.load]

end Source

namespace Fetch

variable {τ σ κ : Type} [Clock τ] {source : Source τ σ κ} {cost : κ → Nat}

/-- The first fetch is underway, and its calls are those in line. -/
def Underway (source : Source τ σ κ) (t : Timeline τ κ (Fetch τ σ)) : Prop :=
  ∃ p owed, source.Underway 0 p owed ∧ t.targets.Perm owed ∧ t.state.work = p.work ∧
    t.state.outcome = p.outcome

section

variable (p : Progress τ σ κ) (t : Timeline τ κ (Fetch τ σ))

theorem targets_absorb : (absorb p t).targets.Perm (t.targets ++ p.calls) := by
  have follow := Timeline.targets_follow id p (t.modify fun fetch =>
    { work := p.work, notes := fetch.notes ++ p.notes, outcome := p.outcome })
  rwa [List.map_id] at follow

theorem load_absorb : (absorb p t).load cost = t.load cost + p.load cost := by
  rw [absorb, Timeline.load_follow]
  rfl

theorem work_absorb : (absorb p t).state.work = p.work := by
  simp [absorb, Timeline.follow_eq, Timeline.modify]

theorem outcome_absorb : (absorb p t).state.outcome = p.outcome := by
  simp [absorb, Timeline.follow_eq, Timeline.modify]

end

theorem underway_start (source : Source τ σ κ) : Underway source (start source) :=
  ⟨_, _, .start, targets_absorb _ _, work_absorb _ _, outcome_absorb _ _⟩

/-- An alarm that goes off, whichever it is, leaves the fetch waiting for the same calls. -/
theorem Underway.ring {t : Timeline τ κ (Fetch τ σ)} (underway : Underway source t)
    {alarm : Alarm τ κ} {others : List (Alarm τ κ)} (set : t.alarms.Perm (alarm :: others)) :
    Underway source (t.ring alarm others) := by
  obtain ⟨p, owed, underway, same, work, outcome⟩ := underway
  exact ⟨p, owed, underway, (Timeline.targets_ring set).trans same, by simpa using work,
    by simpa using outcome⟩

theorem drains (finite : source.Finite 0 cost) :
    Timeline.Drains (act source) (Underway source) (Timeline.load cost) where
  turn := by
    rintro t ⟨token, relays⟩ rest ⟨p, owed, underway, same, work, outcome⟩ line
    cases relays with
    | succ relays =>
      -- the turn goes to the end of the line
      refine ⟨⟨p, owed, underway, .trans ?_ same, work, outcome⟩, ?_⟩
      · simp only [Timeline.runTurn, Timeline.wake, Timeline.targets, line, List.map_append,
          List.map_cons, List.map_nil]
        exact List.perm_append_comm.append_right _
      · simp only [Timeline.runTurn, Timeline.wake, Timeline.load, line, List.map_append,
          List.map_cons, List.map_nil, List.sum_append, List.sum_cons, List.sum_nil]
        omega
    | zero =>
      have next : owed.Perm (token :: Timeline.targets { t with ready := rest }) :=
        same.symm.trans (by simp [Timeline.targets, line])
      have unfinished : p.outcome = none := by
        rw [finite.ends underway]
        rintro rfl
        exact absurd next.nil_eq (List.cons_ne_nil _ _).symm
      have cheaper := finite.cheaper underway unfinished next
      have before : t.load cost = cost token + Timeline.load cost { t with ready := rest } := by
        simp [Timeline.load, line, Nat.add_assoc]
      simp only [Timeline.runTurn, act, work]
      refine ⟨⟨_, _, underway.resume unfinished next, targets_absorb _ _, work_absorb _ _,
        outcome_absorb _ _⟩, ?_⟩
      rw [load_absorb]
      omega
  alarm underway taken :=
    ⟨underway.ring (Timeline.perm_of_takeEarliest taken), Timeline.load_ring cost taken⟩

/-- A fetch that is underway ends, with something that it may end with. -/
theorem Underway.await_ends (finite : source.Finite 0 cost) {t : Timeline τ κ (Fetch τ σ)}
    (underway : Underway source t) {fuel : Nat} (enough : t.load cost < fuel) :
    ∃ outcome,
      (Timeline.await (act source) (·.outcome.isSome) fuel fuel t).state.outcome = some outcome ∧
        source.Yields 0 outcome := by
  obtain ⟨⟨p, owed, underway, same, -, ended⟩, stopped⟩ :=
    (drains finite).await (·.outcome.isSome) underway (Nat.le_of_lt enough) enough
  have finished : p.outcome.isSome = true := by
    rcases stopped with done | idle
    · exact ended ▸ done
    · have settled : owed = [] := (idle ▸ same).nil_eq.symm
      rw [Option.isSome_iff_ne_none, ne_eq, finite.ends underway, settled]
      simp
  obtain ⟨outcome, is⟩ := Option.isSome_iff_exists.1 finished
  exact ⟨outcome, ended.trans is, p, underway.course, is⟩

/-- A fetch ends, with something that it may end with. -/
theorem run_ends (finite : source.Finite 0 cost) {fuel : Nat}
    (enough : (source.start 0).load cost < fuel) :
    ∃ outcome, (run source fuel).state.outcome = some outcome ∧ source.Yields 0 outcome := by
  have load : (start source).load cost = (source.start 0).load cost := by
    rw [start, load_absorb]
    simp [Timeline.load]
  exact (underway_start source).await_ends finite (load ▸ enough)

end Fetch

end ApiCatalog
