/-
# ApiCatalog.Proofs.Summons -- the end of the loop calls those who wait for it

A call to stop waits for the end of the loop.  That gives a turn to every such
call (`summoned_endLoop`), only its own turn answers one, and one that comes
later is answered at once.  So after the end of the loop, every call to stop that
has no answer has its turn in line (`World.Summoned`, `Reachable.summoned`), and
where nobody has a turn, none is left.
-/
import ApiCatalog.Proofs.Desk
import ApiCatalog.Proofs.Handover

namespace ApiCatalog

set_option autoImplicit false

namespace World

variable {τ σ κ : Type}

/-- After the end of the loop, every call to stop that has no answer has a turn in line, one call
apart. -/
def SummonedBut (apart : Option Nat) (w : World τ σ κ) : Prop :=
  ∀ interval cancelled, w.state.loop = some ⟨interval, .ended cancelled⟩ →
    ∀ id, some id ≠ apart → w.state.callers[id]? = some ⟨.stop, none⟩ →
      ⟨.caller id, 0⟩ ∈ w.ready

/-- After the end of the loop, every call to stop that has no answer has a turn in line. -/
def Summoned (w : World τ σ κ) : Prop := SummonedBut none w

namespace SummonedBut

variable {apart : Option Nat} {v w : World τ σ κ}

/-- Only the loop, the calls and the line matter. -/
theorem frame (summoned : SummonedBut apart v) (loop : w.state.loop = v.state.loop)
    (callers : w.state.callers = v.state.callers) (line : v.ready ⊆ w.ready) :
    SummonedBut apart w := by
  intro interval cancelled ended id other there
  rw [loop] at ended
  rw [callers] at there
  exact line (summoned interval cancelled ended id other there)

/-- A call that is answered waits no more. -/
theorem answer {id : Nat} (summoned : SummonedBut apart w) (mine : apart = none ∨ apart = some id)
    (answer : Answer) : Summoned (w.modify (·.answer id answer)) := by
  intro interval cancelled ended number _ there
  have waits : ((desk w).answer id answer).callers[number]? = some ⟨.stop, none⟩ := there
  rcases Desk.kept_or_answered waits with ⟨other, kept⟩ | ⟨-, before, -, is⟩
  · refine summoned interval cancelled ended number (fun same => ?_) kept
    rcases mine with none | mine
    · cases same.trans none
    · exact other (Option.some.inj (same.trans mine)).symm
  · simp at is

end SummonedBut

/-- Before the end of the loop nobody has to be called. -/
theorem summoned_of_goes {w : World τ σ κ}
    (goes : ∀ l, w.state.loop = some l → l.phase.isEnded = false) : Summoned w := by
  intro interval cancelled ended
  cases goes _ ended

theorem summoned_setPhase {phase : LoopPhase τ} (goes : phase.isEnded = false)
    (w : World τ σ κ) : Summoned (w.modify (·.setPhase phase)) := by
  refine summoned_of_goes fun l there => ?_
  obtain ⟨before, -, rfl⟩ := Option.map_eq_some_iff.1 there
  exact goes

/-- The end of the loop gives a turn to every call to stop. -/
theorem summoned_endLoop (cancelled : Bool) (w : World τ σ κ) :
    Summoned (endLoop cancelled w) := by
  intro interval cancelled' ended id _ there
  let closed : World τ σ κ := signalSyncWaiters (w.modify fun k =>
    { k.setPhase (.ended cancelled) with lifecycle := .stopped, stopSignal := true })
  have waits : id ∈ (desk closed).pending Call.isStop := Desk.mem_pending.2 ⟨_, there, rfl⟩
  exact List.mem_append_right _
    (List.mem_map.2 ⟨.caller id, List.mem_map.2 ⟨id, waits, rfl⟩, rfl⟩)

/-! ## Parts of a step -/

section

variable {w : World τ σ κ} (summoned : Summoned w)

include summoned

theorem summoned_judge (began : τ) (outcome : Outcome) :
    Summoned (judge began outcome w).2 := by
  have line := (spares_judge began outcome w).line.subset
  cases outcome with
  | error why =>
    refine summoned.frame ?_ ?_ line
    all_goals
      simp only [judge]
      split <;> rfl
  | ok listings =>
    refine summoned.frame ?_ ?_ line
    all_goals
      simp only [judge]
      split
      · rfl
      · simp only
        split <;> rfl

theorem summoned_release : Summoned (release w) := by
  unfold release
  dsimp only
  split
  · exact summoned.frame rfl rfl (List.Subset.refl _)
  · exact summoned.frame rfl rfl (List.subset_append_left _ _)

variable [Clock τ]

theorem summoned_goOn (owner : Owner) (verdict : Verdict) :
    Summoned (goOn owner verdict w) := by
  have rests (interval began : τ) (v : World τ σ κ) : Summoned (rest interval began v) := by
    simp only [rest]
    split
    · split
      · exact summoned_endLoop _ _
      · exact (summoned_setPhase rfl v).frame rfl rfl (List.Subset.refl _)
    · exact (summoned_setPhase rfl v).frame rfl rfl (List.subset_append_left _ _)
  cases owner with
  | caller id => exact summoned.answer (.inl rfl) _
  | loop =>
    simp only [goOn, afterLoopRefresh]
    split
    · split
      · exact rests _ _ _
      · exact rests _ _ _
      · exact summoned_endLoop _ _
      · exact rests _ _ _
    · exact summoned

theorem summoned_conclude (ticket : Nat) (owner : Owner) (began : τ) (outcome : Outcome) :
    Summoned (conclude ticket owner began outcome w) := by
  have noted : Summoned (note [.fetchEnded] w) := summoned.frame rfl rfl (List.Subset.refl _)
  have judged := summoned_judge noted began outcome
  simp only [conclude]
  refine summoned_goOn (summoned_release ?_) owner _
  exact judged.frame rfl rfl (List.Subset.refl _)

theorem summoned_absorb (ticket : Nat) (owner : Owner) (began : τ) (p : Progress τ σ κ) :
    Summoned (absorb ticket owner began p w) := by
  have taken : Summoned ((w.modify fun k =>
      (k.setStage ticket (.fetching began p.work)).note (p.notes.map .source)).follow
        (.fetch ticket) p) := by
    rw [Timeline.follow_eq]
    exact summoned.frame rfl rfl (List.subset_append_left _ _)
  unfold absorb
  dsimp only
  split
  · exact taken
  · exact summoned_conclude taken _ _ _ _

theorem summoned_begin (source : Source τ σ κ) (ticket : Nat) (owner : Owner) :
    Summoned (begin source ticket owner w) :=
  summoned_absorb (w := note [.fetchStarted] (say .refreshStarted
    (w.modify fun k => { k with locked := true })))
    (summoned.frame rfl rfl (List.Subset.refl _)) _ _ _ _

theorem summoned_arrive (source : Source τ σ κ) (owner : Owner) :
    Summoned (arrive source owner w) := by
  simp only [arrive]
  split
  · refine summoned_begin ?_ source _ owner
    exact summoned.frame rfl rfl (List.Subset.refl _)
  · exact summoned.frame rfl rfl (List.Subset.refl _)

theorem summoned_loopTurn (source : Source τ σ κ) : Summoned (loopTurn source w) := by
  have tick : Summoned (if w.state.stopAsked then endLoop false w
      else w.modify (·.setPhase (.refreshing w.now)) |> arrive source .loop) := by
    split
    · exact summoned_endLoop _ _
    · exact summoned_arrive (summoned_setPhase rfl w) _ _
  unfold loopTurn
  split
  · exact tick
  · exact tick
  · exact summoned

theorem summoned_attemptTurn (source : Source τ σ κ) (ticket : Nat) :
    Summoned (attemptTurn source ticket w) := by
  unfold attemptTurn
  split
  · split
    · refine summoned_begin ?_ source ticket _
      exact summoned.frame rfl rfl (List.Subset.refl _)
    · exact summoned
  · exact summoned

theorem summoned_fetchTurn (source : Source τ σ κ) (ticket : Nat) (token : κ) :
    Summoned (fetchTurn source ticket token w) := by
  unfold fetchTurn
  split
  · exact summoned_absorb summoned _ _ _ _
  · exact summoned

end

/-- The answer to a call to stop. -/
theorem summoned_answerStop {id : Nat} {w : World τ σ κ} (summoned : SummonedBut (some id) w)
    (cancelled : Bool) : Summoned (answerStop id cancelled w) := by
  unfold answerStop
  split
  · exact summoned.answer (.inr rfl) _
  · exact SummonedBut.answer (w := say .stopped w)
      (summoned.frame rfl rfl (List.Subset.refl _)) (.inr rfl) _

variable [DecidableEq κ]

/-- A call that has its turn is answered, or does not wait for the end of the loop. -/
theorem summoned_callerTurn {id : Nat} {w : World τ σ κ} (summoned : SummonedBut (some id) w) :
    Summoned (callerTurn id w) := by
  have other (served : w.state.callers[id]? ≠ some ⟨.stop, none⟩) : Summoned w := by
    intro interval cancelled ended number _ there
    refine summoned interval cancelled ended number (fun same => ?_) there
    cases same
    exact served there
  unfold callerTurn
  split
  · exact SummonedBut.answer (w := w.disarm (.caller id))
      (summoned.frame rfl rfl (List.Subset.refl _)) (.inr rfl) _
  · split
    · exact summoned_answerStop summoned _
    · rename_i goes
      refine summoned_of_goes fun l there => ?_
      obtain ⟨interval, phase⟩ := l
      cases phase with
      | ended cancelled => exact absurd there (goes interval cancelled)
      | _ => rfl
  · rename_i served
    exact other served

/-! ## Steps -/

variable [Clock τ] {source : Source τ σ κ} {w : World τ σ κ}

theorem summoned_runTurn {turn : Turn (Target κ)} {rest : List (Turn (Target κ))}
    (inLine : w.ready.Perm (turn :: rest)) (summoned : Summoned w) :
    Summoned (Timeline.runTurn (act source) turn { w with ready := rest }) := by
  obtain ⟨target, relays⟩ := turn
  let left : World τ σ κ := { w with ready := rest }
  -- whoever has a turn has it still, unless it is this one
  have missed (apart : Option Nat)
      (other : ∀ id, some id ≠ apart → (⟨.caller id, 0⟩ : Turn (Target κ)) ≠ ⟨target, relays⟩) :
      SummonedBut apart left := by
    intro interval cancelled ended id mine there
    have mem := inLine.mem_iff.1 (summoned interval cancelled ended id (by simp) there)
    exact (List.mem_cons.1 mem).resolve_left (other id mine)
  cases relays with
  | succ relays =>
    have same : Summoned left := missed none (by simp)
    exact same.frame rfl rfl (List.subset_append_left _ _)
  | zero =>
    cases target with
    | loop => exact summoned_loopTurn (missed none (by simp)) source
    | attempt ticket => exact summoned_attemptTurn (missed none (by simp)) source ticket
    | fetch ticket token => exact summoned_fetchTurn (missed none (by simp)) source ticket token
    | caller id =>
      refine summoned_callerTurn (missed (some id) fun number other same => ?_)
      cases same
      exact other rfl

omit [Clock τ] in
/-- After the end of the loop, a call to stop is answered at once. -/
theorem summoned_askToStop {id : Nat} {w : World τ σ κ} (summoned : SummonedBut (some id) w) :
    Summoned (askToStop id w) := by
  let asked : World τ σ κ := w.modify fun k => { k with stopAsked := true }
  have same : SummonedBut (some id) asked := summoned.frame rfl rfl (List.Subset.refl _)
  unfold askToStop
  dsimp only
  split
  · rename_i loopless
    refine summoned_of_goes fun l there => ?_
    cases loopless.symm.trans there
  · exact summoned_answerStop same _
  · exact (summoned_setPhase rfl (asked.disarm .loop)).frame rfl rfl (List.subset_append_left _ _)
  · rename_i l ended resting there
    refine summoned_of_goes fun m there' => ?_
    cases there.symm.trans there'
    obtain ⟨interval, phase⟩ := l
    cases phase with
    | ended cancelled => exact absurd rfl (ended interval cancelled)
    | _ => rfl

omit [Clock τ] [DecidableEq κ] in
theorem summoned_startLoop (id : Nat) (interval : τ) {w : World τ σ κ} (summoned : Summoned w) :
    Summoned (startLoop id interval w) := by
  unfold startLoop
  refine SummonedBut.answer ?_ (.inl rfl) _
  split
  · refine summoned_of_goes fun l there => ?_
    cases there
    rfl
  · exact summoned.frame rfl rfl (List.Subset.refl _)

omit [DecidableEq κ] in
theorem summoned_waitForSync (id : Nat) (timeout : Option τ) {w : World τ σ κ}
    (summoned : Summoned w) : Summoned (waitForSync id timeout w) := by
  unfold waitForSync
  split
  · exact summoned.answer (.inl rfl) _
  · have woken : Summoned
        (if w.state.stopSignal then w.wake (.caller id) signalRelays else w) := by
      split
      · exact summoned.frame rfl rfl (List.subset_append_left _ _)
      · exact summoned
    dsimp only
    split
    · exact woken.frame rfl rfl (List.Subset.refl _)
    · exact woken

theorem summoned_call (c : Call τ) (summoned : Summoned w) : Summoned (call source c w) := by
  let called : World τ σ κ := w.modify fun k => { k with callers := k.callers ++ [{ call := c }] }
  have made (apart : Option Nat) (mine : c.isStop = true → some w.state.callers.length = apart) :
      SummonedBut apart called := by
    intro interval cancelled ended id other there
    rcases Desk.old_or_new there with old | ⟨rfl, new⟩
    · exact summoned interval cancelled ended id (by simp) old
    · cases new
      exact absurd (mine rfl) other
  unfold call
  cases c with
  | refresh => exact summoned_arrive (made none (by simp [Call.isStop])) source _
  | stop => exact summoned_askToStop (made (some _) fun _ => rfl)
  | start interval => exact summoned_startLoop _ _ (made none (by simp [Call.isStop]))
  | waitForSync timeout => exact summoned_waitForSync _ _ (made none (by simp [Call.isStop]))

theorem summoned_of_step {v : World τ σ κ} (step : Step source v w) (summoned : Summoned v) :
    Summoned w := by
  cases step with
  | call c => exact summoned_call c summoned
  | turn inLine => exact summoned_runTurn inLine summoned
  | @ring alarm others set =>
    simp only [Timeline.ring, Timeline.reach]
    split <;> exact summoned.frame rfl rfl (List.subset_append_left _ _)
  | pass moment =>
    unfold Timeline.reach
    split
    · exact summoned.frame rfl rfl (List.Subset.refl _)
    · exact summoned

/-- In every reachable world in which the loop has ended, every call to stop that has no answer has
a turn in line. -/
theorem Reachable.summoned {strict : Bool} (reached : Reachable source strict w) : Summoned w := by
  refine Run.keeps (fun _ _ step summoned => summoned_of_step step summoned) reached ?_
  exact summoned_of_goes fun l there => nomatch there

end World

end ApiCatalog
