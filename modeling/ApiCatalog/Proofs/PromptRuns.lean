/-
# ApiCatalog.Proofs.PromptRuns -- runs in which time waits for whoever can run

A run leaves open when time passes.  In a prompt run it passes only while nobody is
in line, and never beyond an alarm (`Timeline.Prompt`).  Calls may still come at any
moment, and whoever is in line may be next.

Time stands still while a part has its turn (`now_act`) and while a call is made
(`now_call`).  So whatever runs at one moment is prompt (`promptly_settle`), and so is
waiting for something, if there is fuel for what comes before it
(`Nears.promptly_await`).
-/
import ApiCatalog.Proofs.Answering
import ApiCatalog.Proofs.Clocks

namespace ApiCatalog

set_option autoImplicit false

namespace Timeline

variable {τ α σ : Type} [Clock τ] {act : α → Timeline τ α σ → Timeline τ α σ}

/-- What runs next, time having waited for it. -/
def GoesPromptly (act : α → Timeline τ α σ → Timeline τ α σ) (t u : Timeline τ α σ) : Prop :=
  Goes act t u ∧ t.Prompt u

section

variable (still : ∀ target t, (act target t).now = t.now)

include still

/-- What runs at one moment runs promptly. -/
theorem promptly_settle (fuel : Nat) (t : Timeline τ α σ) :
    Relation.ReflTransGen (GoesPromptly act) t (settle act fuel t) :=
  chain_settle (fun _ _ _ line => ⟨.turn line, .inl (now_runTurn still _ _)⟩)
    (fun _ _ others taken due => ⟨.alarm taken, prompt_ring_of_due due others⟩) fuel t

/-- With fuel for what comes before it, something is waited for promptly. -/
theorem Nears.promptly_await [Clock.Exact τ] {Inv : Timeline τ α σ → Prop} {done : σ → Bool}
    {load : Timeline τ α σ → Nat} (nears : Nears act Inv done load) {fuel : Nat} (rounds : Nat)
    {t : Timeline τ α σ} (inv : Inv t) (enough : load t ≤ fuel) :
    Relation.ReflTransGen (GoesPromptly act) t (Timeline.await act done fuel rounds t) := by
  refine chain_await (P := fun t => Inv t ∧ load t ≤ fuel)
    (fun t _ => promptly_settle still fuel t) ?_ rounds ⟨inv, enough⟩
  rintro t alarm others ⟨inv, enough⟩ waiting taken
  obtain ⟨line, lighter⟩ := (nears.settle inv enough).resolve_left (by simp [waiting])
  have inv' := (nears.onward (goes_settle act fuel t) inv).1
  have goes : Goes act (Timeline.settle act fuel t) _ := .alarm taken
  have less := nears.nearer inv' goes waiting
  exact ⟨⟨goes, prompt_ring taken line⟩, nears.keeps inv' goes, by omega⟩

end

end Timeline

namespace World

variable {τ σ κ : Type} [Clock τ] {source : Source τ σ κ} {v w : World τ σ κ}

/-! ## Time stands still -/

theorem now_absorb (ticket : Nat) (owner : Owner) (began : τ) (p : Progress τ σ κ)
    (w : World τ σ κ) : (absorb ticket owner began p w).now = w.now :=
  (core_absorb ticket owner began p w).now.trans (Core.now_absorb ..)

theorem now_begin (source : Source τ σ κ) (ticket : Nat) (owner : Owner) (w : World τ σ κ) :
    (begin source ticket owner w).now = w.now := now_absorb ..

theorem now_arrive (source : Source τ σ κ) (owner : Owner) (w : World τ σ κ) :
    (arrive source owner w).now = w.now := by
  simp only [arrive]
  split
  · exact now_begin ..
  · rfl

theorem now_loopTurn (source : Source τ σ κ) (w : World τ σ κ) :
    (loopTurn source w).now = w.now := by
  have goes : (if w.state.stopAsked then endLoop false w
      else w.modify (·.setPhase (.refreshing w.now)) |> arrive source .loop).now = w.now := by
    split
    · rfl
    · exact now_arrive ..
  unfold loopTurn
  split
  · exact goes
  · exact goes
  · rfl

theorem now_waitForSync (id : Nat) (timeout : Option τ) (w : World τ σ κ) :
    (waitForSync id timeout w).now = w.now := by
  simp only [waitForSync]
  split
  · rfl
  · split <;> split <;> rfl

omit [Clock τ] in
theorem now_startLoop (id : Nat) (interval : τ) (w : World τ σ κ) :
    (startLoop id interval w).now = w.now := by
  simp only [startLoop]
  split <;> rfl

variable [DecidableEq κ]

/-- While a part has its turn time stands still. -/
theorem now_act (source : Source τ σ κ) (target : Target κ) (w : World τ σ κ) :
    (act source target w).now = w.now := by
  cases target with
  | loop => exact now_loopTurn source w
  | attempt ticket =>
    simp only [act, attemptTurn]
    split
    · split
      · exact now_begin ..
      · rfl
    · rfl
  | fetch ticket token =>
    simp only [act, fetchTurn]
    split
    · exact now_absorb ..
    · rfl
  | caller id => exact congrArg Core.now (core_callerTurn id w)

omit [Clock τ] in
theorem now_askToStop (id : Nat) (w : World τ σ κ) : (askToStop id w).now = w.now := by
  simp only [askToStop, answerStop]
  split
  · rfl
  · split <;> rfl
  · rfl
  · rfl

/-- While a call is made time stands still. -/
theorem now_call (source : Source τ σ κ) (c : Call τ) (w : World τ σ κ) :
    (call source c w).now = w.now := by
  cases c with
  | refresh => exact now_arrive ..
  | start interval => exact now_startLoop ..
  | stop => exact now_askToStop ..
  | waitForSync timeout => exact now_waitForSync ..

/-! ## Prompt runs -/

/-- What may happen next to a world, time having waited for whoever could run. -/
def PromptStep (source : Source τ σ κ) (v w : World τ σ κ) : Prop :=
  Step source v w ∧ v.Prompt w

/-- The second world comes from the first by steps for which time has waited. -/
def PromptRun (source : Source τ σ κ) : World τ σ κ → World τ σ κ → Prop :=
  Relation.ReflTransGen (PromptStep source)

theorem PromptRun.run (onward : PromptRun source v w) : Run source v w :=
  Relation.ReflTransGen.mono (fun _ _ step => step.1) _ _ onward

theorem PromptRun.trans {u : World τ σ κ} (first : PromptRun source u v)
    (second : PromptRun source v w) : PromptRun source u w :=
  Relation.ReflTransGen.trans first second

/-- What every prompt step between worlds on the way keeps, a prompt run keeps. -/
theorem PromptRun.keeps {P : World τ σ κ → Prop}
    (step : ∀ v w, PromptStep source v w → P v → P w) (onward : PromptRun source v w)
    (first : P v) : P w := by
  unfold PromptRun at onward
  induction onward with
  | refl => exact first
  | tail before last ih => exact step _ _ last ih

theorem promptRun_of_goes (goes : Relation.ReflTransGen (Timeline.GoesPromptly (act source)) v w) :
    PromptRun source v w :=
  Relation.ReflTransGen.mono (fun _ _ next => ⟨step_of_goes next.1, next.2⟩) _ _ goes

theorem promptRun_call (c : Call τ) (w : World τ σ κ) : PromptRun source w (call source c w) :=
  .single ⟨.call w c, .inl (now_call source c w)⟩

theorem promptRun_settle (fuel : Nat) (w : World τ σ κ) :
    PromptRun source w (settle source fuel w) :=
  promptRun_of_goes (Timeline.promptly_settle (now_act source) fuel w)

/-- Time passes to a moment before which nobody can run, and who can run then does. -/
theorem promptRun_reach {moment : τ} (line : w.ready = [])
    (alarms : ∀ alarm ∈ w.alarms, ¬ alarm.due < moment) (fuel : Nat) :
    PromptRun source w (settle source fuel (w.reach moment)) := by
  refine .head ⟨.pass w moment, ?_⟩ (promptRun_settle fuel _)
  by_cases ahead : w.now < moment
  · refine .inr ⟨line, ?_⟩
    rwa [Timeline.now_reach, later, if_pos ahead]
  · exact .inl (by rw [Timeline.now_reach, later, if_neg ahead])

end World

end ApiCatalog
