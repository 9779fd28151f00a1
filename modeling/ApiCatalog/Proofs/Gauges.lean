/-
# ApiCatalog.Proofs.Gauges -- what is measured of the published snapshot

The snapshot, the signal that there is one, and the four gauges are written one
after the other, where an attempt publishes, and nowhere else.

* `gauges_replay`: the gauges show the snapshot that the ledger shows, after any
  course of refreshes;
* `exists_latest`: that snapshot was brought by the latest attempt that published,
  and bears the time at which its fetch began;
* `starts_of_step`: that time is the moment at which the attempt had the lock and
  started its fetch (`Starts`);
* `length_names`: the resource types that are counted are those that can be found.
-/
import ApiCatalog.Proofs.Accounts
import ApiCatalog.Proofs.AfterStop
import ApiCatalog.Proofs.Tables

namespace ApiCatalog

set_option autoImplicit false

/-! ## The names of a snapshot -/

namespace Snapshot

universe u

variable {τ : Type u} (s : Snapshot τ)

/-- The resource types of a snapshot, each by its group-version and its name. -/
def names : List (String × String) :=
  s.groupVersions.entries.flatMap fun pair => pair.2.resources.keys.map (Prod.mk pair.1)

/-- The names are those of the resource types that can be found. -/
theorem mem_names_iff {apiVersion resource : String} :
    (apiVersion, resource) ∈ s.names ↔ (s.get? apiVersion resource).isSome = true := by
  simp only [names, List.mem_flatMap, List.mem_map, Prod.mk.injEq]
  constructor
  · rintro ⟨⟨text, entry⟩, filed, name, listed, rfl, rfl⟩
    rw [get?, Table.get?_eq_some_iff_mem.2 filed, Option.bind_some, ← Table.mem_keys_iff]
    exact listed
  · intro found
    obtain ⟨d, found⟩ := Option.isSome_iff_exists.1 found
    obtain ⟨entry, filed, inside⟩ := Option.bind_eq_some_iff.1 found
    refine ⟨⟨apiVersion, entry⟩, Table.get?_eq_some_iff_mem.1 filed, resource, ?_, rfl, rfl⟩
    rw [Table.mem_keys_iff, inside]
    rfl

/-- No resource type is listed twice. -/
theorem nodup_names : s.names.Nodup := by
  unfold names
  rw [List.nodup_flatMap]
  refine ⟨fun pair _ => ?_, ?_⟩
  · refine List.Nodup.map ?_ pair.2.resources.nodup_keys
    exact fun a b same => congrArg Prod.snd same
  · refine (List.pairwise_map.1 s.groupVersions.distinct).imp ?_
    intro first second other name mem mem'
    obtain ⟨_, -, rfl⟩ := List.mem_map.1 mem
    obtain ⟨_, -, same⟩ := List.mem_map.1 mem'
    exact other (congrArg Prod.fst same).symm

/-- The resource types that are counted are those that are listed. -/
theorem length_names : s.names.length = s.resourceCount := by
  have sum : s.resourceCount =
      (s.groupVersions.values.map fun entry => entry.resources.size).sum := by
    rw [List.sum_eq_foldl, List.foldl_map]
    rfl
  rw [names, List.length_flatMap, sum]
  simp [Table.values, Function.comp_def]

end Snapshot

/-! ## Gauges -/

/-- The gauges that show the published snapshot. -/
structure Gauges (τ : Type) where
  groupVersions : Option Nat := none
  resources : Option Nat := none
  synced : Option Nat := none
  lastSuccess : Option τ := none

section

variable {τ σ : Type}

/-- The gauges as they are set. -/
def Meters.gauges (m : Meters τ) : Gauges τ :=
  ⟨m.groupVersions, m.resources, m.synced, m.lastSuccess⟩

/-- The gauges of a snapshot; without one, none is set. -/
def Gauges.of : Option (Snapshot τ) → Gauges τ
  | none => {}
  | some s => ⟨some s.groupVersions.size, some s.resourceCount, some 1, some s.fetchedAt⟩

namespace Account

/-- The gauges go along with the snapshot that is shown. -/
theorem gauges_judge {x : Account τ} {l : Ledger τ} (shows : x.meters.gauges = .of l.snapshot)
    (strict : Bool) (began : τ) (outcome : Outcome) :
    (x.judge strict began outcome).meters.gauges = .of (l.after strict began outcome).snapshot := by
  cases outcome with
  | error why => cases why <;> exact shows
  | ok listings =>
    simp only [judge, Ledger.after]
    cases indexed : (Snapshot.index strict listings).result with
    | ok entries => rfl
    | error why =>
      rcases Snapshot.refusal_of_index indexed with ⟨cause, rfl⟩ | rfl | rfl <;> exact shows

theorem gauges_replay [Sub τ] (strict : Bool) (attempts : List (Attempt τ σ)) :
    (replay strict attempts).meters.gauges =
      .of (Ledger.replay strict (attempts.filterMap Attempt.course?)).snapshot := by
  induction attempts using List.reverseRecOn with
  | nil => rfl
  | append_singleton attempts a ih =>
    rw [replay_append_singleton, List.filterMap_append]
    obtain ⟨owner, arrived, stage⟩ := a
    cases stage with
    | ended began ended outcome verdict =>
      show _ = Gauges.of (Ledger.replay strict (_ ++ [(began, outcome)])).snapshot
      rw [Ledger.replay_append_singleton]
      exact gauges_judge (x := (replay strict attempts).say .refreshStarted) ih strict began outcome
    | _ =>
      show _ = Gauges.of (Ledger.replay strict (_ ++ [])).snapshot
      rw [List.append_nil]
      exact ih

end Account

end

/-! ## The latest attempt that published -/

namespace Ledger

variable {τ : Type} {strict : Bool} {course : List (τ × Outcome)}

/-- The snapshot that is shown is what the latest fetch that was published has brought. -/
theorem exists_latest {s : Snapshot τ} (shown : (replay strict course).snapshot = some s) :
    ∃ before listings after, course = before ++ (s.fetchedAt, .ok listings) :: after ∧
      (Snapshot.index strict listings).result = .ok s.groupVersions ∧
      ∀ fetch ∈ after, Verdict.of strict fetch.2 ≠ .published := by
  induction course using List.reverseRecOn with
  | nil => cases shown
  | append_singleton course fetch ih =>
    obtain ⟨began, outcome⟩ := fetch
    rw [replay_append_singleton] at shown
    by_cases published : Verdict.of strict outcome = .published
    · obtain ⟨listings, entries, rfl, indexed, shown'⟩ :=
        snapshot_after_of_published published (replay strict course) began
      cases Option.some.inj (shown'.symm.trans shown)
      exact ⟨course, listings, [], rfl, indexed, by simp⟩
    · rw [snapshot_after_of_kept published] at shown
      obtain ⟨before, listings, after, split, indexed, none⟩ := ih shown
      refine ⟨before, listings, after ++ [(began, outcome)], by simp [split], indexed, ?_⟩
      intro fetch mem
      rcases List.mem_append.1 mem with old | new
      · exact none fetch old
      · cases List.mem_singleton.1 new
        exact published

/-- Once a snapshot is shown, there is one after any further refreshes. -/
theorem isSome_replay_append (shown : (replay strict course).snapshot.isSome = true)
    (more : List (τ × Outcome)) : (replay strict (course ++ more)).snapshot.isSome = true := by
  rcases snapshot_replay_append strict course more with same | ⟨s, there, -⟩
  · rwa [same]
  · simp [there]

/-- There is a snapshot if and only if a fetch was published. -/
theorem isSome_replay_iff : (replay strict course).snapshot.isSome = true ↔
    ∃ fetch ∈ course, Verdict.of strict fetch.2 = .published := by
  constructor
  · intro shown
    obtain ⟨s, shown⟩ := Option.isSome_iff_exists.1 shown
    obtain ⟨before, listings, after, split, indexed, -⟩ := exists_latest shown
    refine ⟨(s.fetchedAt, .ok listings), by simp [split], ?_⟩
    exact Verdict.of_eq_published_iff.2 ⟨listings, _, rfl, indexed⟩
  · rintro ⟨⟨began, outcome⟩, mem, published⟩
    obtain ⟨before, after, rfl⟩ := List.append_of_mem mem
    rw [← List.singleton_append, ← List.append_assoc]
    refine isSome_replay_append ?_ after
    rw [replay_append_singleton]
    obtain ⟨listings, entries, -, -, shown⟩ :=
      snapshot_after_of_published published (replay strict before) began
    simp [shown]

end Ledger

/-! ## The moment at which a fetch starts -/

theorem Attempt.began?_of_course? {τ σ : Type} {a : Attempt τ σ} {fetch : τ × Outcome}
    (course : a.course? = some fetch) : a.began? = some fetch.1 := by
  obtain ⟨owner, arrived, stage⟩ := a
  cases stage <;> cases course
  rfl

/-- When the fetch of an attempt began, if there is such an attempt and its fetch has begun. -/
def Attempt.beganAt? {τ σ : Type} (attempts : List (Attempt τ σ)) (n : Nat) : Option τ :=
  attempts[n]?.bind Attempt.began?

namespace Core

variable {τ σ κ : Type} {c d : Core τ σ}

theorem Outlives.now (outlives : c.Outlives d) : d.now = c.now := by
  rcases outlives with rfl | rfl <;> rfl

theorem now_absorb (ticket : Nat) (owner : Owner) (began : τ) (p : Progress τ σ κ)
    (c : Core τ σ) : (c.absorb ticket owner began p).now = c.now := by
  simp only [absorb]
  cases p.outcome with
  | none => rfl
  | some outcome => exact now_conclude ..

/-- What a fetch does leaves the other attempts as they were. -/
theorem beganAt?_absorb (ticket : Nat) (owner : Owner) (began : τ) (p : Progress τ σ κ)
    (c : Core τ σ) (n : Nat) : Attempt.beganAt? (c.absorb ticket owner began p).attempts n =
      if ticket = n then c.attempts[n]?.map fun _ => began else Attempt.beganAt? c.attempts n := by
  have staged (stage : AttemptStage τ σ)
      (is : ∀ a : Attempt τ σ, ({ a with stage } : Attempt τ σ).began? = some began) :
      Attempt.beganAt? (c.setStage ticket stage).attempts n =
        if ticket = n then c.attempts[n]?.map fun _ => began
          else Attempt.beganAt? c.attempts n := by
    simp only [Attempt.beganAt?, setStage, List.getElem?_modify]
    split
    · cases c.attempts[n]? with
      | none => rfl
      | some a => exact is a
    · simp
  simp only [absorb]
  cases p.outcome with
  | none => exact staged _ fun a => rfl
  | some outcome =>
    simp only [conclude, attempts_goOn, settle, setStage, List.modify_modify_eq]
    exact staged (.ended began c.now outcome (Verdict.of c.strict outcome)) fun a => rfl

end Core

/-- The first fetch fails after two units, the second brings one resource type after another unit,
and the others fail. -/
def Source.late : Nat → Reply Int (Option (List Listing))
  | 0 => ⟨some 2, .error (.raised .timeout "timed out")⟩
  | 1 =>
    let pods : List Record := [{ name := some "pods", kind := some "Pod" },
      { name := some "pods/status", kind := some "Pod" }]
    ⟨some 1, .ok (some [⟨some "v1", some pods⟩])⟩
  | _ => ⟨none, .error (.raised .timeout "timed out")⟩

namespace World

variable {τ σ κ : Type} {source : Source τ σ κ} {v w : World τ σ κ}

/-- Whatever fetch has started between two worlds has started just now, and the lock was free
before. -/
def Starts (v w : World τ σ κ) : Prop :=
  ∀ n t, Attempt.beganAt? v.state.attempts n = none →
    Attempt.beganAt? w.state.attempts n = some t → t = w.now ∧ v.state.locked = false

theorem starts_of_attempts (same : w.state.attempts = v.state.attempts) : Starts v w := by
  intro n t before after
  rw [same] at after
  cases before.symm.trans after

/-- A new attempt has not begun its fetch. -/
theorem beganAt?_join (owner : Owner) (arrived : τ) (attempts : List (Attempt τ σ)) (n : Nat) :
    Attempt.beganAt? (attempts ++ [⟨owner, arrived, .queued⟩]) n =
      Attempt.beganAt? attempts n := by
  unfold Attempt.beganAt?
  rcases Nat.lt_trichotomy n attempts.length with inside | rfl | outside
  · rw [List.getElem?_append_left inside]
  · rw [List.getElem?_concat_length, List.getElem?_eq_none (Nat.le_refl _)]
    rfl
  · rw [List.getElem?_eq_none (Nat.le_of_lt outside), List.getElem?_eq_none]
    simpa using Nat.succ_le_of_lt outside

section

variable [Clock τ]

/-- A fetch that goes on starts no other. -/
theorem starts_fetchTurn (ticket : Nat) (token : κ) (v : World τ σ κ) :
    Starts v (fetchTurn source ticket token v) := by
  unfold fetchTurn
  split
  · rename_i owner arrived began work there
    intro n t before after
    have moved : (absorb ticket owner began (source.resume work token) v).state.attempts = _ :=
      (core_absorb ticket owner began (source.resume work token) v).attempts
    rw [moved, Core.beganAt?_absorb] at after
    split at after
    · rename_i same
      subst same
      rw [Attempt.beganAt?, there] at before
      cases before
    · cases before.symm.trans after
  · exact starts_of_attempts rfl

/-- An attempt that takes the free lock starts its fetch now, and no other attempt does. -/
theorem starts_begin (free : v.state.locked = false) (ticket : Nat) (owner : Owner) :
    Starts v (begin source ticket owner v) := by
  intro n t before after
  have outlives := core_begin source ticket owner (w := v) rfl
  have now : (begin source ticket owner v).now = v.now :=
    outlives.now.trans (Core.now_absorb ..)
  have moved : (begin source ticket owner v).state.attempts = _ := outlives.attempts
  rw [moved, Core.beganAt?_absorb] at after
  rw [now]
  split at after
  · obtain ⟨a, -, rfl⟩ := Option.map_eq_some_iff.1 after
    exact ⟨rfl, free⟩
  · cases before.symm.trans after

/-- A refresh that is asked for starts its fetch now, if the lock is free. -/
theorem starts_arrive (owner : Owner) (v : World τ σ κ) : Starts v (arrive source owner v) := by
  intro n t before after
  rw [← beganAt?_join owner v.now] at before
  simp only [arrive] at after ⊢
  split
  · rename_i free
    have both : v.state.locked = false ∧ v.state.queue = [] := by simpa using free
    rw [if_pos free] at after
    let joined := v.modify fun k =>
      { k with attempts := k.attempts ++ [{ owner, arrived := v.now }] }
    exact starts_begin (v := joined) both.1 _ owner n t before after
  · rename_i busy
    rw [if_neg busy] at after
    cases before.symm.trans after

theorem starts_attemptTurn (ticket : Nat) (v : World τ σ κ) :
    Starts v (attemptTurn source ticket v) := by
  unfold attemptTurn
  split
  · rename_i head rest attempt queue there
    split
    · rename_i may
      have both : head = ticket ∧ v.state.locked = false := by simpa using may
      exact starts_begin (v := v.modify fun k => { k with queue := rest }) both.2 _ _
    · exact starts_of_attempts rfl
  · exact starts_of_attempts rfl

theorem starts_loopTurn (v : World τ σ κ) : Starts v (loopTurn source v) := by
  have tick : Starts v (if v.state.stopAsked then endLoop false v
      else v.modify (·.setPhase (.refreshing v.now)) |> arrive source .loop) := by
    split
    · exact starts_of_attempts rfl
    · exact starts_arrive .loop (v.modify (·.setPhase (.refreshing v.now)))
  unfold loopTurn
  split
  · exact tick
  · exact tick
  · exact starts_of_attempts rfl

variable [DecidableEq κ]

theorem starts_call (c : Call τ) (v : World τ σ κ) : Starts v (call source c v) := by
  unfold call
  cases c with
  | refresh =>
    let called := v.modify fun k => { k with callers := k.callers ++ [{ call := .refresh }] }
    exact starts_arrive _ called
  | start interval => exact starts_of_attempts (attempts_startLoop _ _ _)
  | stop => exact starts_of_attempts (attempts_askToStop _ _)
  | waitForSync timeout => exact starts_of_attempts (attempts_waitForSync _ _ _)

theorem starts_act (target : Target κ) (v : World τ σ κ) : Starts v (act source target v) := by
  cases target with
  | loop => exact starts_loopTurn v
  | attempt ticket => exact starts_attemptTurn ticket v
  | fetch ticket token => exact starts_fetchTurn ticket token v
  | caller id => exact starts_of_attempts (congrArg Core.attempts (core_callerTurn id v))

/-- A fetch starts at the moment of the step in which it starts, and no other is in flight. -/
theorem starts_of_step (step : Step source v w) : Starts v w := by
  cases step with
  | call c => exact starts_call c v
  | @turn turn rest inLine =>
    obtain ⟨target, relays⟩ := turn
    cases relays with
    | zero => exact starts_act target { v with ready := rest }
    | succ relays => exact starts_of_attempts rfl
  | @ring alarm others set =>
    refine starts_of_attempts ?_
    simp only [Timeline.ring, Timeline.reach, Timeline.wake]
    split <;> rfl
  | pass moment =>
    refine starts_of_attempts ?_
    unfold Timeline.reach
    split <;> rfl

end

/-! ## The mirror -/

theorem isPublished_iff {a : Attempt τ σ} :
    a.isPublished = true ↔ a.verdict? = some .published := by
  obtain ⟨owner, arrived, stage⟩ := a
  cases stage with
  | ended began ended outcome verdict =>
    cases verdict <;> simp [Attempt.isPublished, Attempt.verdict?]
  | _ => simp [Attempt.isPublished, Attempt.verdict?]

/-- The signals and the gauges show the published snapshot. -/
structure Mirrors (w : World τ σ κ) : Prop where
  signalled : w.state.syncSignal = w.state.isSynced
  published : w.state.isSynced = true ↔ ∃ a ∈ w.state.attempts, a.isPublished = true
  unset : w.state.isSynced = false → w.state.meters.gauges = {}
  shown : ∀ s, w.state.snapshot = some s →
    w.state.meters.synced = some 1 ∧
    w.state.meters.groupVersions = some s.groupVersions.keys.length ∧
    w.state.meters.resources = some s.names.length ∧
    w.state.meters.lastSuccess = some s.fetchedAt
  /-- The resource types that are counted are those that can be found. -/
  names : ∀ s, w.state.snapshot = some s → s.names.Nodup ∧ ∀ apiVersion resource,
    (apiVersion, resource) ∈ s.names ↔ (s.get? apiVersion resource).isSome = true
  /-- The snapshot is that of the latest attempt that published, and bears the time at which its
  fetch began. -/
  latest : ∀ s, w.state.snapshot = some s → ∃ (n : Nat) (a : Attempt τ σ),
    w.state.attempts[n]? = some a ∧ a.isPublished = true ∧ a.began? = some s.fetchedAt ∧
    ∀ (m : Nat) (b : Attempt τ σ), n < m → w.state.attempts[m]? = some b → b.isPublished = false

section

variable {strict : Bool} {l : Line τ σ} (sound : (core w).Sound source strict l)

include sound

/-- An attempt that has published has a place in the course of the refreshes. -/
theorem exists_course {n : Nat} {a : Attempt τ σ} (there : w.state.attempts[n]? = some a)
    (published : a.isPublished = true) : ∃ fetch, w.state.course[n]? = some fetch ∧
      Verdict.of strict fetch.2 = .published := by
  obtain ⟨fetch, course, verdict⟩ := Option.map_eq_some_iff.1
    ((sound.judged (List.mem_of_getElem? there)).symm.trans (isPublished_iff.1 published))
  refine ⟨fetch, (sound.kept.orderly.getElem?_course n).trans ?_, verdict⟩
  rw [show (core w).attempts[n]? = some a from there]
  exact course

/-- There is a snapshot if and only if an attempt has published one. -/
theorem isSynced_iff :
    w.state.isSynced = true ↔ ∃ a ∈ w.state.attempts, a.isPublished = true := by
  rw [Keeper.isSynced, snapshot_eq sound, Ledger.isSome_replay_iff]
  constructor
  · rintro ⟨fetch, mem, published⟩
    obtain ⟨n, made⟩ := List.mem_iff_getElem?.1 mem
    obtain ⟨a, there, -, verdict⟩ := exists_of_course sound made
    exact ⟨a, List.mem_of_getElem? there, isPublished_iff.2 (published ▸ verdict)⟩
  · rintro ⟨a, mem, published⟩
    obtain ⟨n, there⟩ := List.mem_iff_getElem?.1 mem
    obtain ⟨fetch, made, verdict⟩ := exists_course sound there published
    exact ⟨fetch, List.mem_of_getElem? made, verdict⟩

/-- The snapshot is that of the latest attempt that published. -/
theorem exists_latest {s : Snapshot τ} (shown : w.state.snapshot = some s) :
    ∃ (n : Nat) (a : Attempt τ σ),
      w.state.attempts[n]? = some a ∧ a.isPublished = true ∧ a.began? = some s.fetchedAt ∧
      ∀ (m : Nat) (b : Attempt τ σ), n < m → w.state.attempts[m]? = some b →
        b.isPublished = false := by
  obtain ⟨before, listings, after, split, indexed, none⟩ :=
    Ledger.exists_latest ((snapshot_eq sound).symm.trans shown)
  have made : w.state.course[before.length]? = some (s.fetchedAt, .ok listings) := by
    simp [split]
  have published := Verdict.of_eq_published_iff.2 ⟨listings, _, rfl, indexed⟩
  obtain ⟨a, there, course, verdict⟩ := exists_of_course sound made
  refine ⟨before.length, a, there, isPublished_iff.2 (published ▸ verdict),
    Attempt.began?_of_course? course, fun m b later there' => ?_⟩
  by_contra published'
  obtain ⟨fetch, made', verdict'⟩ := exists_course sound there' (by simpa using published')
  obtain ⟨k, rfl⟩ := Nat.exists_eq_add_of_lt later
  rw [split, List.getElem?_append_right (by omega),
    show before.length + k + 1 - before.length = k + 1 by omega] at made'
  exact none fetch (List.mem_of_getElem? made') verdict'

end

variable [Clock τ] [DecidableEq κ] {strict : Bool}

/-- In every reachable world the gauges are those of the snapshot. -/
theorem Reachable.gauges (reached : Reachable source strict w) :
    w.state.meters.gauges = .of w.state.snapshot := by
  obtain ⟨l, sound⟩ := reached.sound
  have audited : account w = Account.replay strict w.state.attempts := reached.audited
  calc w.state.meters.gauges
      = (Account.replay strict w.state.attempts).meters.gauges :=
        congrArg (·.meters.gauges) audited
    _ = .of (Ledger.replay strict w.state.course).snapshot := Account.gauges_replay strict _
    _ = .of w.state.snapshot := by rw [snapshot_eq sound]

/-- In every reachable world the signals and the gauges show the published snapshot. -/
theorem Reachable.mirrors (reached : Reachable source strict w) : Mirrors w := by
  obtain ⟨l, sound⟩ := reached.sound
  have gauges := reached.gauges
  refine {
    signalled := reached.tidy.lives.synced
    published := isSynced_iff sound
    unset := ?unset
    shown := ?shown
    names := fun s _ => ⟨s.nodup_names, fun _ _ => s.mem_names_iff⟩
    latest := fun _ => exists_latest sound }
  case unset =>
    intro unsynced
    rw [gauges, Option.not_isSome_iff_eq_none.1 (Bool.eq_false_iff.1 unsynced)]
    rfl
  case shown =>
    intro s shown
    rw [shown] at gauges
    rw [s.groupVersions.length_keys, s.length_names]
    exact ⟨congrArg Gauges.synced gauges, congrArg Gauges.groupVersions gauges,
      congrArg Gauges.resources gauges, congrArg Gauges.lastSuccess gauges⟩

/-- Once there is a snapshot, there is one at any later time. -/
theorem isSynced_of_run (reached : Reachable source strict v) (onward : Run source v w)
    (synced : v.state.isSynced = true) : w.state.isSynced = true := by
  obtain ⟨l, sound⟩ := reached.sound
  obtain ⟨m, sound'⟩ := (reached.run onward).sound
  obtain ⟨more, split⟩ := (prefix_of_run reached onward).2
  rw [Keeper.isSynced, snapshot_eq sound', ← split]
  rw [Keeper.isSynced, snapshot_eq sound] at synced
  exact Ledger.isSome_replay_append synced more

/-- In every reachable world and ever after, the signals and the gauges show the published snapshot;
once there is one, there always is; and the time that it bears is the moment at which the attempt
that brought it got the lock and started its fetch. -/
theorem gauges_mirror (reached : Reachable source strict v) (onward : Run source v w) :
    Mirrors w ∧ (v.state.isSynced = true → w.state.isSynced = true) ∧
      ∀ x, Step source w x → Starts w x :=
  ⟨(reached.run onward).mirrors, isSynced_of_run reached onward, fun _ => starts_of_step⟩

/-- Two calls to refresh, of which the first fails after two units and the second then takes one;
and a failure after that.  What is shown bears the time at which the second fetch began, not that of
the call nor that of its end. -/
theorem gauges_mirror_waiting :
    let source : Source Int Outcome Unit := .answering Source.late
    let v := settle source 20 <| call source .refresh <| call source .refresh (init true)
    let w := advance source 9 20 <| call source .refresh <| advance source 3 20 v
    Mirrors w ∧ v.state.isSynced = false ∧ w.state.isSynced = true ∧
      v.state.meters.gauges = {} ∧ w.state.meters.lastSuccess = some 2 ∧
      w.state.meters.resources = some 1 ∧ w.state.completed = 3 ∧
      (w.state.attempts[1]?).map Attempt.times = some [2, 3] ∧
      (w.state.attempts[1]?).map (·.arrived) = some 0 := by
  intro source v w
  have reached : Reachable source true v :=
    ((run_call .refresh _).trans (run_call .refresh _)).trans (run_settle 20 _)
  have onward : Run source v w :=
    ((run_advance 3 20 _).trans (run_call .refresh _)).trans (run_advance 9 20 _)
  obtain ⟨mirrors, -, -⟩ := gauges_mirror reached onward
  have before := (gauges_mirror reached (.refl v)).1
  have unsynced : v.state.isSynced = false := by decide
  exact ⟨mirrors, unsynced, by decide, before.unset unsynced, by decide, by decide, by decide,
    by decide, by decide⟩

end World

end ApiCatalog
