import BearerAuth.Proofs.KeyCache.Detached

/-!
# Lookups do not heed whether the schedule is stopped

How far the schedule is, whether it shall stop and who waits for its end is nothing to lookups and
to the refreshes that they begin.  They do whatever they would do in a cache with another schedule.

* `Brake` is that part of a state, and `State.withBrake` the state with another;
* `Action.OfLookups` are the actions of lookups and of their refreshes;
* `step_withBrake`, `after?_withBrake` : such actions lead to the same states, but for that part.

The proof: move by move.  The only one to look at the flag, or at who waits, is that of a lookup
that gives up a cache nobody uses any more, and a cache that has an owner is not given up.
-/

namespace BearerAuth.KeyCache

variable {p : Policy} {s u : State} {as : List Action} {a : Action} {id : Nat} {l : Lookup}

/-- How far the schedule is, and who has stopped it. -/
structure Brake where
  /-- The schedule. -/
  schedule : Schedule
  /-- It shall stop. -/
  cancelled : Bool
  /-- Somebody has begun to wait for its end. -/
  awaited : Bool
  /-- All who have stopped it. -/
  closings : List Closing

/-- The state with another schedule, stopped by others. -/
def State.withBrake (s : State) (b : Brake) : State :=
  { s with
    schedule := b.schedule, cancelled := b.cancelled, awaited := b.awaited, closings := b.closings }

/-- The actions of lookups and of the refreshes that they begin. -/
inductive Action.OfLookups : Action → Prop where
  /-- A key is looked up. -/
  | call (kid : String) : OfLookups (.call kid)
  /-- A lookup is given up. -/
  | abort (id : Nat) : OfLookups (.abort id)
  /-- A lookup runs. -/
  | lookup (id : Nat) (stops : Bool) (answer : Option Answer) :
    OfLookups (.run (.lookup id) stops answer)
  /-- A refresh becomes ready. -/
  | wake (id : Nat) : OfLookups (.wake (.refresh id))
  /-- A refresh runs. -/
  | refresh (id : Nat) (stops : Bool) (answer : Option Answer) :
    OfLookups (.run (.refresh id) stops answer)

namespace State

variable (b : Brake)

/-! ### Moves -/

theorem wake_withBrake (s : State) (t : Task) :
    (s.withBrake b).wake t = (s.wake t).withBrake b := by
  unfold wake
  rw [show (s.withBrake b).woken = s.woken from rfl]
  split <;> rfl

theorem ask_withBrake (s : State) (t : Task) : (s.withBrake b).ask t = (s.ask t).withBrake b := by
  unfold ask
  rw [show (s.withBrake b).holder = s.holder from rfl]
  split <;> rfl

theorem release_withBrake (s : State) : (s.withBrake b).release = s.release.withBrake b := by
  unfold release
  rw [show (s.withBrake b).queue = s.queue from rfl]
  split
  · rfl
  · rename_i t rest _
    exact wake_withBrake b { s with holder := some t, queue := rest } t

theorem finish_withBrake (owned : s.owned = true) (id : Nat) (phase : LookupPhase) :
    (s.withBrake b).finish id phase = (s.finish id phase).withBrake b := by
  have owned' : (s.withBrake b).owned = true := owned
  rw [finish_of_owned owned, finish_of_owned owned']
  rfl

theorem conclude_withBrake (owned : s.owned = true) (l : Lookup) :
    (s.withBrake b).conclude l = (s.conclude l).withBrake b := by
  unfold conclude
  rw [show (s.withBrake b).keys = s.keys from rfl]
  cases s.keys.get? l.kid <;> exact finish_withBrake b owned _ _

theorem inspect_withBrake (owned : s.owned = true) (l : Lookup) :
    (s.withBrake b).inspect p l = (s.inspect p l).withBrake b := by
  have answered (n : State) (owned : n.owned = true) :
      (n.withBrake b).release.conclude l = (n.release.conclude l).withBrake b := by
    have owned' : n.release.owned = true := (congrArg Front.owned n.front_release).trans owned
    rw [release_withBrake, conclude_withBrake b owned']
  unfold inspect
  rw [show (s.withBrake b).keys = s.keys from rfl,
    show (s.withBrake b).limited p = s.limited p from rfl]
  split
  · exact answered s owned
  split
  · exact answered (s.note _) owned
  · exact wake_withBrake b { (s.note [.missRefreshing l.kid]).setPhase l.id .refreshing with
      holder := some (.refresh l.id)
      refreshers := s.refreshers ++ [(⟨l.id, none⟩ : Refresher)] } _

theorem miss_withBrake (owned : s.owned = true) (l : Lookup) :
    (s.withBrake b).miss p l = (s.miss p l).withBrake b := by
  unfold miss
  dsimp only
  have asked := ask_withBrake b (s.setPhase l.id .queued) (.lookup l.id)
  have owned' : ((s.setPhase l.id .queued).ask (.lookup l.id)).owned = true :=
    (congrArg Front.owned (front_ask _ _)).trans owned
  rw [show ((s.withBrake b).setPhase l.id .queued).ask (.lookup l.id) = _ from asked]
  generalize (s.setPhase l.id .queued).ask (.lookup l.id) = n at owned' ⊢
  rw [show (n.withBrake b).holder = n.holder from rfl]
  split
  · exact inspect_withBrake b owned' l
  · rfl

theorem runLookup_withBrake (owned : s.owned = true) (l : Lookup) :
    (s.withBrake b).runLookup p l = (s.runLookup p l).withBrake b := by
  unfold runLookup
  rw [show (s.withBrake b).keys = s.keys from rfl, show (s.withBrake b).holder = s.holder from rfl]
  split
  · split
    · exact conclude_withBrake b owned l
    split
    · exact miss_withBrake b owned l
    · exact conclude_withBrake (s := s.note _) b owned l
  · split
    · exact inspect_withBrake b owned l
    · rfl
  · exact conclude_withBrake (s := s.note _) b owned l
  · rfl

theorem join_withBrake (s : State) (id : Nat) (how : Ending) :
    (s.withBrake b).join id how = (s.join id how).withBrake b := by
  unfold join
  rw [show (s.withBrake b).lookup? id = s.lookup? id from rfl]
  split
  · split
    · exact wake_withBrake b (s.setPhase id _) _
    · rfl
  · rfl

theorem enter_withBrake (s : State) (trigger : Trigger) (how : FetchEnd) :
    (s.withBrake b).enter p trigger how = (s.enter p trigger how).withBrake b := by
  cases how <;> rfl

theorem endRefresh_withBrake (s : State) (id : Nat) (end_ : Answer) :
    (s.withBrake b).endRefresh p id end_ = (s.endRefresh p id end_).withBrake b := by
  unfold endRefresh
  dsimp only
  have entered := enter_withBrake (p := p) b (s.note end_.events) .unknownKey end_.outcome
  rw [show ((s.withBrake b).note end_.events).enter p .unknownKey end_.outcome = _ from entered]
  generalize (s.note end_.events).enter p .unknownKey end_.outcome = n
  have released := release_withBrake b { n with refreshers := n.refreshers.filter (·.id != id) }
  rw [← join_withBrake, ← released]
  rfl

theorem launch_withBrake (s : State) (r : Refresher) :
    (s.withBrake b).launch r = (s.launch r).withBrake b := by
  unfold launch; split <;> rfl

theorem runRefresh_withBrake (s : State) (r : Refresher) (answer : Option Answer) :
    (s.withBrake b).runRefresh p r answer = (s.runRefresh p r answer).withBrake b := by
  have same : ((s.launch r).withBrake b).fetchEnd? p (r.started.getD (s.withBrake b).now) answer =
      (s.launch r).fetchEnd? p (r.started.getD s.now) answer := rfl
  rw [runRefresh_eq, runRefresh_eq, launch_withBrake, same]
  cases (s.launch r).fetchEnd? p (r.started.getD s.now) answer with
  | none => rfl
  | some end_ => exact endRefresh_withBrake b _ r.id end_

theorem waitsOutside_refresh (s : State) (id : Nat) : s.waitsOutside (.refresh id) = true ↔
    ∃ r ∈ s.refreshers, r.id = id ∧ r.started.isSome = true := by
  have apart : ((Task.refresh id == .schedule) && s.ticks.any (· ≤ s.now)) = false := rfl
  rw [waitsOutside, apart, Bool.or_false, List.any_eq_true]
  constructor
  · rintro ⟨⟨task, since⟩, flying, own⟩
    rcases mem_flights.1 flying with ⟨r, hr, started, rfl⟩ | ⟨rfl, -⟩
    · exact ⟨r, hr, Task.refresh.inj (eq_of_beq own), by rw [started]; rfl⟩
    · cases own
  · rintro ⟨r, hr, rfl, started⟩
    obtain ⟨since, started⟩ := Option.isSome_iff_exists.1 started
    exact ⟨(.refresh r.id, since), mem_flights.2 (.inl ⟨r, hr, started, rfl⟩), beq_self_eq_true _⟩

theorem waitsOutside_withBrake (s : State) (id : Nat) :
    (s.withBrake b).waitsOutside (.refresh id) = s.waitsOutside (.refresh id) := by
  rw [Bool.eq_iff_iff, waitsOutside_refresh, waitsOutside_refresh]
  rfl

theorem abort_withBrake (owned : s.owned = true) (id : Nat) :
    (s.withBrake b).abort id = (s.abort id).withBrake b := by
  have handed (n : State) (owned : n.owned = true) :
      (n.withBrake b).release.finish id .aborted =
        (n.release.finish id .aborted).withBrake b := by
    have owned' : n.release.owned = true := (congrArg Front.owned n.front_release).trans owned
    rw [release_withBrake, finish_withBrake b owned']
  rw [abort_eq, abort_eq, show (s.withBrake b).holder = s.holder from rfl]
  split
  · exact handed (s.retire _) owned
  · exact finish_withBrake b (s := s.retire _) owned id .aborted

theorem run_lookup_withBrake (owned : s.owned = true) (id : Nat) (stops : Bool)
    (answer : Option Answer) :
    (s.withBrake b).run p (.lookup id) stops answer =
      (s.run p (.lookup id) stops answer).withBrake b := by
  simp only [run]
  rw [show (s.withBrake b).lookup? id = s.lookup? id from rfl]
  cases s.lookup? id with
  | none => rfl
  | some l => exact runLookup_withBrake b owned l

theorem run_refresh_withBrake (s : State) (id : Nat) (stops : Bool) (answer : Option Answer) :
    (s.withBrake b).run p (.refresh id) stops answer =
      (s.run p (.refresh id) stops answer).withBrake b := by
  simp only [run]
  rw [show (s.withBrake b).refresher? id = s.refresher? id from rfl]
  cases s.refresher? id with
  | none => rfl
  | some r => exact runRefresh_withBrake b s r answer

end State

/-! ### Steps -/

/-- **No action of a lookup heeds how far the schedule is, or who has stopped it.** -/
theorem step_withBrake (b : Brake) (owned : s.owned = true) (ha : a.OfLookups) :
    step p (s.withBrake b) a = (step p s a).map (·.withBrake b) := by
  -- a task is taken off the ready ones before it runs
  have running {task : Task} {stops : Bool} {answer : Option Answer}
      (same : ∀ n : State, n.owned = true →
        (n.withBrake b).run p task stops answer = (n.run p task stops answer).withBrake b) :
      step p (s.withBrake b) (.run task stops answer) =
        (step p s (.run task stops answer)).map (·.withBrake b) := by
    simp only [step]
    rw [show (s.withBrake b).woken = s.woken from rfl]
    split
    · exact congrArg some (same (s.unwake task) owned)
    · rfl
  cases ha with
  | call kid =>
    rw [step, step, if_pos owned, if_pos (show (s.withBrake b).owned = true from owned)]
    exact congrArg some (State.wake_withBrake b
      { s with lookups := s.lookups ++ [s.newLookup kid], nextId := s.nextId + 1 } _)
  | abort id =>
    simp only [step]
    rw [show (s.withBrake b).lookup? id = s.lookup? id from rfl]
    split
    · split
      · rfl
      · exact congrArg some (State.abort_withBrake b owned id)
    · rfl
  | wake id =>
    simp only [step, State.waitsOutside_withBrake]
    split
    · exact congrArg some (State.wake_withBrake b s _)
    · rfl
  | lookup id stops answer =>
    exact running fun n owned => State.run_lookup_withBrake b owned id stops answer
  | refresh id stops answer =>
    exact running fun n _ => State.run_refresh_withBrake b n id stops answer

/-- **Whatever lookups do, they do with any schedule**, stopped or not. -/
theorem after?_withBrake (b : Brake) (owned : s.owned = true) (lookups : ∀ a ∈ as, a.OfLookups) :
    after? p (s.withBrake b) as = (after? p s as).map (·.withBrake b) := by
  induction as generalizing s with
  | nil => rfl
  | cons a as ih =>
    simp only [after?, step_withBrake b owned (lookups a List.mem_cons_self)]
    cases hs : step p s a with
    | none => rfl
    | some u =>
      have owned' : u.owned = true := by
        have front : u.owned = (s.front.after a).owned := congrArg Front.owned (front_step hs)
        rw [front]
        cases lookups a List.mem_cons_self <;> exact owned
      exact ih owned' fun a' ha' => lookups a' (List.mem_cons_of_mem _ ha')

end BearerAuth.KeyCache
