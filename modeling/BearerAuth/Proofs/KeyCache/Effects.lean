import BearerAuth.KeyCache.Step

/-!
# What a step of a key cache does

A step is a function of the state and the action, `none` where the action is not possible.  Here the
same is said as a relation, with one case for each kind of action and one for each kind of task.
What a step keeps is proved by these cases.

* `State.Runs` is what a task that runs makes of a state, and `Effect` what an action makes of it;
* `State.launch` is the first thing a refresh does, and `State.retire` the last thing done with one;
* `State.run_eq_iff`, `step_eq_some_iff` : the relations agree with the functions;
* `runs_of_step`, `eq_call_of_step` and their like: what a step of one kind does.
-/

namespace BearerAuth.KeyCache

namespace State

/-! ### Refreshes that run -/

/-- The state in which a refresh has started its fetch, which it does when it first runs. -/
def launch (s : State) (r : Refresher) : State :=
  if r.started.isSome then s
  else
    { s with
      fetches := s.fetches + 1
      refreshers :=
        s.refreshers.map fun x => if x.id = r.id then { x with started := some s.now } else x }

@[simp] theorem now_launch (s : State) (r : Refresher) : (s.launch r).now = s.now := by
  unfold launch; split <;> rfl

variable {s : State} {r : Refresher}

theorem launch_of_some {since : Instant} (started : r.started = some since) : s.launch r = s := by
  simp [launch, started]

theorem launch_of_none (only : s.refreshers = [r]) (unstarted : r.started = none) :
    s.launch r = { s with
      fetches := s.fetches + 1, refreshers := [{ r with started := some s.now }] } := by
  simp [launch, unstarted, only]

theorem refreshers_launch (only : s.refreshers = [r]) :
    ∃ since, (s.launch r).refreshers = [⟨r.id, some since⟩] := by
  cases started : r.started with
  | some since =>
    refine ⟨since, ?_⟩
    rw [launch_of_some started, only, ← started]
  | none =>
    refine ⟨s.now, ?_⟩
    rw [launch_of_none only started]

theorem runRefresh_eq (s : State) (p : Policy) (r : Refresher) (answer : Option Answer) :
    s.runRefresh p r answer =
      ((s.launch r).fetchEnd? p (r.started.getD s.now) answer).elim (s.launch r)
        fun a => (s.launch r).endRefresh p r.id a := by
  unfold runRefresh launch
  dsimp only
  split <;> rename_i ends <;> rw [ends] <;> rfl

/-- A refresh that runs starts its fetch if that is not on the way, and may end with it. -/
theorem runRefresh_cases (s : State) (p : Policy) (r : Refresher) (answer : Option Answer) :
    s.fetchEnd? p (r.started.getD s.now) answer = none ∧ s.runRefresh p r answer = s.launch r ∨
      ∃ end_, s.fetchEnd? p (r.started.getD s.now) answer = some end_ ∧
        s.runRefresh p r answer = (s.launch r).endRefresh p r.id end_ := by
  have same : (s.launch r).fetchEnd? p (r.started.getD s.now) answer =
      s.fetchEnd? p (r.started.getD s.now) answer := by simp only [fetchEnd?, now_launch]
  rw [runRefresh_eq, same]
  cases s.fetchEnd? p (r.started.getD s.now) answer with
  | none => exact .inl ⟨rfl, rfl⟩
  | some end_ => exact .inr ⟨end_, rfl, rfl⟩

/-! ### Tasks that run -/

/-- Takes a task off the ready ones, so that it runs. -/
def unwake (s : State) (t : Task) : State := { s with woken := s.woken.filter (· != t) }

@[simp] theorem mem_woken_unwake {s : State} {t i : Task} :
    i ∈ (s.unwake t).woken ↔ i ∈ s.woken ∧ i ≠ t := by
  simp [unwake]

/-- A task belongs to a state. -/
def Knows (s : State) : Task → Prop
  | .lookup id => (s.lookup? id).isSome
  | .refresh id => (s.refresher? id).isSome
  | .schedule => True
  | .watch id => (s.watch? id).isSome
  | .closing id => (s.closing? id).isSome

/-- What a task that runs makes of a state. -/
inductive Runs (p : Policy) (s : State) (stops : Bool) (answer : Option Answer) :
    Task → State → Prop where
  /-- A task that does not belong to the state does nothing. -/
  | unknown (t : Task) (unknown : ¬s.Knows t) : Runs p s stops answer t s
  /-- A lookup runs. -/
  | lookup (l : Lookup) (known : s.lookup? l.id = some l) :
    Runs p s stops answer (.lookup l.id) (s.runLookup p l)
  /-- The refresh that a lookup has begun runs. -/
  | refresh (r : Refresher) (known : s.refresher? r.id = some r) :
    Runs p s stops answer (.refresh r.id) (s.runRefresh p r answer)
  /-- The schedule runs. -/
  | schedule : Runs p s stops answer .schedule (s.runSchedule p stops answer)
  /-- A watch runs. -/
  | watch (w : Watch) (known : s.watch? w.id = some w) :
    Runs p s stops answer (.watch w.id) (s.runWatch w)
  /-- A closing runs. -/
  | closing (c : Closing) (known : s.closing? c.id = some c) :
    Runs p s stops answer (.closing c.id) (s.runClosing c)

variable {p : Policy} {s u : State} {t : Task} {stops : Bool} {answer : Option Answer}

theorem Runs.run_eq (h : s.Runs p stops answer t u) : s.run p t stops answer = u := by
  cases h with
  | unknown _ unknown =>
    cases t with
    | schedule => exact absurd trivial unknown
    | _ => rw [run, Option.not_isSome_iff_eq_none.1 unknown, Option.elim_none]
  | schedule => rfl
  | lookup _ known | refresh _ known | watch _ known | closing _ known =>
    rw [run, known, Option.elim_some]

/-- **What a task that runs makes of a state.** -/
theorem run_eq_iff : s.run p t stops answer = u ↔ s.Runs p stops answer t u := by
  refine ⟨?_, Runs.run_eq⟩
  rintro rfl
  cases t with
  | lookup id =>
    simp only [run]
    cases found : s.lookup? id with
    | none => exact .unknown _ (by simp [Knows, found])
    | some l =>
      obtain rfl : l.id = id := by simpa using List.find?_some found
      exact .lookup l found
  | refresh id =>
    simp only [run]
    cases found : s.refresher? id with
    | none => exact .unknown _ (by simp [Knows, found])
    | some r =>
      obtain rfl : r.id = id := by simpa using List.find?_some found
      exact .refresh r found
  | schedule => exact .schedule
  | watch id =>
    simp only [run]
    cases found : s.watch? id with
    | none => exact .unknown _ (by simp [Knows, found])
    | some w =>
      obtain rfl : w.id = id := by simpa using List.find?_some found
      exact .watch w found
  | closing id =>
    simp only [run]
    cases found : s.closing? id with
    | none => exact .unknown _ (by simp [Knows, found])
    | some c =>
      obtain rfl : c.id = id := by simpa using List.find?_some found
      exact .closing c found

end State

/-! ### Lookups that are given up -/

namespace State

/-- Takes a task off the ready ones and off the queue, for good. -/
def retire (s : State) (t : Task) : State :=
  { s with woken := s.woken.filter (· != t), queue := s.queue.filter (· != t) }

@[simp] theorem mem_woken_retire {s : State} {t i : Task} :
    i ∈ (s.retire t).woken ↔ i ∈ s.woken ∧ i ≠ t := by
  simp [retire]

@[simp] theorem mem_queue_retire {s : State} {t i : Task} :
    i ∈ (s.retire t).queue ↔ i ∈ s.queue ∧ i ≠ t := by
  simp [retire]

theorem abort_eq (s : State) (id : Nat) :
    s.abort id =
      (if s.holder = some (.lookup id) then (s.retire (.lookup id)).release
        else s.retire (.lookup id)).finish id .aborted :=
  rfl

end State

/-! ### Steps -/

/-- What an action makes of a state, where it is possible. -/
inductive Effect (p : Policy) (s : State) : Action → State → Prop where
  /-- Only the cache's owner calls lookups. -/
  | call (kid : String) (owned : s.owned = true) : Effect p s (.call kid) (s.call kid)
  /-- A lookup is given up while it goes on. -/
  | abort (l : Lookup) (known : s.lookup? l.id = some l) (going : l.phase.isOver = false) :
    Effect p s (.abort l.id) (s.abort l.id)
  /-- Only the cache's owner asks for the record. -/
  | watch (owned : s.owned = true) : Effect p s .watch s.watch
  /-- Only the cache's owner stops the schedule. -/
  | close (owned : s.owned = true) : Effect p s .close s.close
  /-- The cache is let go once. -/
  | drop (owned : s.owned = true) : Effect p s .drop ({ s with owned := false } : State).giveUp
  /-- Whoever waits for something from outside becomes ready. -/
  | wake (t : Task) (waits : s.waitsOutside t = true) : Effect p s (.wake t) (s.wake t)
  /-- Only a task that is ready runs. -/
  | run (t : Task) (stops : Bool) (answer : Option Answer) {u : State} (ready : t ∈ s.woken)
    (runs : (s.unwake t).Runs p stops answer t u) : Effect p s (.run t stops answer) u
  /-- Time passes while nothing can run, and no further than to what falls due next. -/
  | advance (time : Instant) (idle : s.woken = []) (later : s.now ≤ time)
    (due : ∀ t ∈ s.deadlines p, time ≤ t) : Effect p s (.advance time) { s with now := time }
  /-- Others log what they want. -/
  | note (events : List Event) : Effect p s (.note events) (s.note events)

variable {p : Policy} {s u : State} {a : Action}

theorem Effect.step_eq (h : Effect p s a u) : step p s a = some u := by
  cases h with
  | call _ owned | watch owned | close owned | drop owned => simp only [step, owned, if_true]
  | abort l known going => simp [step, known, going]
  | wake t waits => simp only [step, waits, if_true]
  | run t stops answer ready runs =>
    exact (if_pos (List.contains_iff_mem.2 ready)).trans (congrArg some runs.run_eq)
  | advance time idle later due => simpa [step, idle, later] using due
  | note => rfl

/-- **What a step makes of a state.** -/
theorem step_eq_some_iff : step p s a = some u ↔ Effect p s a u := by
  refine ⟨fun h => ?_, Effect.step_eq⟩
  cases a with
  | call kid =>
    obtain ⟨owned, ⟨⟩⟩ := Option.ite_none_right_eq_some.1 h
    exact .call kid owned
  | abort id =>
    simp only [step] at h
    split at h
    · rename_i l known
      obtain rfl : l.id = id := by simpa using List.find?_some known
      split at h <;> cases h
      rename_i going
      exact .abort l known (by simpa using going)
    · cases h
  | watch =>
    obtain ⟨owned, ⟨⟩⟩ := Option.ite_none_right_eq_some.1 h
    exact .watch owned
  | close =>
    obtain ⟨owned, ⟨⟩⟩ := Option.ite_none_right_eq_some.1 h
    exact .close owned
  | drop =>
    obtain ⟨owned, ⟨⟩⟩ := Option.ite_none_right_eq_some.1 h
    exact .drop owned
  | wake t =>
    obtain ⟨waits, ⟨⟩⟩ := Option.ite_none_right_eq_some.1 h
    exact .wake t waits
  | run t stops answer =>
    obtain ⟨ready, ⟨⟩⟩ := Option.ite_none_right_eq_some.1 h
    exact .run t stops answer (by simpa using ready) (State.run_eq_iff.1 rfl)
  | advance time =>
    obtain ⟨possible, ⟨⟩⟩ := Option.ite_none_right_eq_some.1 h
    simp only [Bool.and_eq_true, decide_eq_true_eq, List.all_eq_true, List.isEmpty_iff] at possible
    obtain ⟨⟨idle, later⟩, due⟩ := possible
    exact .advance time idle later due
  | note events =>
    cases h
    exact .note events

/-! ### Steps of one kind -/

theorem runs_of_step {t : Task} {stops : Bool} {answer : Option Answer}
    (h : step p s (.run t stops answer) = some u) : (s.unwake t).Runs p stops answer t u := by
  cases step_eq_some_iff.1 h with
  | run _ _ _ _ runs => exact runs

theorem step_run_of_ready {t : Task} (ready : t ∈ s.woken) (stops : Bool)
    (answer : Option Answer) :
    step p s (.run t stops answer) = some ((s.unwake t).run p t stops answer) :=
  (Effect.run t stops answer ready (State.run_eq_iff.1 rfl)).step_eq

theorem eq_runSchedule_of_step {stops : Bool} {answer : Option Answer}
    (h : step p s (.run .schedule stops answer) = some u) :
    u = (s.unwake .schedule).runSchedule p stops answer := by
  cases runs_of_step h with
  | unknown _ unknown => exact absurd trivial unknown
  | schedule => rfl

theorem eq_runLookup_of_step {id : Nat} {l : Lookup} {stops : Bool} {answer : Option Answer}
    (h : step p s (.run (.lookup id) stops answer) = some u) (known : s.lookup? id = some l) :
    u = (s.unwake (.lookup id)).runLookup p l := by
  cases runs_of_step h with
  | unknown _ unknown => exact absurd (Option.isSome_of_eq_some known) unknown
  | lookup l' known' =>
    cases known.symm.trans known'
    rfl

theorem eq_runRefresh_of_step {id : Nat} {r : Refresher} {stops : Bool} {answer : Option Answer}
    (h : step p s (.run (.refresh id) stops answer) = some u) (known : s.refresher? id = some r) :
    u = (s.unwake (.refresh id)).runRefresh p r answer := by
  cases runs_of_step h with
  | unknown _ unknown => exact absurd (Option.isSome_of_eq_some known) unknown
  | refresh r' known' =>
    cases known.symm.trans known'
    rfl

theorem eq_call_of_step {kid : String} (h : step p s (.call kid) = some u) : s.call kid = u := by
  cases step_eq_some_iff.1 h
  rfl

theorem eq_watch_of_step (h : step p s .watch = some u) : s.owned = true ∧ u = s.watch := by
  cases step_eq_some_iff.1 h with
  | watch owned => exact ⟨owned, rfl⟩

theorem eq_close_of_step (h : step p s .close = some u) : s.owned = true ∧ u = s.close := by
  cases step_eq_some_iff.1 h with
  | close owned => exact ⟨owned, rfl⟩

theorem eq_drop_of_step (h : step p s .drop = some u) :
    s.owned = true ∧ u = ({ s with owned := false } : State).giveUp := by
  cases step_eq_some_iff.1 h with
  | drop owned => exact ⟨owned, rfl⟩

theorem eq_abort_of_step {id : Nat} (h : step p s (.abort id) = some u) : u = s.abort id := by
  cases step_eq_some_iff.1 h
  rfl

/-- Time passes while nothing can run, and no further than to what falls due next. -/
theorem eq_advance_of_step {time : Instant} (h : step p s (.advance time) = some u) :
    s.woken = [] ∧ s.now ≤ time ∧ (∀ t ∈ s.deadlines p, time ≤ t) ∧ u = { s with now := time } := by
  cases step_eq_some_iff.1 h with
  | advance _ idle later due => exact ⟨idle, later, due, rfl⟩

end BearerAuth.KeyCache
