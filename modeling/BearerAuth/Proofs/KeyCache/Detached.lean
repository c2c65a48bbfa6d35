import Mathlib.Data.Option.Basic
import BearerAuth.Proofs.KeyCache.Misses

/-!
# Refreshes outlive their callers

A lookup that has begun a refresh has handed the guard over to it.  From then on it stands in no
line, so that it can be given up, and nothing else takes another course.

* `State.without` is what is left of a state when such a lookup is given up;
* `Parted` relates a state to what is left of it, up to what the lookup itself has logged, and
  `Parted.note` and its like say that every move of the others keeps the two side by side;
* `Parted.step` : a step of the others is possible in both states or in neither;
* `Parted.own` : what the lookup itself does is not to be seen in the other state;
* `outlives_caller` : whatever happens after the lookup is given up would have happened without
  that, and the other way round.

The proof: two runs side by side.  A step of the others is taken in both, a step of the lookup only
in the run in which it is still there; so the lookup may lie ready where nobody does in the other
run, and has to run before time can pass.
-/

namespace BearerAuth.KeyCache

variable {p : Policy} {s s' t t' u u' : State} {as bs : List Action} {a : Action} {id i : Nat}
  {l : Lookup} {task : Task}

/-! ### A state and what is left of it -/

/-- What is left of a state when a lookup that stands in no line is given up. -/
def State.without (s : State) (id : Nat) : State :=
  { s.setPhase id .aborted with woken := s.woken.filter (· != .lookup id) }

/-- The state with another core. -/
def State.onCore (s : State) (f : Core → Core) : State :=
  let c := f s.core
  { s with
    now := c.now
    keys := c.keys
    ledger := c.ledger
    fetches := c.fetches
    reports := c.reports
    holder := c.holder
    refreshers := c.refreshers
    schedule := c.schedule }

theorem State.giveUp_of_owned (owned : s.owned = true) : s.giveUp = s := by
  simp [giveUp, inUse, owned]

theorem State.finish_of_owned (owned : s.owned = true) (id : Nat) (phase : LookupPhase) :
    s.finish id phase = s.setPhase id phase := giveUp_of_owned owned

/-- A lookup waits for others in the cache, never for a source or for time to pass. -/
theorem State.waitsOutside_lookup (s : State) (id : Nat) : s.waitsOutside (.lookup id) = false := by
  rw [Bool.eq_false_iff]
  intro waits
  rcases Bool.or_eq_true_iff.1 waits with flies | ticks
  · obtain ⟨⟨task, since⟩, mem, own⟩ := List.any_eq_true.1 flies
    rcases mem_flights.1 mem with ⟨r, -, -, rfl⟩ | ⟨rfl, -⟩
    · cases eq_of_beq own
    · cases eq_of_beq own
  · cases eq_of_beq (Bool.and_eq_true_iff.1 ticks).1

/-- A state of a cache that has an owner, and what is left of it without a lookup that does not wait
for the guard.  All else is the same in both: the core, the line for the guard, the other lookups
and who is ready to run, in the same order.  Only of what is logged some may be missing. -/
inductive Parted (id : Nat) (s : State) : State → Prop where
  /-- All but the log is settled. -/
  | intro (log : List Event) (less : log.Sublist s.log) (unqueued : .lookup id ∉ s.queue)
    (owned : s.owned = true) : Parted id s { s.without id with log }

namespace Parted

theorem of_eq {log : List Event} (rest : s' = { s.without id with log }) (less : log.Sublist s.log)
    (unqueued : .lookup id ∉ s.queue) (owned : s.owned = true) : Parted id s s' :=
  rest ▸ .intro log less unqueued owned

theorem ite {c c' : Prop} [Decidable c] [Decidable c'] (same : c' = c) (yes : Parted id s s')
    (no : Parted id t t') : Parted id (if c then s else t) (if c' then s' else t') := by
  subst same
  split
  · exact yes
  · exact no

variable (h : Parted id s s')
include h

/-! ### What the two have in common -/

theorem core : s'.core = s.core := by cases h; rfl

theorem now : s'.now = s.now := congrArg Core.now h.core

theorem keys : s'.keys = s.keys := congrArg Core.keys h.core

theorem holder : s'.holder = s.holder := congrArg Core.holder h.core

theorem schedule : s'.schedule = s.schedule := congrArg Core.schedule h.core

theorem cancelled : s'.cancelled = s.cancelled := by cases h; rfl

theorem closings : s'.closings = s.closings := by cases h; rfl

theorem awaited : s'.awaited = s.awaited := by cases h; rfl

theorem nextId : s'.nextId = s.nextId := by cases h; rfl

theorem flights : s'.flights = s.flights := by
  rw [← State.flights_core, h.core, State.flights_core]

theorem limited (p : Policy) : s'.limited p = s.limited p := by cases h; rfl

theorem fetchEnd? (p : Policy) (started : Instant) (answer : Option Answer) :
    s'.fetchEnd? p started answer = s.fetchEnd? p started answer := by cases h; rfl

theorem deadlines (p : Policy) : s'.deadlines p = s.deadlines p := by cases h; rfl

theorem waitsOutside (task : Task) : s'.waitsOutside task = s.waitsOutside task := by cases h; rfl

theorem queue : s'.queue = s.queue := by cases h; rfl

theorem owned_left : s.owned = true := by cases h; assumption

theorem owned : s'.owned = s.owned := by cases h; rfl

theorem woken : s'.woken = s.woken.filter (· != .lookup id) := by cases h; rfl

theorem contains_woken (other : task ≠ .lookup id) :
    s'.woken.contains task = s.woken.contains task := by
  rw [Bool.eq_iff_iff, List.contains_iff_mem, List.contains_iff_mem, h.woken, List.mem_filter]
  simp [other]

theorem lookups : s'.lookups = (s.setPhase id .aborted).lookups := by cases h; rfl

theorem lookup?_own : s'.lookup? id = (s.lookup? id).map fun l => { l with phase := .aborted } := by
  rw [State.lookup?, h.lookups]
  exact (State.lookup?_setPhase s id id .aborted).trans (by simp only [if_true])

theorem lookup? (other : i ≠ id) : s'.lookup? i = s.lookup? i := by
  rw [State.lookup?, h.lookups]
  exact (State.lookup?_setPhase s id i .aborted).trans (by simp [other])

/-! ### Moves of the others -/

theorem note (events : List Event) : Parted id (s.note events) (s'.note events) := by
  cases h with
  | intro log less unqueued owned =>
    exact .intro (log ++ events) (less.append_right events) unqueued owned

theorem wake (other : task ≠ .lookup id) : Parted id (s.wake task) (s'.wake task) := by
  unfold State.wake
  rw [h.contains_woken other]
  split
  · exact h
  · cases h with
    | intro log less unqueued owned =>
      exact .of_eq (by simp [State.without, State.setPhase, other]) less unqueued owned

theorem ask (task : Task) (other : task ≠ .lookup id) : Parted id (s.ask task) (s'.ask task) := by
  unfold State.ask
  rw [h.holder]
  cases h with
  | intro log less unqueued owned =>
    split
    · exact .intro log less unqueued owned
    · exact .intro log less (by simp [unqueued, other.symm]) owned

theorem release : Parted id s.release s'.release := by
  unfold State.release
  rw [h.queue]
  cases h with
  | intro log less unqueued owned =>
    split
    · rename_i none
      exact .intro log less (none ▸ unqueued) owned
    · rename_i first rest line
      rw [line] at unqueued
      refine Parted.wake (.intro log less ?_ owned) ?_
      · exact fun inside => unqueued (List.mem_cons_of_mem _ inside)
      · exact fun own => unqueued (own ▸ List.mem_cons_self ..)

theorem setPhase (other : i ≠ id) (phase : LookupPhase) :
    Parted id (s.setPhase i phase) (s'.setPhase i phase) := by
  cases h with
  | intro log less unqueued owned =>
    refine .of_eq ?_ less unqueued owned
    simp only [State.without, State.setPhase, List.map_map]
    congr 2
    funext l
    by_cases own : l.id = id
    · simp [own, other.symm]
    · by_cases moved : l.id = i <;> simp [own, moved, other]

theorem onCore (f : Core → Core) : Parted id (s.onCore f) (s'.onCore f) := by
  cases h with
  | intro log less unqueued owned => exact .intro log less unqueued owned

theorem cancel : Parted id s.cancel s'.cancel := by
  have told : Parted id { s with cancelled := true }
      { s' with cancelled := true, schedule := s.schedule } := by
    cases h with
    | intro log less unqueued owned => exact .intro log less unqueued owned
  unfold State.cancel
  rw [h.schedule]
  split
  · exact told.wake nofun
  · exact told

theorem giveUp : Parted id s.giveUp s'.giveUp := by
  rwa [State.giveUp_of_owned h.owned_left, State.giveUp_of_owned (h.owned.trans h.owned_left)]

theorem finish (other : i ≠ id) (phase : LookupPhase) :
    Parted id (s.finish i phase) (s'.finish i phase) := (h.setPhase other phase).giveUp

theorem conclude (other : l.id ≠ id) : Parted id (s.conclude l) (s'.conclude l) := by
  unfold State.conclude
  rw [h.keys]
  split <;> exact h.finish other _

theorem inspect (p : Policy) (other : l.id ≠ id) :
    Parted id (s.inspect p l) (s'.inspect p l) := by
  unfold State.inspect
  rw [h.keys, h.limited]
  split
  · exact h.release.conclude other
  split
  · exact (h.note _).release.conclude other
  · refine Parted.wake ?_ nofun
    exact ((h.note _).setPhase other .refreshing).onCore fun c =>
      { c with holder := some (.refresh l.id), refreshers := c.refreshers ++ [⟨l.id, none⟩] }

theorem miss (p : Policy) (other : l.id ≠ id) : Parted id (s.miss p l) (s'.miss p l) := by
  have asked := (h.setPhase other .queued).ask (.lookup l.id) (by simpa using other)
  unfold State.miss
  dsimp only
  rw [asked.holder]
  split
  · exact asked.inspect p other
  · exact asked

theorem runLookup (p : Policy) (other : l.id ≠ id) :
    Parted id (s.runLookup p l) (s'.runLookup p l) := by
  unfold State.runLookup
  rw [h.keys, h.holder]
  split
  · split
    · exact h.conclude other
    split
    · exact h.miss p other
    · exact (h.note _).conclude other
  · split
    · exact h.inspect p other
    · exact h
  · exact (h.note _).conclude other
  · exact h

theorem enter (p : Policy) (trigger : Trigger) (how : FetchEnd) :
    Parted id (s.enter p trigger how) (s'.enter p trigger how) := by
  cases how with
  | keys keys => exact (h.onCore fun c => { c with keys, ledger := c.ledger.succeed c.now }).note _
  | failed why =>
    exact (h.onCore fun c =>
      { c with ledger := c.ledger.fail c.now, reports := c.reports ++ [why] }).note _
  | crashed => exact h

theorem rest (due : Instant) : Parted id (s.rest due) (s'.rest due) := by
  unfold State.rest
  refine ite (by rw [h.cancelled, h.now]) ?_ (h.onCore fun c => { c with schedule := .waiting due })
  cases h with
  | intro log less unqueued owned =>
    exact .of_eq (by simp [State.without, State.setPhase]) less unqueued owned

theorem endSchedule (how : Schedule) : Parted id (s.endSchedule how) (s'.endSchedule how) := by
  have wakes (closings : List Closing) {s s' : State} (h : Parted id s s') :
      Parted id (closings.foldl (fun s c => s.wake (.closing c.id)) s)
        (closings.foldl (fun s c => s.wake (.closing c.id)) s') := by
    induction closings generalizing s s' with
    | nil => exact h
    | cons c rest ih => exact ih (h.wake nofun)
  unfold State.endSchedule
  rw [show s'.closings.filter (!·.returned) = s.closings.filter (!·.returned) by rw [h.closings]]
  exact wakes _ (h.onCore fun c => { c with schedule := how })

theorem endTick (p : Policy) (next : Instant) (end_ : Answer) :
    Parted id (s.endTick p next end_) (s'.endTick p next end_) := by
  have entered := (h.note end_.events).enter p .scheduled end_.outcome
  unfold State.endTick
  dsimp only
  split
  · exact entered.release.rest next
  · exact (entered.note _).release.rest next
  · exact entered.release.endSchedule .broken

theorem runFetch (p : Policy) (next : Instant) {started started' : Instant}
    (same : started' = started) (answer : Option Answer) :
    Parted id (s.runFetch p next started answer) (s'.runFetch p next started' answer) := by
  unfold State.runFetch
  rw [same, h.fetchEnd?]
  split
  · exact h.endTick p next _
  · exact h

theorem handle (p : Policy) (next : Instant) (answer : Option Answer) :
    Parted id (s.handle p next answer) (s'.handle p next answer) := by
  unfold State.handle
  refine ite (by rw [h.limited]) ((h.note _).release.rest next) ?_
  have begun := h.onCore fun c =>
    { c with fetches := c.fetches + 1, schedule := .fetching next c.now }
  exact begun.runFetch p next h.now answer

theorem tick (p : Policy) (due : Instant) (answer : Option Answer) :
    Parted id (s.tick p due answer) (s'.tick p due answer) := by
  have next : s'.nextTick p due = s.nextTick p due := by rw [State.nextTick, h.now]; rfl
  have asked := (h.onCore fun c => { c with schedule := .queued (s.nextTick p due) }).ask
    .schedule (by simp)
  unfold State.tick
  dsimp only
  rw [next]
  exact ite (congrArg (· = some Task.schedule) asked.holder) (asked.handle p _ answer) asked

theorem runSchedule (p : Policy) (stops : Bool) (answer : Option Answer) :
    Parted id (s.runSchedule p stops answer) (s'.runSchedule p stops answer) := by
  unfold State.runSchedule
  rw [h.schedule, h.cancelled, h.now, h.holder]
  split
  · exact h.rest _
  · split
    · exact (h.note _).endSchedule _
    split
    · exact h.tick p _ answer
    · exact h
  · split
    · exact h.handle p _ answer
    · exact h
  · exact h.runFetch p _ rfl answer
  · exact h

theorem runWatch (w : Watch) : Parted id (s.runWatch w) (s'.runWatch w) := by
  have glance {s s' : State} (h : Parted id s s') :
      Parted id (s.disclose w.id).release.giveUp (s'.disclose w.id).release.giveUp := by
    have seen : Parted id (s.disclose w.id) (s'.disclose w.id) := by
      cases h with
      | intro log less unqueued owned => exact .intro log less unqueued owned
    exact seen.release.giveUp
  have asked := h.ask (.watch w.id) nofun
  unfold State.runWatch
  refine ite rfl h (ite (by rw [h.holder]) (glance h) (ite (by rw [h.queue]) h ?_))
  exact ite (congrArg (· = some (Task.watch w.id)) asked.holder) (glance asked) asked

theorem returnClosing (i : Nat) : Parted id (s.returnClosing i) (s'.returnClosing i) := by
  refine giveUp ?_
  cases h with
  | intro log less unqueued owned => exact .intro log less unqueued owned

theorem runClosing (c : Closing) : Parted id (s.runClosing c) (s'.runClosing c) := by
  unfold State.runClosing
  rw [h.schedule]
  split
  · exact h
  · exact (h.note _).returnClosing c.id

theorem close : Parted id s.close s'.close := by
  have enlisted (closings : List Closing) (nextId : Nat) {s s' : State} (h : Parted id s s') :
      Parted id { s with closings, nextId, awaited := true }
        { s' with closings, nextId, awaited := true } := by
    cases h with
    | intro log less unqueued owned => exact .intro log less unqueued owned
  unfold State.close
  dsimp only
  rw [h.awaited, h.closings, h.nextId]
  split
  · exact (enlisted _ _ h.cancel).runClosing _
  · exact enlisted _ _ h.cancel

theorem watch : Parted id s.watch s'.watch := by
  unfold State.watch
  dsimp only
  rw [h.nextId]
  refine wake ?_ nofun
  cases h with
  | intro log less unqueued owned => exact .intro log less unqueued owned

theorem call (known : id < s.nextId) (kid : String) : Parted id (s.call kid) (s'.call kid) := by
  have other : s.nextId ≠ id := by omega
  unfold State.call
  dsimp only
  rw [h.nextId]
  refine wake ?_ (by simpa using other)
  cases h with
  | intro log less unqueued owned =>
    exact .of_eq (by simp [State.without, State.setPhase, other]) less unqueued owned

theorem unwake (task : Task) : Parted id (s.unwake task) (s'.unwake task) := by
  cases h with
  | intro log less unqueued owned =>
    exact .of_eq (by simp [State.without, State.unwake, State.setPhase, Bool.and_comm]) less
      unqueued owned

theorem retire (task : Task) : Parted id (s.retire task) (s'.retire task) := by
  cases h with
  | intro log less unqueued owned =>
    exact .of_eq (by simp [State.without, State.retire, State.setPhase, Bool.and_comm]) less
      (fun inside => unqueued (State.mem_queue_retire.1 inside).1) owned

theorem abort (other : i ≠ id) : Parted id (s.abort i) (s'.abort i) := by
  rw [State.abort_eq, State.abort_eq]
  refine finish ?_ other _
  exact ite (by rw [h.holder]) (h.retire _).release (h.retire _)

/-! ### Moves of the lookup itself -/

theorem note_own (events : List Event) : Parted id (s.note events) s' := by
  cases h with
  | intro log less unqueued owned =>
    exact .intro log (less.trans (List.sublist_append_left ..)) unqueued owned

theorem wake_own : Parted id (s.wake (.lookup id)) s' := by
  unfold State.wake
  split
  · exact h
  · cases h with
    | intro log less unqueued owned =>
      exact .of_eq (by simp [State.without, State.setPhase]) less unqueued owned

theorem setPhase_own (phase : LookupPhase) : Parted id (s.setPhase id phase) s' := by
  cases h with
  | intro log less unqueued owned =>
    refine .of_eq ?_ less unqueued owned
    simp only [State.without, State.setPhase, List.map_map]
    congr 2
    funext l
    by_cases own : l.id = id <;> simp [own]

theorem finish_own (phase : LookupPhase) : Parted id (s.finish id phase) s' := by
  rw [State.finish_of_owned h.owned_left]
  exact h.setPhase_own phase

theorem conclude_own (own : l.id = id) : Parted id (s.conclude l) s' := by
  subst own
  unfold State.conclude
  split <;> exact h.finish_own _

/-! ### Refreshes -/

theorem join (i : Nat) (how : Ending) : Parted id (s.join i how) (s'.join i how) := by
  unfold State.join
  by_cases own : i = id
  · subst own
    rw [h.lookup?_own]
    cases s.lookup? i with
    | none => exact h
    | some l =>
      simp only [Option.map_some, reduceCtorEq, if_false]
      split
      · exact (h.setPhase_own _).wake_own
      · exact h
  · rw [h.lookup? own]
    split
    · split
      · exact (h.setPhase own _).wake (by simpa using own)
      · exact h
    · exact h

theorem endRefresh (p : Policy) (i : Nat) (end_ : Answer) :
    Parted id (s.endRefresh p i end_) (s'.endRefresh p i end_) := by
  have entered := (h.note end_.events).enter p .unknownKey end_.outcome
  have ended := entered.onCore fun c => { c with refreshers := c.refreshers.filter (·.id != i) }
  exact ended.release.join i _

theorem launch (r : Refresher) : Parted id (s.launch r) (s'.launch r) :=
  ite rfl h <| h.onCore fun c =>
    { c with
      fetches := c.fetches + 1
      refreshers :=
        c.refreshers.map fun x => if x.id = r.id then { x with started := some c.now } else x }

theorem runRefresh (p : Policy) (r : Refresher) (answer : Option Answer) :
    Parted id (s.runRefresh p r answer) (s'.runRefresh p r answer) := by
  have launched := h.launch r
  rw [State.runRefresh_eq, State.runRefresh_eq, launched.fetchEnd?, h.now]
  cases (s.launch r).fetchEnd? p (r.started.getD s.now) answer with
  | none => exact launched
  | some end_ => exact launched.endRefresh p r.id end_

/-! ### Steps -/

theorem run (p : Policy) (other : task ≠ .lookup id) (stops : Bool) (answer : Option Answer) :
    Parted id (s.run p task stops answer) (s'.run p task stops answer) := by
  cases task with
  | lookup i =>
    have other : i ≠ id := fun same => other (congrArg Task.lookup same)
    simp only [State.run, h.lookup? other]
    cases hl : s.lookup? i with
    | none => exact h
    | some l => exact h.runLookup p (State.id_of_lookup? hl ▸ other)
  | refresh i =>
    simp only [State.run, show s'.refresher? i = s.refresher? i by cases h; rfl]
    cases s.refresher? i with
    | none => exact h
    | some r => exact h.runRefresh p r answer
  | schedule => exact h.runSchedule p stops answer
  | watch i =>
    simp only [State.run, show s'.watch? i = s.watch? i by cases h; rfl]
    cases s.watch? i with
    | none => exact h
    | some w => exact h.runWatch w
  | closing i =>
    simp only [State.run, show s'.closing? i = s.closing? i by cases h; rfl]
    cases s.closing? i with
    | none => exact h
    | some c => exact h.runClosing c

/-- **A step of the others is possible in both states or in neither**, and they stay side by side:
in a cache that keeps its owner, and where time passes only if nobody is ready in either. -/
theorem step (known : id < s.nextId) (other : a.subject? ≠ some (.lookup id)) (stays : a ≠ .drop)
    (idle : ∀ time, a = .advance time → s'.woken.isEmpty = s.woken.isEmpty) :
    Option.Rel (Parted id) (KeyCache.step p s a) (KeyCache.step p s' a) := by
  have both {c c' : Prop} [Decidable c] [Decidable c'] {t t' : State} (same : c' = c)
      (h : Parted id t t') :
      Option.Rel (Parted id) (if c then some t else none) (if c' then some t' else none) := by
    subst same
    split
    · exact .some h
    · exact .none
  cases a with
  | call kid => exact both (by rw [h.owned]) (h.call known kid)
  | abort i =>
    have other : i ≠ id := fun same => other (same ▸ rfl)
    simp only [KeyCache.step, h.lookup? other]
    cases s.lookup? i with
    | none => exact .none
    | some l =>
      dsimp only
      split
      · exact .none
      · exact .some (h.abort other)
  | watch => exact both (by rw [h.owned]) h.watch
  | close => exact both (by rw [h.owned]) h.close
  | drop => exact absurd rfl stays
  | wake task =>
    simp only [KeyCache.step, h.waitsOutside]
    split
    · rename_i waits
      refine .some (h.wake ?_)
      rintro rfl
      simp [State.waitsOutside_lookup] at waits
    · exact .none
  | run task stops answer =>
    have other : task ≠ .lookup id := fun same => other (same ▸ rfl)
    exact both (by rw [h.contains_woken other]) ((h.unwake task).run p other stops answer)
  | advance time =>
    refine both ?_ (h.onCore fun c => { c with now := time })
    rw [idle time rfl, h.now, h.deadlines]
  | note events => exact .some (h.note events)

theorem woken_of_asleep (asleep : .lookup id ∉ s.woken) : s'.woken = s.woken :=
  h.woken.trans (List.filter_eq_self.2 fun _ ht => bne_iff_ne.2 fun own => asleep (own ▸ ht))

/-- Whatever the others do in the one state, they can do in what is left of it. -/
theorem step_left (known : id < s.nextId) (other : a.subject? ≠ some (.lookup id))
    (stays : a ≠ .drop) (hs : KeyCache.step p s a = some u) :
    ∃ u', KeyCache.step p s' a = some u' ∧ Parted id u u' := by
  have moved := h.step (p := p) known other stays fun time advance => by
    subst advance
    obtain ⟨idle, -⟩ := eq_advance_of_step hs
    rw [h.woken, idle]
    rfl
  rw [hs] at moved
  generalize KeyCache.step p s' a = after at moved ⊢
  cases moved with
  | some h' => exact ⟨_, rfl, h'⟩

/-- Whatever can be done in what is left of a state, the others can do there, unless the lookup has
to run first. -/
theorem step_right (known : id < s.nextId) (other : a.subject? ≠ some (.lookup id))
    (stays : a ≠ .drop) (asleep : .lookup id ∉ s.woken)
    (hs : KeyCache.step p s' a = some u') :
    ∃ u, KeyCache.step p s a = some u ∧ Parted id u u' := by
  have moved := h.step (p := p) known other stays fun _ _ => by rw [h.woken_of_asleep asleep]
  rw [hs] at moved
  generalize KeyCache.step p s a = after at moved ⊢
  cases moved with
  | some h' => exact ⟨_, rfl, h'⟩

end Parted

/-! ### Past the guard -/

namespace State

/-- A lookup is past the guard: it has begun a refresh, or it is over. -/
def IsPast (s : State) (id : Nat) : Prop :=
  ∃ l, s.lookup? id = some l ∧ l.phase.isEarly = false

theorem IsPast.step (past : s.IsPast id) (sound : s.core.Sound p) (hs : step p s a = some u) :
    u.IsPast id := by
  obtain ⟨l, hl, late⟩ := past
  rcases lookup?_step sound hs hl with same | ⟨phase, passes, moved⟩
  · exact ⟨l, same, late⟩
  · exact ⟨_, moved, passes.isEarly_eq_false late⟩

theorem IsPast.lt_nextId (past : s.IsPast id) (numbered : s.Numbered) : id < s.nextId := by
  obtain ⟨l, hl, -⟩ := past
  rw [← id_of_lookup? hl]
  exact numbered.given l (List.mem_of_find?_eq_some hl)

theorem IsPast.notMem_line (past : s.IsPast id) (orderly : s.Orderly none) :
    .lookup id ∉ s.line := by
  obtain ⟨l, hl, late⟩ := past
  intro inside
  obtain ⟨l', hl', queued⟩ := orderly.wants _ inside
  cases hl.symm.trans hl'
  rw [queued] at late
  cases late

theorem abort_of_notMem_line (owned : s.owned = true) (out : .lookup id ∉ s.line) :
    s.abort id = s.without id := by
  have unheld : s.holder ≠ some (.lookup id) := fun holds =>
    out (List.mem_append_left _ (Option.mem_toList.2 holds))
  have unqueued : s.queue.filter (· != .lookup id) = s.queue :=
    List.filter_eq_self.2 fun t ht => bne_iff_ne.2 fun own =>
      out (List.mem_append_right _ (own ▸ ht))
  rw [abort_eq, if_neg unheld, finish_of_owned (by exact owned), retire, unqueued]
  rfl

/-- A lookup past the guard that runs is answered, or it sits where it is. -/
theorem runLookup_of_late (s : State) (late : l.phase.isEarly = false) :
    (∃ logged, s.runLookup p l = (s.note logged).conclude l) ∨ s.runLookup p l = s := by
  unfold runLookup
  split
  · rename_i called; rw [called] at late; cases late
  · rename_i queued; rw [queued] at late; cases late
  · exact .inl ⟨_, rfl⟩
  · exact .inr rfl

theorem woken_conclude (owned : s.owned = true) (l : Lookup) : (s.conclude l).woken = s.woken := by
  unfold conclude
  split <;> rw [finish_of_owned owned] <;> rfl

end State

namespace Parted

theorem abort_own (owned : s.owned = true) (out : .lookup id ∉ s.line) :
    Parted id s (s.abort id) :=
  .of_eq (State.abort_of_notMem_line owned out) (.refl s.log)
    (fun inside => out (List.mem_append_right _ inside)) owned

variable (h : Parted id s s')
include h

theorem unwake_own : Parted id (s.unwake (.lookup id)) s' := by
  cases h with
  | intro log less unqueued owned =>
    exact .of_eq (by simp [State.without, State.unwake, State.setPhase]) less unqueued owned

/-- A turn of a lookup past the guard concerns nobody else, and wakes nobody. -/
theorem runs_own (past : s.IsPast id) {stops : Bool} {answer : Option Answer}
    (runs : s.Runs p stops answer (.lookup id) u) : Parted id u s' ∧ u.woken = s.woken := by
  cases runs with
  | unknown => exact ⟨h, rfl⟩
  | lookup l known =>
    obtain ⟨l', hl, late⟩ := past
    cases known.symm.trans hl
    rcases s.runLookup_of_late (p := p) late with ⟨logged, concludes⟩ | sits
    · have noted := h.note_own logged
      rw [concludes]
      exact ⟨noted.conclude_own rfl, State.woken_conclude noted.owned_left l⟩
    · rw [sits]
      exact ⟨h, rfl⟩

/-- **What a lookup past the guard does is not to be seen** in a state in which it is given up. -/
theorem own (past : s.IsPast id) (out : .lookup id ∉ s.line)
    (own : a.subject? = some (.lookup id)) (hs : KeyCache.step p s a = some u) :
    Parted id u s' := by
  cases a with
  | run task stops answer =>
    cases own
    exact (h.unwake_own.runs_own past (runs_of_step hs)).1
  | abort i =>
    cases own
    rw [eq_abort_of_step hs, State.abort_of_notMem_line h.owned_left out]
    exact (h.setPhase_own .aborted).unwake_own
  | _ => cases own

theorem subject?_ne (hs : KeyCache.step p s' a = some u') : a.subject? ≠ some (.lookup id) := by
  intro own
  cases a with
  | run task stops answer =>
    cases own
    simp only [KeyCache.step, Option.ite_none_right_eq_some, h.woken, List.contains_iff_mem,
      List.mem_filter, bne_self_eq_false] at hs
    cases hs.1.2
  | abort i =>
    cases own
    simp only [KeyCache.step, h.lookup?_own] at hs
    cases hl : s.lookup? id <;> simp [hl, LookupPhase.isOver] at hs
  | _ => cases own

theorem observe (h' : Parted id u u') : KeyCache.observe p s' a u' = KeyCache.observe p s a u := by
  cases a with
  | run task stops answer =>
    simp only [KeyCache.observe, h.now, h.flights, h'.flights,
      show s'.fetches = s.fetches from congrArg Core.fetches h.core,
      show u'.fetches = u.fetches from congrArg Core.fetches h'.core]
  | _ => rfl

/-- Nothing is to be seen of a step that the other state is not aware of. -/
theorem observe_own (h' : Parted id u s') : KeyCache.observe p s a u = [] :=
  observe_of_calm (h'.core.symm.trans h.core ▸ .refl _)

theorem settled (settled : s.Settled p) : s'.Settled p := by
  refine ⟨by rw [h.woken, settled.1]; rfl, ?_⟩
  rw [h.deadlines, h.now]
  exact settled.2

theorem settled_of_asleep (asleep : .lookup id ∉ s.woken) (settled : s'.Settled p) :
    s.Settled p := by
  refine ⟨(h.woken_of_asleep asleep).symm.trans settled.1, ?_⟩
  rw [← h.deadlines, ← h.now]
  exact settled.2

end Parted

/-! ### Two runs side by side -/

variable {now : Instant} {events : List Event} {keys : KeySet}

/-- The actions among some that neither run a lookup nor give it up. -/
def others (id : Nat) (as : List Action) : List Action :=
  as.filter (·.subject? != some (.lookup id))

theorem others_append (id : Nat) (as bs : List Action) :
    others id (as ++ bs) = others id as ++ others id bs := List.filter_append ..

theorem others_own (own : a.subject? = some (.lookup id)) : others id [a] = [] := by
  simp [others, own]

theorem others_other (other : a.subject? ≠ some (.lookup id)) : others id [a] = [a] := by
  simp [others, other]

/-- Whatever happens where the lookup is not given up happens as well where it has been. -/
theorem parted_of_reaches (run : Reaches p (.load p now events keys) as s) (past : s.IsPast id)
    (h : Parted id s s') (further : Reaches p s bs t) (owned : t.owned = true) :
    t.IsPast id ∧ ∃ t', Reaches p s' (others id bs) t' ∧ Parted id t t' ∧
      history p s' (others id bs) = history p s bs := by
  induction further with
  | refl => exact ⟨past, s', .refl s', h, rfl⟩
  | @tail t u bs a before last ih =>
    obtain ⟨owned, stays⟩ := owned_step last owned
    obtain ⟨past, t', before', h, same⟩ := ih owned
    have run := run.trans before
    refine ⟨past.step run.sound last, ?_⟩
    rw [others_append, history_snoc before last]
    by_cases own : a.subject? = some (.lookup id)
    · have h' := h.own past (past.notMem_line run.orderly) own last
      rw [others_own own, List.append_nil, h.observe_own h', List.append_nil]
      exact ⟨t', before', h', same⟩
    · obtain ⟨u', last', h'⟩ := h.step_left (past.lt_nextId run.numbered) own stays last
      rw [others_other own]
      exact ⟨u', .tail before' last', h', by rw [history_snoc before' last', same, h.observe h']⟩

/-- A lookup past the guard that is ready to run can have its turn, and is not ready any more. -/
theorem exists_asleep (run : Reaches p (.load p now events keys) as s) (past : s.IsPast id)
    (h : Parted id s s') :
    ∃ cs u, Reaches p s cs u ∧ others id cs = [] ∧ .abort id ∉ cs ∧ u.IsPast id ∧
      Parted id u s' ∧ history p s cs = [] ∧ .lookup id ∉ u.woken := by
  by_cases ready : .lookup id ∈ s.woken
  · have turn := step_run_of_ready (p := p) ready false none
    obtain ⟨h', asleep⟩ := h.unwake_own.runs_own past (runs_of_step turn)
    refine ⟨_, _, .tail (.refl s) turn, others_own rfl, by simp, past.step run.sound turn, h', ?_,
      ?_⟩
    · rw [history_snoc (.refl s) turn, h.observe_own h']
      rfl
    · rw [asleep]
      simp
  · exact ⟨[], s, .refl s, rfl, nofun, past, h, rfl, ready⟩

/-- Whatever happens where the lookup has been given up happens as well where it has not been, up
to its own turns. -/
theorem exists_reaches_of_parted (run : Reaches p (.load p now events keys) as s)
    (past : s.IsPast id) (h : Parted id s s') (further : Reaches p s' bs t')
    (owned : t'.owned = true) :
    ∃ cs t, Reaches p s cs t ∧ others id cs = bs ∧ .abort id ∉ cs ∧ t.IsPast id ∧
      Parted id t t' ∧ history p s cs = history p s' bs ∧ .lookup id ∉ t.woken := by
  induction further with
  | refl => exact exists_asleep run past h
  | @tail t' u' bs a before last ih =>
    obtain ⟨owned, stays⟩ := owned_step last owned
    obtain ⟨cs, t, before', same, kept, past, h, seen, asleep⟩ := ih owned
    have run' := run.trans before'
    have other := h.subject?_ne last
    obtain ⟨u, last', h'⟩ := h.step_right (past.lt_nextId run'.numbered) other stays asleep last
    have past' := past.step run'.sound last'
    -- the lookup has its turn before time can pass
    obtain ⟨ds, v, turns, own, kept', past'', h'', silent, asleep'⟩ :=
      exists_asleep (.tail run' last') past' h'
    have further := Reaches.tail before' last'
    refine ⟨cs ++ [a] ++ ds, v, further.trans turns, ?_, ?_, past'', h'', ?_, asleep'⟩
    · rw [others_append, others_append, others_other other, own, same, List.append_nil]
    · simp only [List.mem_append, List.mem_singleton, kept, kept', or_false, false_or]
      rintro rfl
      exact other rfl
    · rw [history_append further, history_snoc before' last', history_snoc before last, seen,
        h.observe h', silent, List.append_nil]

/-- **A refresh does not depend on who has begun it.**  Give up a lookup that has begun a refresh,
in a cache that keeps its owner.  Whatever could have happened without that happens just the same,
save for the turns of the lookup; and whatever happens then could have happened without that, if the
lookup gets its turns.  The same fetches start and end, at the same instants and in the same way,
and at any time the two runs differ in nothing but the lookup and what it logs: they agree in the
keys in use, the record, the reports, the line for the guard and all other lookups.  Where nothing
can run before time passes in one of them, nothing can in the other. -/
theorem outlives_caller (run : Reaches p (.load p now events keys) as s)
    (begun : s.HasBegun (history p (.load p now events keys) as) id)
    (given : step p s (.abort id) = some s') :
    (∀ bs t, Reaches p s bs t → t.owned = true →
      ∃ t', Reaches p s' (others id bs) t' ∧ Parted id t t' ∧
        history p s' (others id bs) = history p s bs ∧ (t.Settled p → t'.Settled p)) ∧
    ∀ bs t', Reaches p s' bs t' → t'.owned = true →
      ∃ cs t, Reaches p s cs t ∧ others id cs = bs ∧ .abort id ∉ cs ∧ Parted id t t' ∧
        history p s cs = history p s' bs ∧ (t'.Settled p → t.Settled p) := by
  have past : s.IsPast id := by
    obtain ⟨l, hl, late, -⟩ := (run.traced id).begun begun
    exact ⟨l, hl, late⟩
  obtain rfl := eq_abort_of_step given
  have parted (owned : s.owned = true) : Parted id s (s.abort id) :=
    .abort_own owned (past.notMem_line run.orderly)
  refine ⟨fun bs t further owned => ?_, fun bs t' further owned => ?_⟩
  · have h := parted (owned_of_reaches further owned)
    obtain ⟨-, t', further', h', same⟩ := parted_of_reaches run past h further owned
    exact ⟨t', further', h', same, h'.settled⟩
  · have h := parted (owned_step given (owned_of_reaches further owned)).1
    obtain ⟨cs, t, further', apart, kept, -, h', same, asleep⟩ :=
      exists_reaches_of_parted run past h further owned
    exact ⟨cs, t, further', apart, kept, h', same, h'.settled_of_asleep asleep⟩

/-- A lookup is given up while its refresh is on the way, and the refresh still brings its keys. -/
theorem outlives_caller_rotationRun :
    ∃ s s', Reaches samplePolicy (.load samplePolicy 0 [] (sampleKeys "a")) (rotationRun.take 4) s ∧
      step samplePolicy s (.abort 0) = some s' ∧
      ∃ t', Reaches samplePolicy s' (others 0 (rotationRun.drop 4)) t' ∧
        t'.keys = sampleKeys "b" ∧ t'.answer? 0 = none := by
  have run : Reaches samplePolicy (.load samplePolicy 0 [] (sampleKeys "a"))
      (rotationRun.take 4) _ := reaches_iff_after?.2 rfl
  obtain ⟨kept, -⟩ := outlives_caller run (.inl ⟨⟨0, some 0⟩, .head _, rfl⟩)
    (rfl : step samplePolicy _ (.abort 0) = some _)
  obtain ⟨t', further, h, -⟩ := kept (rotationRun.drop 4) _ (reaches_iff_after?.2 rfl) rfl
  refine ⟨_, _, run, rfl, t', further, h.keys, ?_⟩
  rw [State.answer?, h.lookup?_own]
  rfl

end BearerAuth.KeyCache
