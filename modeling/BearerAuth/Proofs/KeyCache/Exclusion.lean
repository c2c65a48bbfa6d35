import BearerAuth.Proofs.KeyCache.History

/-!
# Who fetches holds the guard

At any time at most one task refreshes the keys: either a refresh that a lookup has begun or the
schedule, and that task holds the guard.  The rate limit was asked before it began, and nothing has
been entered since.

* `Core.Sound` is this invariant, with the order of the instants on record;
* `Turn` lists all that a task can do to the core: a fetch starts, a fetch ends, both at once, or
  neither;
* `turn_step` : every step keeps the invariant, and it lets time pass or is such a turn, of which
  the marks can be seen.

The proof: of all moves only four touch who refreshes.  A lookup begins a refresh with the guard in
hand, a tick is handled with the guard in hand, and either of them ends before it hands the guard
on.  Whoever else has the guard finds nobody refreshing, and whoever has not changes nothing.
-/

namespace BearerAuth.KeyCache

variable (p : Policy)

namespace Core

/-- The attempts on record allow a fetch to start at some instant. -/
def Allows (c : Core) (time : Instant) : Prop :=
  ∀ last, c.ledger.lastAttempt = some last → last + p.options.rateLimit.nanos ≤ time

/-- Who refreshes. -/
inductive Seat (c : Core) : Prop where
  /-- Nobody does. -/
  | nobody (refreshers : c.refreshers = []) (schedule : c.schedule.started? = none)
  /-- A refresh that a lookup has begun; until its fetch starts, it may start at once. -/
  | lookup (r : Refresher) (refreshers : c.refreshers = [r]) (schedule : c.schedule.started? = none)
    (holder : c.holder = some (.refresh r.id)) (allowed : c.Allows p (r.started.getD c.now))
    (begun : r.started.getD c.now ≤ c.now)
    (timely : c.now ≤ r.started.getD c.now + p.options.timeout.nanos)
  /-- The schedule. -/
  | schedule (next started : Instant) (refreshers : c.refreshers = [])
    (schedule : c.schedule = .fetching next started) (holder : c.holder = some .schedule)
    (allowed : c.Allows p started) (begun : started ≤ c.now)
    (timely : c.now ≤ started + p.options.timeout.nanos)

/-- Instants on record are past, and who refreshes holds the guard. -/
structure Sound (c : Core) : Prop where
  /-- The last attempt was completed by now. -/
  attempted : ∀ last, c.ledger.lastAttempt = some last → last ≤ c.now
  /-- Who refreshes holds the guard. -/
  seat : c.Seat p

/-- Nobody refreshes. -/
structure Idle (c : Core) : Prop where
  /-- No lookup has begun a refresh that is not over. -/
  refreshers : c.refreshers = []
  /-- The schedule does not fetch. -/
  schedule : c.schedule.started? = none

/-- The cores differ at most in who waits for what. -/
structure SameStore (c d : Core) : Prop where
  /-- It is the same instant. -/
  now : d.now = c.now
  /-- The same keys are in use. -/
  keys : d.keys = c.keys
  /-- The same is on record. -/
  ledger : d.ledger = c.ledger
  /-- No fetch has started. -/
  fetches : d.fetches = c.fetches
  /-- Nothing has been reported. -/
  reports : d.reports = c.reports

/-- No fetch starts or ends between the cores. -/
structure Calm (c d : Core) : Prop extends SameStore c d where
  /-- The same fetches are on the way. -/
  flights : d.flights = c.flights

/-- The end of a fetch is entered between the cores, and nobody refreshes afterwards. -/
structure Landed (how : FetchEnd) (c d : Core) : Prop where
  /-- Nothing else is entered. -/
  store : SameStore (c.enter how) d
  /-- Nobody refreshes. -/
  idle : d.Idle

/-- The invariant is kept, and no fetch starts or ends between the cores. -/
structure Quiet (c d : Core) : Prop extends Calm c d where
  /-- The invariant holds afterwards. -/
  sound : d.Sound p

end Core

open BearerAuth.KeyCache.Core

/-- What a step of `task` can do to the core, and what can be seen of it; `how` is the end that a
fetch comes to. -/
inductive Turn (task : Task) (how : FetchEnd) : Core → List Mark → Core → Prop where
  /-- No fetch starts or ends. -/
  | calm {c d : Core} (calm : Calm c d) : Turn task how c [] d
  /-- A fetch starts. -/
  | start {c d : Core} (nobody : c.flights = []) (allowed : c.Allows p c.now)
    (store : SameStore { c with fetches := c.fetches + 1 } d)
    (flying : d.flights = [(task, c.now)]) :
    Turn task how c [.started task c.now] d
  /-- A fetch ends. -/
  | finish {c d : Core} {started : Instant} (flying : c.flights = [(task, started)])
    (allowed : c.Allows p started) (begun : started ≤ c.now) (store : SameStore (c.enter how) d)
    (landed : d.flights = []) : Turn task how c [.ended task c.now how] d
  /-- A fetch starts and ends at once. -/
  | startFinish {c d : Core} (nobody : c.flights = []) (allowed : c.Allows p c.now)
    (store : SameStore ({ c with fetches := c.fetches + 1 }.enter how) d)
    (landed : d.flights = []) :
    Turn task how c [.started task c.now, .ended task c.now how] d

/-- The invariant is kept by a turn of `task`. -/
def Turned (task : Task) (how : FetchEnd) (c d : Core) : Prop :=
  d.Sound p ∧ ∃ marks, Turn p task how c marks d

/-! ### Cores -/

namespace Core

@[simp] theorem enter_now (c : Core) (how : FetchEnd) : (c.enter how).now = c.now := by
  cases how <;> rfl

@[simp] theorem enter_fetches (c : Core) (how : FetchEnd) :
    (c.enter how).fetches = c.fetches := by
  cases how <;> rfl

@[simp] theorem enter_refreshers (c : Core) (how : FetchEnd) :
    (c.enter how).refreshers = c.refreshers := by
  cases how <;> rfl

@[simp] theorem enter_schedule (c : Core) (how : FetchEnd) :
    (c.enter how).schedule = c.schedule := by
  cases how <;> rfl

theorem SameStore.refl (c : Core) : SameStore c c := ⟨rfl, rfl, rfl, rfl, rfl⟩

theorem SameStore.trans {c d e : Core} (h : SameStore c d) (h' : SameStore d e) : SameStore c e :=
  ⟨h'.now.trans h.now, h'.keys.trans h.keys, h'.ledger.trans h.ledger,
    h'.fetches.trans h.fetches, h'.reports.trans h.reports⟩

theorem SameStore.reseat {c d : Core} (h : SameStore c d) (holder : Option Task)
    (refreshers : List Refresher) (schedule : Schedule) :
    SameStore c { d with holder, refreshers, schedule } :=
  ⟨h.now, h.keys, h.ledger, h.fetches, h.reports⟩

theorem SameStore.enter {c d : Core} (h : SameStore c d) (how : FetchEnd) :
    SameStore (c.enter how) (d.enter how) := by
  cases how with
  | keys keys => exact ⟨h.now, rfl, by simp [Core.enter, h.now, h.ledger], h.fetches, h.reports⟩
  | failed why =>
    exact ⟨h.now, h.keys, by simp [Core.enter, h.now, h.ledger], h.fetches,
      by simp [Core.enter, h.reports]⟩
  | crashed => exact h

theorem Calm.refl (c : Core) : Calm c c := ⟨.refl c, rfl⟩

theorem Calm.trans {c d e : Core} (h : Calm c d) (h' : Calm d e) : Calm c e :=
  ⟨h.toSameStore.trans h'.toSameStore, h'.flights.trans h.flights⟩

variable {p} {c d e : Core}

theorem Quiet.refl (h : c.Sound p) : Quiet p c c := ⟨.refl c, h⟩

theorem Quiet.trans (h : Quiet p c d) (h' : Quiet p d e) : Quiet p c e :=
  ⟨h.toCalm.trans h'.toCalm, h'.sound⟩

theorem Idle.flights (h : c.Idle) : c.flights = [] := by
  simp [Core.flights, h.refreshers, h.schedule]

theorem Idle.calm (h : c.Idle) (h' : d.Idle) (store : SameStore c d) : Calm c d :=
  ⟨store, h'.flights.trans h.flights.symm⟩

theorem Sound.of_idle (h : c.Sound p) (store : SameStore c d) (idle : d.Idle) : d.Sound p where
  attempted := by rw [store.ledger, store.now]; exact h.attempted
  seat := .nobody idle.refreshers idle.schedule

theorem Sound.quiet_of_idle (h : c.Sound p) (idle : c.Idle) (idle' : d.Idle)
    (store : SameStore c d) : Quiet p c d :=
  ⟨idle.calm idle' store, h.of_idle store idle'⟩

theorem Landed.sound {how : FetchEnd} (h : Landed how c d) (sound : c.Sound p) : d.Sound p where
  attempted := by
    rw [h.store.ledger, h.store.now]
    cases how with
    | keys | failed => intro last hl; cases hl; exact Nat.le_refl _
    | crashed => exact sound.attempted
  seat := .nobody h.idle.refreshers h.idle.schedule

theorem Sound.reschedule (h : c.Sound p) (idle : c.schedule.started? = none) (schedule : Schedule)
    (idle' : schedule.started? = none) :
    Quiet p c { c with schedule } := by
  refine ⟨⟨⟨rfl, rfl, rfl, rfl, rfl⟩, by simp [flights, idle, idle']⟩, h.attempted, ?_⟩
  cases h.seat with
  | nobody hr _ => exact .nobody hr idle'
  | lookup r hr _ holder allowed begun timely =>
    exact .lookup r hr idle' holder allowed begun timely
  | schedule _ _ _ hs => rw [hs] at idle; cases idle

/-- While neither a refresh nor the fetching schedule holds the guard, nobody refreshes. -/
theorem Sound.idle (h : c.Sound p) (lookup : ∀ id, c.holder ≠ some (.refresh id))
    (schedule : c.holder = some .schedule → c.schedule.started? = none) : c.Idle := by
  cases h.seat with
  | nobody hr hs => exact ⟨hr, hs⟩
  | lookup r _ _ holder => exact absurd holder (lookup r.id)
  | schedule next started _ hs holder =>
    have idle := schedule holder
    rw [hs] at idle
    cases idle

end Core

variable {p} {c d : Core} {s u : State} {a : Action} {task : Task} {how : FetchEnd}
  {marks : List Mark} {stops : Bool} {answer : Option Answer}

theorem Turn.now_eq (h : Turn p task how c marks d) : d.now = c.now := by
  cases h with
  | calm calm => exact calm.now
  | start _ _ store => exact store.now
  | finish _ _ _ store => rw [store.now, enter_now]
  | startFinish _ _ store => rw [store.now, enter_now]

/-- What can be seen of a turn is told by the fetches counted and by those on the way. -/
theorem Turn.marks_eq (h : Turn p task how c marks d) :
    marks = List.replicate (d.fetches - c.fetches) (.started task c.now) ++
      List.replicate (c.flights.length + (d.fetches - c.fetches) - d.flights.length)
        (.ended task c.now how) := by
  cases h with
  | calm calm => simp [calm.fetches, calm.flights]
  | start nobody _ store flying => simp [nobody, flying, store.fetches]
  | finish flying _ _ store landed => simp [flying, landed, store.fetches]
  | startFinish nobody _ store landed => simp [nobody, landed, store.fetches]

/-- What is done before the turn of a task does not matter, if no fetch starts or ends by it. -/
theorem Turn.of_calm {b : Core} (before : Calm b c) (h : Turn p task how c marks d) :
    Turn p task how b marks d := by
  have now := before.now
  have moved : SameStore { b with fetches := b.fetches + 1 } { c with fetches := c.fetches + 1 } :=
    ⟨now, before.keys, before.ledger, congrArg (· + 1) before.fetches, before.reports⟩
  have allows (time : Instant) (allowed : c.Allows p time) : b.Allows p time :=
    fun last hl => allowed last (before.ledger ▸ hl)
  cases h with
  | calm calm => exact .calm (before.trans calm)
  | start nobody allowed store flying =>
    rw [now] at *
    exact .start (before.flights ▸ nobody) (allows _ allowed) (moved.trans store) flying
  | finish flying allowed begun store landed =>
    rw [now] at *
    exact .finish (before.flights ▸ flying) (allows _ allowed) begun
      ((before.toSameStore.enter _).trans store) landed
  | startFinish nobody allowed store landed =>
    rw [now] at *
    exact .startFinish (before.flights ▸ nobody) (allows _ allowed)
      ((moved.enter _).trans store) landed

theorem Core.Quiet.turned (h : Quiet p c d) : Turned p task how c d := ⟨h.sound, _, .calm h.toCalm⟩

theorem Turned.of_quiet {b : Core} (h : Turned p task how c d) (before : Quiet p b c) :
    Turned p task how b d := by
  obtain ⟨sound, marks, turn⟩ := h
  exact ⟨sound, marks, turn.of_calm before.toCalm⟩

theorem Turn.observe_run (h : Turn p task (p.outcome answer) s.core marks u.core) (stops : Bool) :
    observe p s (.run task stops answer) u = marks := by
  rw [h.marks_eq, State.flights_core, State.flights_core]; rfl

/-! ### Lookups and watches -/

namespace State

theorem allows_of_not_limited (h : s.core.Sound p) (free : s.limited p = false) :
    s.core.Allows p s.now := by
  intro last hl
  have past := h.attempted last hl
  change s.ledger.lastAttempt = some last at hl
  simp only [limited, Ledger.limited, hl, Option.any_some, decide_eq_false_iff_not,
    Nat.not_lt] at free
  change last ≤ s.now at past
  unfold Instant at *
  omega

theorem quiet_release (h : s.core.Sound p) (idle : s.core.Idle) :
    Quiet p s.core s.release.core := by
  rw [core_release]
  exact h.quiet_of_idle idle ⟨idle.refreshers, idle.schedule⟩ ⟨rfl, rfl, rfl, rfl, rfl⟩

theorem quiet_inspect (h : s.core.Sound p) (idle : s.core.Idle) (l : Lookup) :
    Quiet p s.core (s.inspect p l).core := by
  unfold inspect
  split
  · rw [core_conclude]; exact quiet_release h idle
  · split
    · rw [core_conclude]; exact quiet_release (s := s.note _) h idle
    · -- the refresh takes the guard over, and its fetch may start at once
      rename_i free
      have allowed : s.core.Allows p s.now := allows_of_not_limited h (by simpa using free)
      have none : s.refreshers = [] := idle.refreshers
      rw [core_wake]
      refine ⟨⟨⟨rfl, rfl, rfl, rfl, rfl⟩, ?_⟩, h.attempted, ?_⟩
      · simp [Core.flights, core, note, setPhase, none]
      · exact .lookup ⟨l.id, .none⟩ (congrArg (· ++ [_]) none) idle.schedule rfl allowed
          (Nat.le_refl _) (Nat.le_add_right _ _)

theorem quiet_ask (h : s.core.Sound p) (t : Task) : Quiet p s.core (s.ask t).core := by
  rw [core_ask]
  refine ⟨⟨⟨rfl, rfl, rfl, rfl, rfl⟩, rfl⟩, h.attempted, ?_⟩
  -- whoever holds the guard keeps it
  cases h.seat with
  | nobody hr hs => exact .nobody hr hs
  | lookup r hr hs holder allowed begun timely =>
    exact .lookup r hr hs (by change s.holder.or _ = _; rw [show s.holder = _ from holder]; rfl)
      allowed begun timely
  | schedule next started hr hs holder allowed begun timely =>
    exact .schedule next started hr hs
      (by change s.holder.or _ = _; rw [show s.holder = _ from holder]; rfl) allowed begun timely

theorem idle_of_holder_lookup (h : s.core.Sound p) {id : Nat}
    (holds : s.holder = some (.lookup id)) : s.core.Idle :=
  h.idle (by simp [core, holds]) (by simp [core, holds])

theorem idle_of_holder_watch (h : s.core.Sound p) {id : Nat} (holds : s.holder = some (.watch id)) :
    s.core.Idle :=
  h.idle (by simp [core, holds]) (by simp [core, holds])

theorem quiet_miss (h : s.core.Sound p) (l : Lookup) : Quiet p s.core (s.miss p l).core := by
  have asked := quiet_ask (s := s.setPhase l.id .queued) h (.lookup l.id)
  unfold miss
  dsimp only
  split
  · rename_i holds
    have idle := idle_of_holder_lookup asked.sound holds
    exact asked.trans (quiet_inspect asked.sound idle l)
  · exact asked

theorem quiet_runLookup (h : s.core.Sound p) (l : Lookup) :
    Quiet p s.core (s.runLookup p l).core := by
  unfold runLookup
  split
  · split
    · rw [core_conclude]; exact .refl h
    · split
      · exact quiet_miss h l
      · rw [core_conclude, core_note]; exact .refl h
  · split
    · rename_i holds
      exact quiet_inspect h (idle_of_holder_lookup h holds) l
    · exact .refl h
  · rw [core_conclude, core_note]; exact .refl h
  · exact .refl h

theorem quiet_glance (h : s.core.Sound p) {id : Nat} (holds : s.holder = some (.watch id)) :
    Quiet p s.core (s.disclose id).release.giveUp.core := by
  rw [core_giveUp]
  exact quiet_release (s := s.disclose id) h (idle_of_holder_watch h holds)

theorem quiet_runWatch (h : s.core.Sound p) (w : Watch) :
    Quiet p s.core (s.runWatch w).core := by
  unfold runWatch
  split
  · exact .refl h
  split
  · rename_i holds
    exact quiet_glance h holds
  split
  · exact .refl h
  have asked := quiet_ask h (.watch w.id)
  dsimp only
  split
  · rename_i holds
    exact asked.trans (quiet_glance asked.sound holds)
  · exact asked

theorem quiet_abort (h : s.core.Sound p) (id : Nat) : Quiet p s.core (s.abort id).core := by
  rw [abort_eq, core_finish]
  split
  · rename_i holds
    have idle : s.core.Idle := idle_of_holder_lookup h holds
    rw [core_release]
    exact h.quiet_of_idle idle ⟨idle.refreshers, idle.schedule⟩ ⟨rfl, rfl, rfl, rfl, rfl⟩
  · exact .refl h

/-! ### Fetches -/

theorem fetchEnd?_outcome {started : Instant} {end_ : Answer}
    (h : s.fetchEnd? p started answer = some end_) : end_.outcome = p.outcome answer := by
  unfold fetchEnd? at h
  split at h
  · cases h; rfl
  · split at h
    · cases h; rfl
    · cases h

theorem landed_endRefresh {r : Refresher} (hr : s.refreshers = [r])
    (hs : s.schedule.started? = none) (end_ : Answer) :
    Landed end_.outcome s.core (s.endRefresh p r.id end_).core := by
  unfold endRefresh
  rw [core_join, core_release]
  generalize hn : (s.note end_.events).enter p .unknownKey end_.outcome = n
  have entered : n.core = s.core.enter end_.outcome := hn ▸ core_enter p _ _ _
  have refreshers : n.refreshers = [r] :=
    (congrArg Core.refreshers entered).trans ((enter_refreshers ..).trans hr)
  have schedule : n.schedule = s.schedule :=
    (congrArg Core.schedule entered).trans (enter_schedule ..)
  have store : SameStore (s.core.enter end_.outcome) n.core := entered ▸ .refl _
  refine ⟨store.reseat .., ?_, ?_⟩
  · change n.refreshers.filter _ = []
    simp [refreshers]
  · change n.schedule.started? = none
    rw [schedule, hs]

theorem landed_endTick (hr : s.refreshers = []) (next : Instant) (end_ : Answer) :
    Landed end_.outcome s.core (s.endTick p next end_).core := by
  unfold endTick
  dsimp only
  generalize hn : (s.note end_.events).enter p .scheduled end_.outcome = n
  have entered : n.core = s.core.enter end_.outcome := hn ▸ core_enter p _ _ _
  have refreshers : n.refreshers = [] :=
    (congrArg Core.refreshers entered).trans ((enter_refreshers ..).trans hr)
  have store : SameStore (s.core.enter end_.outcome) n.core := entered ▸ .refl _
  -- the schedule waits for its next tick, unless it has broken down
  split
  · rw [core_rest, core_release]
    exact ⟨store.reseat .., refreshers, rfl⟩
  · rw [core_rest, core_release, core_note]
    exact ⟨store.reseat .., refreshers, rfl⟩
  · rw [core_endSchedule, core_release]
    exact ⟨store.reseat .., refreshers, rfl⟩

/-- The refresh of a number is the only one, and it holds the guard. -/
theorem seat_of_refresher? (h : s.core.Sound p) {id : Nat} {r : Refresher}
    (hr : s.refresher? id = some r) :
    r.id = id ∧ s.refreshers = [r] ∧ s.schedule.started? = none ∧
      s.holder = some (.refresh r.id) ∧ s.core.Allows p (r.started.getD s.now) ∧
      r.started.getD s.now ≤ s.now := by
  have mem := List.mem_of_find?_eq_some hr
  have hid := List.find?_some hr
  cases h.seat with
  | nobody none _ => rw [show s.refreshers = [] from none] at mem; cases mem
  | schedule _ _ none => rw [show s.refreshers = [] from none] at mem; cases mem
  | lookup r' only hs holder allowed begun timely =>
    rw [show s.refreshers = [r'] from only, List.mem_singleton] at mem
    subst mem
    exact ⟨by simpa using hid, only, hs, holder, allowed, begun⟩

theorem turn_runRefresh_of_some (h : s.core.Sound p) {r : Refresher}
    (hr : s.refresher? r.id = some r) {since : Instant} (started : r.started = some since) :
    (s.runRefresh p r answer).core.Sound p ∧
      ∃ marks, Turn p (.refresh r.id) (p.outcome answer) s.core marks
          (s.runRefresh p r answer).core ∧
        ((s.fetchEnd? p since answer).isSome = true →
          .ended (.refresh r.id) s.now (p.outcome answer) ∈ marks) := by
  obtain ⟨-, only, hs, holder, allowed, begun⟩ := seat_of_refresher? h hr
  have launched : s.launch r = s := launch_of_some started
  have flying : s.core.flights = [(.refresh r.id, since)] := by
    simp [Core.flights, core, only, hs, started]
  have cases_ := s.runRefresh_cases p r answer
  rw [started, Option.getD_some] at allowed begun cases_
  rcases cases_ with ⟨going, same⟩ | ⟨end_, found, same⟩ <;> rw [same, launched]
  · exact ⟨h, _, .calm (.refl _), fun ended => by rw [going] at ended; cases ended⟩
  · have landed := landed_endRefresh (p := p) only hs end_
    rw [fetchEnd?_outcome found] at landed
    exact ⟨landed.sound h, _, .finish flying allowed begun landed.store landed.idle.flights,
      fun _ => List.mem_singleton_self _⟩

theorem turn_runRefresh_of_none (h : s.core.Sound p) {r : Refresher}
    (hr : s.refresher? r.id = some r) (unstarted : r.started = none) :
    (s.runRefresh p r answer).core.Sound p ∧
      ∃ marks, Turn p (.refresh r.id) (p.outcome answer) s.core marks
          (s.runRefresh p r answer).core ∧
        ((s.fetchEnd? p s.now answer).isSome = true →
          .ended (.refresh r.id) s.now (p.outcome answer) ∈ marks) := by
  obtain ⟨-, only, hs, holder, allowed, -⟩ := seat_of_refresher? h hr
  have nobody : s.core.flights = [] := by simp [Core.flights, core, only, hs, unstarted]
  have cases_ := s.runRefresh_cases p r answer
  rw [unstarted, Option.getD_none] at allowed cases_
  have launched := launch_of_none only unstarted
  generalize s.launch r = s' at cases_ launched
  have store : SameStore { s.core with fetches := s.core.fetches + 1 } s'.core := by
    subst launched; exact ⟨rfl, rfl, rfl, rfl, rfl⟩
  have only' : s'.refreshers = [{ r with started := some s.now }] := by subst launched; rfl
  have hs' : s'.schedule.started? = none := by subst launched; exact hs
  have sound' : s'.core.Sound p := by
    subst launched
    exact ⟨h.attempted, .lookup { r with started := some s.now } rfl hs holder allowed
      (Nat.le_refl _) (Nat.le_add_right _ _)⟩
  rcases cases_ with ⟨going, same⟩ | ⟨end_, found, same⟩ <;> rw [same]
  · exact ⟨sound', _, .start nobody allowed store (by simp [Core.flights, core, only', hs']),
      fun ended => by rw [going] at ended; cases ended⟩
  · have landed := landed_endRefresh (p := p) only' hs' end_
    rw [fetchEnd?_outcome found] at landed
    exact ⟨landed.sound sound', _, .startFinish nobody allowed
      ((store.enter _).trans landed.store) landed.idle.flights,
      fun _ => List.mem_cons_of_mem _ (List.mem_singleton_self _)⟩

theorem turn_runRefresh (h : s.core.Sound p) {r : Refresher} (hr : s.refresher? r.id = some r) :
    (s.runRefresh p r answer).core.Sound p ∧
      ∃ marks, Turn p (.refresh r.id) (p.outcome answer) s.core marks
          (s.runRefresh p r answer).core ∧
        ((s.fetchEnd? p (r.started.getD s.now) answer).isSome = true →
          .ended (.refresh r.id) s.now (p.outcome answer) ∈ marks) := by
  cases started : r.started with
  | some since => exact turn_runRefresh_of_some h hr started
  | none => exact turn_runRefresh_of_none h hr started

theorem landed_runFetch (hr : s.refreshers = []) (next started : Instant)
    (answer : Option Answer) :
    s.runFetch p next started answer = s ∨
      Landed (p.outcome answer) s.core (s.runFetch p next started answer).core := by
  unfold runFetch
  split
  · rename_i end_ found
    rw [← fetchEnd?_outcome found]
    exact .inr (landed_endTick hr next end_)
  · exact .inl rfl

/-- With the guard in hand a tick is skipped, or its fetch starts and may end at once. -/
theorem turned_handle (h : s.core.Sound p) (idle : s.core.Idle) (holds : s.holder = some .schedule)
    (next : Instant) (answer : Option Answer) :
    Turned p .schedule (p.outcome answer) s.core (s.handle p next answer).core := by
  unfold handle
  split
  · -- the tick is skipped
    rw [core_rest, core_release]
    have idle' : ({ s.core with holder := s.queue.head?, schedule := .waiting next } : Core).Idle :=
      ⟨idle.refreshers, rfl⟩
    exact (h.quiet_of_idle idle idle' ⟨rfl, rfl, rfl, rfl, rfl⟩).turned
  · rename_i free
    have allowed := allows_of_not_limited h (by simpa using free)
    generalize hs' : ({ s with
      fetches := s.fetches + 1, schedule := .fetching next s.now } : State) = s'
    have store : SameStore { s.core with fetches := s.core.fetches + 1 } s'.core := by
      subst hs'; exact ⟨rfl, rfl, rfl, rfl, rfl⟩
    have hr : s'.refreshers = [] := by subst hs'; exact idle.refreshers
    have sound' : s'.core.Sound p := by
      subst hs'
      exact ⟨h.attempted, .schedule next s.now idle.refreshers rfl holds allowed (Nat.le_refl _)
        (Nat.le_add_right _ _)⟩
    have flying : s'.core.flights = [(.schedule, s.now)] := by
      subst hs'
      simp [Core.flights, core, show s.refreshers = [] from idle.refreshers, Schedule.started?]
    rcases landed_runFetch hr next s.now answer with same | landed
    · rw [same]
      exact ⟨sound', _, .start idle.flights allowed store flying⟩
    · exact ⟨landed.sound sound', _, .startFinish idle.flights allowed
        ((store.enter _).trans landed.store) landed.idle.flights⟩

theorem turned_tick (h : s.core.Sound p) (due : Instant) (hs : s.schedule.started? = none) :
    Turned p .schedule (p.outcome answer) s.core (s.tick p due answer).core := by
  have queued := h.reschedule hs (.queued (s.nextTick p due)) rfl
  have asked := queued.trans
    (quiet_ask (s := { s with schedule := .queued (s.nextTick p due) }) queued.sound .schedule)
  unfold tick
  dsimp only
  split
  · rename_i holds
    have idle := asked.sound.idle (by simp [core, holds]) fun _ => by rw [core_ask]; rfl
    exact (turned_handle asked.sound idle holds (s.nextTick p due) answer).of_quiet asked
  · exact asked.turned

theorem turned_runSchedule (h : s.core.Sound p) :
    Turned p .schedule (p.outcome answer) s.core (s.runSchedule p stops answer).core := by
  unfold runSchedule
  split
  · rename_i hs
    have idle : s.core.schedule.started? = none := by simp [core, hs, Schedule.started?]
    rw [core_rest]
    exact (h.reschedule idle (.waiting (s.now + p.options.interval.nanos)) rfl).turned
  · rename_i due hs
    have idle : s.core.schedule.started? = none := by simp [core, hs, Schedule.started?]
    split
    · rw [core_endSchedule, core_note]
      exact (h.reschedule idle .ended rfl).turned
    · split
      · exact turned_tick h due idle
      · exact (Quiet.refl h).turned
  · rename_i next hs
    split
    · rename_i holds
      have idle := h.idle (by simp [core, holds]) fun _ => by simp [core, hs, Schedule.started?]
      exact turned_handle h idle holds next answer
    · exact (Quiet.refl h).turned
  · -- it fetches, so that it is the one that refreshes
    rename_i next started hs
    cases h.seat with
    | nobody _ idle | lookup _ _ idle => rw [show s.core.schedule = _ from hs] at idle; cases idle
    | schedule next' started' hr hs' holder allowed begun =>
      cases hs.symm.trans hs'
      have flying : s.core.flights = [(.schedule, started)] := by
        simp [Core.flights, core, show s.refreshers = [] from hr, hs, Schedule.started?]
      rcases landed_runFetch hr next started answer with same | landed
      · rw [same]
        exact (Quiet.refl h).turned
      · exact ⟨landed.sound h, _, .finish flying allowed begun landed.store landed.idle.flights⟩
  · exact (Quiet.refl h).turned

end State

/-! ### Steps -/

theorem sound_load (now : Instant) (events : List Event) (keys : KeySet) :
    (State.load p now events keys).core.Sound p where
  attempted := by intro last hl; cases hl
  seat := by
    refine .nobody rfl ?_
    simp only [State.core, State.load]
    split <;> rfl

/-- A task that runs takes a turn. -/
theorem turned_runs (h : s.core.Sound p) (runs : s.Runs p stops answer task u) :
    Turned p task (p.outcome answer) s.core u.core := by
  cases runs with
  | unknown => exact (Quiet.refl h).turned
  | lookup l => exact (State.quiet_runLookup h l).turned
  | refresh r known =>
    obtain ⟨sound, marks, turn, -⟩ := State.turn_runRefresh h known
    exact ⟨sound, marks, turn⟩
  | schedule => exact State.turned_runSchedule h
  | watch w => exact (State.quiet_runWatch h w).turned
  | closing c =>
    rw [State.core_runClosing]
    exact (Quiet.refl h).turned

/-- A step that runs a task is a turn of that task, and what can be seen of the turn is seen. -/
theorem turn_step_run (h : s.core.Sound p) (hs : step p s (.run task stops answer) = some u) :
    Turn p task (p.outcome answer) s.core (observe p s (.run task stops answer) u) u.core := by
  obtain ⟨-, marks, turn⟩ := turned_runs (s := s.unwake task) h (runs_of_step hs)
  have turn : Turn p task (p.outcome answer) s.core marks u.core := turn
  rwa [turn.observe_run stops]

theorem calm_of_run_lookup (h : s.core.Sound p) {id : Nat}
    (hs : step p s (.run (.lookup id) stops answer) = some u) : Calm s.core u.core := by
  cases runs_of_step hs with
  | unknown => exact .refl _
  | lookup l => exact (State.quiet_runLookup (s := s.unwake _) h l).toCalm

/-- Time passes no further than a fetch on the way may last. -/
theorem sound_advance (h : s.core.Sound p) {time : Instant} (later : s.now ≤ time)
    (due : ∀ t ∈ s.deadlines p, time ≤ t) : ({ s with now := time } : State).core.Sound p where
  attempted := fun last hl => Nat.le_trans (h.attempted last hl) later
  seat := by
    -- time stops at the latest where a fetch on the way times out
    have timeout (f : Task × Instant) (hf : f ∈ s.core.flights) :
        time ≤ f.2 + p.options.timeout.nanos := by
      rw [State.flights_core] at hf
      exact due _ (List.mem_append_right _ (List.mem_map_of_mem hf))
    cases h.seat with
    | nobody hr hs => exact .nobody hr hs
    | lookup r hr hs holder allowed begun timely =>
      -- a fetch that has not started yet may start later as well
      cases started : r.started with
      | none =>
        rw [started] at allowed
        refine .lookup r hr hs holder ?_ ?_ ?_ <;> rw [started]
        · exact fun last hl => Nat.le_trans (allowed last hl) later
        · exact Nat.le_refl _
        · exact Nat.le_add_right _ _
      | some since =>
        rw [started] at allowed begun
        refine .lookup r hr hs holder ?_ ?_ ?_ <;> rw [started]
        · exact allowed
        · exact Nat.le_trans begun later
        · exact timeout (.refresh r.id, since) (by simp [flights, hr, hs, started])
    | schedule next started hr hs holder allowed begun timely =>
      refine .schedule next started hr hs holder allowed (Nat.le_trans begun later) ?_
      exact timeout (.schedule, started) (by simp [flights, hr, hs, Schedule.started?])

/-- **Every step keeps the guard's invariant**, and it lets time pass while nothing can run, or it
is a turn of which the marks can be seen. -/
theorem turn_step (h : s.core.Sound p) (hs : step p s a = some u) :
    u.core.Sound p ∧
      ((∃ time, a = .advance time ∧ s.now ≤ time ∧ s.woken = [] ∧ u = { s with now := time }) ∨
        ∃ task how, Turn p task how s.core (observe p s a u) u.core) := by
  -- most actions leave the core alone
  have still (hu : u.core = s.core) (ho : observe p s a u = []) :
      u.core.Sound p ∧ ∃ task how, Turn p task how s.core (observe p s a u) u.core :=
    ⟨hu ▸ h, .schedule, .crashed, ho ▸ .calm (hu ▸ .refl _)⟩
  cases step_eq_some_iff.1 hs with
  | call | watch | close | wake | note => exact (still (by simp) rfl).imp_right .inr
  | drop => exact (still (State.core_giveUp _) rfl).imp_right .inr
  | abort l =>
    have quiet := State.quiet_abort h l.id
    exact ⟨quiet.sound, .inr ⟨.schedule, .crashed, .calm quiet.toCalm⟩⟩
  | advance time idle later due =>
    exact ⟨sound_advance h later due, .inl ⟨time, rfl, later, idle, rfl⟩⟩
  | run task stops answer ready runs =>
    exact ⟨(turned_runs (s := s.unwake task) h runs).1, .inr ⟨task, _, turn_step_run h hs⟩⟩

end BearerAuth.KeyCache
