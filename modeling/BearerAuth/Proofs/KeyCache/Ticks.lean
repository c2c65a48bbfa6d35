import Mathlib.Data.List.Chain
import BearerAuth.Proofs.KeyCache.Schedules

/-!
# The schedule neither dies nor bursts

A tick may be handled late, for the schedule handles one tick after the other, and each of them may
have to wait for the guard and for a fetch.  Late ticks are not made up for: however late a tick is
handled, the next one is due about an interval after that.

* `handled` are the instants at which a run handles ticks, told by the states before and after each
  step;
* `ended_of_broken` : the schedule breaks down only with a fetch of its own;
* `State.Alive` and `Paced` are the invariants: the schedule ends only because it shall, and its
  next tick is due neither too late for the present nor too early for the last tick;
* `ticks_steady` : the schedule over whole runs.

The proof: a tick that is handled has come due, so that the next one, due an interval later, is no
further ahead than an interval.  And it was due an interval after the one before, but for the
tolerance within which lateness does not count.
-/

namespace BearerAuth.KeyCache

open BearerAuth.KeyCache.Core

variable {p : Policy} {s t u : State} {as : List Action} {a : Action} {now : Instant}
  {events : List Event} {keys : KeySet} {stops : Bool} {answer : Option Answer}

/-! ### Ticks that are handled -/

/-- A tick is handled between the states: the schedule has waited for it, and it has neither waited
on nor stopped. -/
def State.handles (s u : State) : Bool :=
  match s.schedule with
  | .waiting due => u.schedule != .waiting due && u.schedule != .ended
  | _ => false

variable (p) in
/-- When ticks are handled in a run from `s`. -/
def handled (s : State) : List Action → List Instant
  | [] => []
  | a :: as =>
    match step p s a with
    | some u => (if s.handles u then [s.now] else []) ++ handled u as
    | none => []

theorem handled_snoc (h : Reaches p s as t) (last : step p t a = some u) :
    handled p s (as ++ [a]) = handled p s as ++ if t.handles u then [t.now] else [] := by
  rw [reaches_iff_after?] at h
  induction as generalizing s with
  | nil => cases h; simp [handled, last]
  | cons b as ih =>
    obtain ⟨v, first, rest⟩ := Option.bind_eq_some_iff.1 h
    simp only [List.cons_append, handled, first, ih rest, List.append_assoc]

theorem handles_of_schedule_eq (same : u.schedule = s.schedule) : s.handles u = false := by
  unfold State.handles
  split
  · rename_i due waiting
    simp [same, waiting]
  · rfl

theorem handles_of_not_waiting (apart : ∀ due, s.schedule ≠ .waiting due) :
    s.handles u = false := by
  unfold State.handles
  split
  · rename_i due waiting
    exact absurd waiting (apart due)
  · rfl

theorem handles_of_waiting {due : Instant} (waiting : s.schedule = .waiting due)
    (on : u.schedule ≠ .waiting due) (going : u.schedule ≠ .ended) : s.handles u = true := by
  simp [State.handles, waiting, on, going]

/-! ### The tick that comes next -/

/-- The tick that comes next, or that comes after the one in hand. -/
def Schedule.next? : Schedule → Option Instant
  | waiting next | queued next | fetching next _ => some next
  | _ => none

theorem FetchEnd.next?_scheduleAfter {next n : Instant} (how : FetchEnd)
    (h : (how.scheduleAfter next).next? = some n) : n = next := by
  cases how <;> cases h <;> rfl

theorem Handles.next? {next n : Instant} {how : FetchEnd} {after : Schedule}
    (h : Handles s next how after) (hn : after.next? = some n) : n = next := by
  cases h with
  | skipped | fetching => cases hn; rfl
  | landed => exact how.next?_scheduleAfter hn

/-- Whatever handling a tick comes to, the schedule neither waits for the same tick nor stops. -/
theorem Handles.apart {next due : Instant} {how : FetchEnd} {after : Schedule}
    (h : Handles s next how after) (later : due < next) :
    after ≠ .waiting due ∧ after ≠ .ended := by
  have on : Schedule.waiting next ≠ .waiting due := by
    rintro ⟨⟩
    exact absurd later (Nat.lt_irrefl _)
  cases h with
  | skipped => exact ⟨on, nofun⟩
  | fetching => exact ⟨nofun, nofun⟩
  | landed =>
    cases how with
    | keys | failed => exact ⟨on, nofun⟩
    | crashed => exact ⟨nofun, nofun⟩

/-- A tick that has come due and is handled now: the next one is due an interval after now at the
latest, and no sooner than an interval after now, but for the tolerance. -/
theorem State.nextTick_bounds {due : Instant} (past : due ≤ s.now) :
    due + p.options.interval.nanos ≤ s.nextTick p due ∧
      s.nextTick p due ≤ s.now + p.options.interval.nanos ∧
      s.now + p.options.interval.nanos ≤ s.nextTick p due + tickTolerance := by
  unfold State.nextTick Instant at *
  split <;> omega

/-! ### Pace -/

variable (p) in
/-- A tick is not due too early after the ticks handled so far: the first one an interval after the
start, each other one an interval after the one before, but for the tolerance. -/
structure Follows (start : Instant) (ticks : List Instant) (next : Instant) : Prop where
  /-- It is the first one. -/
  first : ticks = [] → start + p.options.interval.nanos ≤ next
  /-- It comes after another. -/
  later : ∀ t, ticks.getLast? = some t → t + p.options.interval.nanos ≤ next + tickTolerance

variable (p) in
/-- The schedule has kept pace since the start. -/
structure Paced (start : Instant) (ticks : List Instant) (s : State) : Prop where
  /-- The start is past. -/
  begun : start ≤ s.now
  /-- Until it has run, no tick is handled. -/
  idle : s.schedule = .starting → ticks = []
  /-- The next tick is no further ahead than an interval. -/
  ahead : ∀ next, s.schedule.next? = some next → next ≤ s.now + p.options.interval.nanos
  /-- Nor is it too early. -/
  follows : ∀ next, s.schedule.next? = some next → Follows p start ticks next
  /-- The first tick was handled no sooner than an interval after the start. -/
  opened : ∀ t, ticks.head? = some t → start + p.options.interval.nanos ≤ t
  /-- The ticks were handled about an interval apart at least. -/
  apart : ticks.IsChain fun t u => t + p.options.interval.nanos ≤ u + tickTolerance

variable {start : Instant} {ticks : List Instant}

theorem Paced.begin (h : Paced p start ticks s) (starting : s.schedule = .starting)
    (now : u.now = s.now) (next : u.schedule = .waiting (s.now + p.options.interval.nanos)) :
    Paced p start ticks u := by
  have none := h.idle starting
  subst none
  have next (n : Instant) (hn : u.schedule.next? = some n) :
      n = s.now + p.options.interval.nanos := by
    rw [next] at hn
    exact (Option.some.inj hn).symm
  refine ⟨now ▸ h.begun, fun _ => rfl, fun n hn => ?_, fun n hn => ?_, nofun, .nil⟩
  · rw [next n hn, now]
  · refine ⟨fun _ => ?_, nofun⟩
    rw [next n hn]
    exact Nat.add_le_add_right h.begun _

theorem Paced.handle (h : Paced p start ticks s) {due : Instant}
    (waiting : s.schedule = .waiting due) (past : due ≤ s.now) (now : u.now = s.now)
    (begun : u.schedule ≠ .starting)
    (next : ∀ n, u.schedule.next? = some n → n = s.nextTick p due) :
    Paced p start (ticks ++ [s.now]) u := by
  obtain ⟨-, ahead, late⟩ := s.nextTick_bounds (p := p) past
  obtain ⟨first, later⟩ := h.follows due (by rw [waiting]; rfl)
  refine ⟨now ▸ h.begun, fun starting => absurd starting begun, fun n hn => ?_, fun n hn => ?_,
    fun t ht => ?_, ?_⟩
  · rw [next n hn, now]
    exact ahead
  · refine ⟨by simp, fun t ht => ?_⟩
    obtain rfl : s.now = t := by simpa using ht
    rw [next n hn]
    exact late
  · cases ticks with
    | nil =>
      obtain rfl : s.now = t := by simpa using ht
      exact Nat.le_trans (first rfl) past
    | cons x rest => exact h.opened t ht
  · refine h.apart.append (List.isChain_singleton _) fun x hx y hy => ?_
    obtain rfl : s.now = y := by simpa using hy
    exact Nat.le_trans (later x hx) (Nat.add_le_add_right past _)

theorem Paced.wait (h : Paced p start ticks s) (later : s.now ≤ u.now)
    (begun : u.schedule = .starting → s.schedule = .starting)
    (next : ∀ n, u.schedule.next? = some n → s.schedule.next? = some n) :
    Paced p start ticks u where
  begun := Nat.le_trans h.begun later
  idle := fun starting => h.idle (begun starting)
  ahead := fun n hn => Nat.le_trans (h.ahead n (next n hn)) (Nat.add_le_add_right later _)
  follows := fun n hn => h.follows n (next n hn)
  opened := h.opened
  apart := h.apart

theorem next?_load (now : Instant) (events : List Event) (keys : KeySet) :
    (State.load p now events keys).schedule.next? = none := by
  simp only [State.load]
  split <;> rfl

theorem paced_load (now : Instant) (events : List Event) (keys : KeySet) :
    Paced p now [] (State.load p now events keys) where
  begun := Nat.le_refl _
  idle := fun _ => rfl
  ahead := by simp [next?_load]
  follows := by simp [next?_load]
  opened := by simp
  apart := .nil

theorem now_step_run {task : Task} (sound : s.core.Sound p)
    (hs : step p s (.run task stops answer) = some u) : u.now = s.now := by
  obtain ⟨-, ⟨_, passes, -⟩ | ⟨_, _, turned⟩⟩ := turn_step sound hs
  · cases passes
  · exact turned.now_eq

theorem le_now_step (sound : s.core.Sound p) (hs : step p s a = some u) : s.now ≤ u.now := by
  obtain ⟨-, ⟨time, -, later, -, rfl⟩ | ⟨_, _, turned⟩⟩ := turn_step sound hs
  · exact later
  · exact Nat.le_of_eq turned.now_eq.symm

theorem Paced.quiet (h : Paced p start ticks u) (quiet : s.handles u = false) :
    Paced p start (ticks ++ if s.handles u then [s.now] else []) u := by
  rw [quiet]
  simpa using h

theorem Paced.shift {how : FetchEnd} (h : Paced p start ticks s)
    (interval : 0 < p.options.interval.nanos) (shift : Shift p s how u.schedule)
    (now : u.now = s.now) : Paced p start (ticks ++ if s.handles u then [s.now] else []) u := by
  have begun := shift.ne_starting
  generalize hu : u.schedule = after at shift begun
  -- a tick that is handled has been waited for, and the next one is another
  have handling {due : Instant} (waiting : s.schedule = .waiting due) (past : due ≤ s.now)
      (on : after ≠ .waiting due) (going : after ≠ .ended)
      (next : ∀ n, after.next? = some n → n = s.nextTick p due) :
      Paced p start (ticks ++ if s.handles u then [s.now] else []) u := by
    rw [handles_of_waiting waiting (hu ▸ on) (hu ▸ going)]
    exact h.handle waiting past now (hu ▸ begun) (hu ▸ next)
  -- else the next tick is the same, or there is none
  have waits (quiet : s.handles u = false)
      (next : ∀ n, after.next? = some n → s.schedule.next? = some n) :
      Paced p start (ticks ++ if s.handles u then [s.now] else []) u := by
    refine Paced.quiet (h.wait (Nat.le_of_eq now.symm) (fun starting => ?_) (hu ▸ next)) quiet
    exact absurd (hu ▸ starting) begun
  cases shift with
  | begun starting =>
    exact (h.begin starting now hu).quiet (handles_of_not_waiting (by rw [starting]; nofun))
  | stopped waiting => exact waits (by simp [State.handles, waiting, hu]) nofun
  | queued waiting past =>
    exact handling waiting past nofun nofun fun n hn => (Option.some.inj hn).symm
  | @taken due _ waiting past handles =>
    have later : due < s.nextTick p due :=
      Nat.lt_of_lt_of_le (Nat.lt_add_of_pos_right interval) (s.nextTick_bounds past).1
    obtain ⟨on, going⟩ := handles.apart later
    exact handling waiting past on going fun n hn => handles.next? hn
  | served queued handles =>
    refine waits (handles_of_not_waiting (by rw [queued]; nofun)) fun n hn => ?_
    rw [handles.next? hn, queued]
    rfl
  | landed fetching =>
    refine waits (handles_of_not_waiting (by rw [fetching]; nofun)) fun n hn => ?_
    rw [FetchEnd.next?_scheduleAfter _ hn, fetching]
    rfl
  | same => exact waits (handles_of_schedule_eq hu) fun _ hn => hn

/-- **No step makes the schedule lose its pace.** -/
theorem paced_step (sound : s.core.Sound p) (line : s.InLine)
    (interval : 0 < p.options.interval.nanos) (h : Paced p start ticks s)
    (hs : step p s a = some u) :
    Paced p start (ticks ++ if s.handles u then [s.now] else []) u := by
  rcases shift_step line hs with ⟨stops, answer, rfl, shift, -, -⟩ | ⟨-, spares⟩
  · exact h.shift interval shift (now_step_run sound hs)
  · refine (h.wait (le_now_step sound hs) ?_ ?_).quiet (handles_of_schedule_eq spares.schedule)
    · rw [spares.schedule]
      exact id
    · rw [spares.schedule]
      exact fun _ => id

theorem Reaches.paced (run : Reaches p (.load p now events keys) as s)
    (interval : 0 < p.options.interval.nanos) :
    Paced p now (handled p (.load p now events keys) as) s := by
  induction run with
  | refl => exact paced_load now events keys
  | tail before last ih =>
    rw [handled_snoc before last]
    exact paced_step before.sound before.poised.line interval ih last

/-! ### Life -/

namespace State

theorem fetches_of_broken {next : Instant} (idle : s.core.Idle)
    (broken : (s.handle p next answer).schedule = .broken) :
    (s.handle p next answer).fetches = s.fetches + 1 := by
  cases allowed : s.limited p with
  | false => exact fetches_handle idle.refreshers allowed next
  | true => simp [handle, allowed] at broken

theorem fetches_of_broken_tick {due : Instant} (sound : s.core.Sound p)
    (waiting : s.schedule = .waiting due) (broken : (s.tick p due answer).schedule = .broken) :
    (s.tick p due answer).fetches = s.fetches + 1 := by
  unfold tick at broken ⊢
  dsimp only at broken ⊢
  generalize hs' : ({ s with schedule := .queued (s.nextTick p due) } : State).ask .schedule = s'
    at broken ⊢
  have core := hs' ▸ core_ask { s with schedule := .queued (s.nextTick p due) } .schedule
  have queued : s'.schedule = .queued (s.nextTick p due) := congrArg Core.schedule core
  split at broken
  · rename_i holds
    have off : s.core.schedule.started? = none := by simp [State.core, waiting, Schedule.started?]
    have sound' := (sound.reschedule off (.queued (s.nextTick p due)) rfl).sound
    have asked :=
      quiet_ask (s := { s with schedule := .queued (s.nextTick p due) }) sound' .schedule
    rw [hs'] at asked
    have idle := asked.sound.idle (by simp [State.core, holds])
      fun _ => by simp [State.core, queued, Schedule.started?]
    rw [if_pos holds, fetches_of_broken idle broken]
    exact congrArg (· + 1) (congrArg Core.fetches core)
  · rw [queued] at broken
    cases broken

/-- The schedule breaks down only while it fetches, or with a fetch that it has just started. -/
theorem breaks_runSchedule (sound : s.core.Sound p) (before : s.schedule ≠ .broken)
    (broken : (s.runSchedule p stops answer).schedule = .broken) :
    s.Flies .schedule ∨ (s.runSchedule p stops answer).fetches = s.fetches + 1 := by
  cases schedule : s.schedule with
  | starting => simp [runSchedule, schedule] at broken
  | waiting due =>
    simp only [runSchedule, schedule] at broken ⊢
    split at broken
    · rw [schedule_endSchedule] at broken
      cases broken
    · rename_i going
      rw [if_neg going]
      split at broken
      · rename_i past
        rw [if_pos past]
        exact .inr (fetches_of_broken_tick sound schedule broken)
      · exact absurd broken before
  | queued next =>
    simp only [runSchedule, schedule] at broken ⊢
    split at broken
    · rename_i holds
      have idle := sound.idle (by simp [core, holds])
        fun _ => by simp [core, schedule, Schedule.started?]
      rw [if_pos holds]
      exact .inr (fetches_of_broken idle broken)
    · exact absurd broken before
  | fetching next started =>
    exact .inl ⟨started, mem_flights_schedule.2 ⟨next, schedule⟩⟩
  | off | ended => simp [runSchedule, schedule] at broken
  | broken => exact absurd schedule before

end State

theorem FetchEnd.eq_crashed {next : Instant} {how : FetchEnd}
    (broken : how.scheduleAfter next = .broken) : how = .crashed := by
  cases how with
  | keys | failed => cases broken
  | crashed => rfl

theorem Handles.eq_crashed {next : Instant} {how : FetchEnd} (h : Handles s next how .broken) :
    how = .crashed := by
  generalize hb : Schedule.broken = after at h
  cases h with
  | skipped | fetching => cases hb
  | landed => exact FetchEnd.eq_crashed hb.symm

theorem Shift.eq_crashed {how : FetchEnd} (h : Shift p s how .broken)
    (before : s.schedule ≠ .broken) : how = .crashed := by
  generalize hb : Schedule.broken = after at h
  cases h with
  | begun | stopped | queued => cases hb
  | taken _ _ handles | served _ handles => exact (hb ▸ handles).eq_crashed
  | landed => exact FetchEnd.eq_crashed hb.symm
  | same => exact absurd hb.symm before

/-- **The schedule breaks down only with a fetch of its own**, which is seen to break down. -/
theorem ended_of_broken (sound : s.core.Sound p) (line : s.InLine) (hs : step p s a = some u)
    (before : s.schedule ≠ .broken) (broken : u.schedule = .broken) :
    .ended .schedule s.now .crashed ∈ observe p s a u := by
  rcases shift_step line hs with ⟨stops, answer, rfl, shift, -, -⟩ | ⟨-, spares⟩
  · rw [broken] at shift
    have turn := turn_step_run sound hs
    rw [shift.eq_crashed before] at turn
    have breaks : s.Flies .schedule ∨ u.fetches = s.fetches + 1 := by
      obtain rfl := eq_runSchedule_of_step hs
      exact State.breaks_runSchedule (s := s.unwake .schedule) sound before broken
    -- a schedule that has broken down does not fetch
    have grounded (since : Instant) : (.schedule, since) ∉ u.core.flights := by
      rw [State.flights_core, State.mem_flights_schedule, broken]
      nofun
    generalize observe p s (.run .schedule stops answer) u = marks at turn ⊢
    cases turn with
    | calm calm =>
      rcases breaks with ⟨since, flying⟩ | more
      · rw [← State.flights_core, ← calm.flights] at flying
        exact absurd flying (grounded since)
      · have same : u.fetches = s.fetches := calm.fetches
        omega
    | start _ _ _ flying => exact absurd (flying ▸ List.mem_singleton_self _) (grounded _)
    | finish => exact List.mem_singleton_self _
    | startFinish => exact List.mem_cons_of_mem _ (List.mem_singleton_self _)
  · exact absurd (spares.schedule ▸ broken) before

/-- The schedule has not broken down, and has ended only if it shall stop. -/
def State.Alive (s : State) : Prop :=
  match s.schedule with
  | .off | .broken => False
  | .ended => s.cancelled = true
  | _ => True

theorem State.alive_of_next? {next : Instant} (h : s.schedule.next? = some next) : s.Alive := by
  unfold State.Alive
  cases schedule : s.schedule with
  | off | ended | broken => rw [schedule] at h; cases h
  | _ => trivial

theorem FetchEnd.next?_of_whole {next : Instant} (how : FetchEnd)
    (whole : how.scheduleAfter next ≠ .broken) : (how.scheduleAfter next).next? = some next := by
  cases how with
  | keys | failed => rfl
  | crashed => exact absurd rfl whole

theorem Handles.next?_of_whole {next : Instant} {how : FetchEnd} {after : Schedule}
    (h : Handles s next how after) (whole : after ≠ .broken) : after.next? = some next := by
  cases h with
  | skipped | fetching => rfl
  | landed => exact how.next?_of_whole whole

/-- **The schedule lives on**, unless it shall stop or a fetch of its own breaks down. -/
theorem alive_step (sound : s.core.Sound p) (line : s.InLine) (h : s.Alive)
    (hs : step p s a = some u) (sane : .ended .schedule s.now .crashed ∉ observe p s a u) :
    u.Alive := by
  have whole : s.schedule ≠ .broken := by
    intro broken
    simp [State.Alive, broken] at h
  have whole' : u.schedule ≠ .broken :=
    fun broken => sane (ended_of_broken sound line hs whole broken)
  -- where the schedule does not move, it goes on living as before
  have still (same : u.schedule = s.schedule) : u.Alive := by
    unfold State.Alive at h ⊢
    rw [same]
    cases schedule : s.schedule with
    | ended => rw [schedule] at h; exact cancelled_step hs h
    | off | broken => rw [schedule] at h; exact h
    | _ => trivial
  rcases shift_step line hs with ⟨stops, answer, rfl, shift, -, -⟩ | ⟨-, spares⟩
  · generalize hu : u.schedule = after at shift whole'
    cases shift with
    | begun | queued => exact State.alive_of_next? (congrArg Schedule.next? hu)
    | stopped _ cancelled =>
      unfold State.Alive
      rw [hu]
      exact cancelled_step hs cancelled
    | taken _ _ handles | served _ handles =>
      exact State.alive_of_next? (hu ▸ handles.next?_of_whole whole')
    | landed => exact State.alive_of_next? (hu ▸ FetchEnd.next?_of_whole _ whole')
    | same => exact still hu
  · exact still spares.schedule

theorem Reaches.alive (run : Reaches p (.load p now events keys) as s)
    (scheduled : p.scheduled = true)
    (sane : ∀ t, .ended .schedule t .crashed ∉ history p (.load p now events keys) as) :
    s.Alive := by
  induction run with
  | refl => simp [State.Alive, State.load, scheduled]
  | tail before last ih =>
    simp only [history_snoc before last, List.mem_append, not_or] at sane
    exact alive_step before.sound before.poised.line (ih fun t => (sane t).1) last (sane _).2

/-- The schedule shall not stop as long as nobody stops it and the cache has an owner. -/
theorem cancelled_of_kept (run : Reaches p (.load p now events keys) as s)
    (open_ : .close ∉ as) (kept : .drop ∉ as) : s.owned = true ∧ s.cancelled = false := by
  induction run with
  | refl => exact ⟨rfl, rfl⟩
  | @tail t u bs b before last ih =>
    simp only [List.mem_append, List.mem_singleton, not_or] at open_ kept
    obtain ⟨owned, going⟩ := ih open_.1 kept.1
    have owned' : u.owned = true := by
      have front : u.owned = (t.front.after b).owned := congrArg Front.owned (front_step last)
      rw [front]
      cases b with
      | drop => exact absurd rfl kept.2
      | _ => exact owned
    exact ⟨owned', (cancelled_step_of_owned last owned' (Ne.symm open_.2)).trans going⟩

/-! ### The schedule over whole runs -/

/-- **The schedule neither dies nor bursts.**  As long as it is not stopped and none of its fetches
breaks down, whatever else becomes of refreshes and however long they last, the schedule of a source
that can change is never over.  Whenever nobody is ready to run, it waits for the guard, or it
fetches, or it waits for one tick, which is due later than now and an interval ahead at most.  The
first tick is handled no sooner than an interval after the load, and each other one no sooner than
an interval after the one before, but for the tolerance. -/
theorem ticks_steady (run : Reaches p (.load p now events keys) as s) (polling : p.polling = true)
    (interval : 0 < p.options.interval.nanos)
    (sane : ∀ t, .ended .schedule t .crashed ∉ history p (.load p now events keys) as) :
    (.close ∉ as → .drop ∉ as → s.cancelled = false) ∧
    (s.cancelled = false → s.schedule.isOver = false ∧
      (s.Settled p → .schedule ∈ s.queue ∨ (∃ since, (.schedule, since) ∈ s.flights) ∨
        ∃ due, s.ticks = [due] ∧ s.now < due ∧ due ≤ s.now + p.options.interval.nanos)) ∧
    (∀ t, (handled p (.load p now events keys) as).head? = some t →
      now + p.options.interval.nanos ≤ t) ∧
    (handled p (.load p now events keys) as).IsChain fun t u =>
      t + p.options.interval.nanos ≤ u + tickTolerance := by
  have scheduled : p.scheduled = true := by
    simp [Policy.scheduled, polling, Duration.isZero, Nat.pos_iff_ne_zero.1 interval]
  have alive := run.alive scheduled sane
  have poised := run.poised
  have paced := run.paced interval
  refine ⟨fun open_ kept => (cancelled_of_kept run open_ kept).2, fun going => ⟨?_, ?_⟩,
    paced.opened, paced.apart⟩
  · unfold State.Alive at alive
    cases schedule : s.schedule with
    | off | broken => rw [schedule] at alive; cases alive
    | ended =>
      rw [schedule, going] at alive
      cases alive
    | _ => rfl
  · rintro ⟨idle, early⟩
    unfold State.Alive at alive
    cases schedule : s.schedule with
    | off | broken => rw [schedule] at alive; cases alive
    | ended =>
      rw [schedule, going] at alive
      cases alive
    | starting =>
      have ready := poised.begins schedule
      rw [idle] at ready
      cases ready
    | waiting due =>
      have ticks : s.ticks = [due] := by simp [State.ticks, schedule]
      have later : s.now < due := early due (List.mem_append_left _ (by simp [ticks]))
      exact .inr (.inr ⟨due, ticks, later, paced.ahead due (by rw [schedule]; rfl)⟩)
    | queued next => exact .inl (poised.mem_queue run.orderly idle schedule).1
    | fetching next started =>
      exact .inr (.inl ⟨started, State.mem_flights_schedule.2 ⟨next, schedule⟩⟩)

/-- A source that is asked every second, and may take two and a half. -/
def slowPolicy : Policy where
  source := "keys"
  polling := true
  options := ⟨⟨1000000000⟩, ⟨100000000⟩, ⟨2500000000⟩⟩

/-- The first tick fetches until the timeout, when the next one has been due for long; it is handled
at once, and skipped. -/
def lateRun : List Action :=
  [.run .schedule false none, .advance 1000000000, .wake .schedule, .run .schedule false none,
    .advance 3500000000, .wake .schedule, .run .schedule false none, .run .schedule false none]

theorem history_lateRun : history slowPolicy (.load slowPolicy 0 [] .empty) lateRun =
    [.started .schedule 1000000000,
      .ended .schedule 3500000000 (.failed slowPolicy.timedOut)] := rfl

/-- The schedule goes on with a tick a second after the late one. -/
theorem ticks_steady_lateRun :
    ∃ s, Reaches slowPolicy (.load slowPolicy 0 [] .empty) lateRun s ∧
      handled slowPolicy (.load slowPolicy 0 [] .empty) lateRun = [1000000000, 3500000000] ∧
      (∃ due, s.ticks = [due] ∧ 3500000000 < due ∧ due ≤ 4500000000) ∧
      1000000000 + 1000000000 ≤ 3500000000 + tickTolerance := by
  obtain ⟨s, run, settled, now, free, grounded⟩ : ∃ s,
      Reaches slowPolicy (.load slowPolicy 0 [] .empty) lateRun s ∧ s.Settled slowPolicy ∧
        s.now = 3500000000 ∧ s.queue = [] ∧ s.flights = [] :=
    ⟨_, reaches_iff_after?.2 rfl, by decide, rfl, rfl, rfl⟩
  have sane (t : Instant) : .ended .schedule t .crashed ∉
      history slowPolicy (.load slowPolicy 0 [] .empty) lateRun := by
    rw [history_lateRun]
    simp
  have told : handled slowPolicy (.load slowPolicy 0 [] .empty) lateRun =
      [1000000000, 3500000000] := rfl
  obtain ⟨open_, steady, -, apart⟩ := ticks_steady run rfl (by decide) sane
  refine ⟨s, run, told, ?_, ?_⟩
  · rcases (steady (open_ (by decide) (by decide))).2 settled with queued | flying | waiting
    · simp [free] at queued
    · simp [grounded] at flying
    · rwa [now] at waiting
  · rw [told, List.isChain_pair] at apart
    exact apart

end BearerAuth.KeyCache
