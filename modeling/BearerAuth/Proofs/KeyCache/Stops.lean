import BearerAuth.Proofs.KeyCache.Brakes
import BearerAuth.Proofs.KeyCache.Ticks
import BearerAuth.Proofs.KeyCache.Watches

/-!
# Nothing scheduled starts after the stop

The schedule looks at the flag only between two ticks, and where a tick is due as well it may take
the tick first.  What keeps it from fetching then is the rate limit: the tick was due behind a fetch
of somebody else, or behind its own, and the end of that fetch is the present when the tick is
handled.

* `Core.Hushed` : a fetch is on the way, or an attempt is completed now, so that no other starts;
* `State.Stopped` is the invariant after the stop: whenever a tick may still be handled, it is
  hushed;
* `Lands` says that a fetch on the way has run to its end;
* `stopped_for_good` : the stop over whole runs.

The proof: a fetch that ends leaves the present hushed, and time passes only when the schedule has
looked at the flag, or while a fetch is on the way.  A cache that is let go while somebody uses it
is stopped later, and until then its users wait for a fetch.
-/

namespace BearerAuth.KeyCache

open BearerAuth.KeyCache.Core

variable {p : Policy} {s u : State} {as bs : List Action} {a : Action} {task : Task}
  {now : Instant} {events : List Event} {keys : KeySet} {stops : Bool} {answer : Option Answer}

/-! ### When no fetch starts -/

/-- A fetch is on the way, or an attempt is completed now. -/
def Core.Hushed (c : Core) : Prop := c.flights ≠ [] ∨ c.ledger.lastAttempt = some c.now

theorem hushed_of_mem_flights {f : Task × Instant} (flying : f ∈ s.flights) : s.core.Hushed := by
  rw [← State.flights_core] at flying
  exact .inl (List.ne_nil_of_mem flying)

theorem Core.Hushed.not_started {c d : Core} {how : FetchEnd} {marks : List Mark} (h : c.Hushed)
    (limit : 0 < p.options.rateLimit.nanos) (turn : Turn p task how c marks d) (t : Task)
    (time : Instant) : .started t time ∉ marks := by
  have closed (nobody : c.flights = []) (allowed : c.Allows p c.now) : False := by
    have completed := h.resolve_left (absurd nobody)
    have late := allowed c.now completed
    unfold Instant at *
    omega
  cases turn with
  | calm => nofun
  | start nobody allowed => exact (closed nobody allowed).elim
  | finish => simp
  | startFinish nobody allowed => exact (closed nobody allowed).elim

/-- It stays hushed as long as no time passes, unless a fetch breaks down. -/
theorem Core.Hushed.turn {c d : Core} {how : FetchEnd} {marks : List Mark} (h : c.Hushed)
    (turn : Turn p task how c marks d) (sane : ∀ m ∈ marks, m.isCrash = false) : d.Hushed := by
  rcases h with flying | completed
  · cases turn with
    | calm calm => exact .inl (calm.flights ▸ flying)
    | start nobody | startFinish nobody => exact absurd nobody flying
    | finish fly allowed begun store landed =>
      -- the end of the fetch is the present
      have ended := List.mem_singleton_self (Mark.ended task c.now how)
      refine .inr (Turn.lastAttempt_eq_now (.finish fly allowed begun store landed)
        (.inr ⟨_, ended, c.now, ?_⟩))
      have sane := sane _ ended
      cases how with
      | keys | failed => rfl
      | crashed => cases sane
  · exact .inr (turn.lastAttempt_eq_now (.inl completed))

/-! ### After the stop -/

/-- The schedule shall stop, or shall do so as soon as nobody uses the cache any more; and whenever
it may still handle a tick, it is hushed. -/
structure State.Stopped (s : State) : Prop where
  /-- Somebody has stopped it, or let go of the cache. -/
  told : s.cancelled = true ∨ s.owned = false
  /-- It has run. -/
  begun : s.schedule ≠ .starting
  /-- A tick that has come due is hushed. -/
  waiting : ∀ due, s.schedule = .waiting due → due ≤ s.now → s.core.Hushed
  /-- So is a tick in hand. -/
  queued : ∀ next, s.schedule = .queued next → s.core.Hushed

/-- The stop holds while no time passes and the schedule does not run. -/
theorem State.Stopped.still (h : s.Stopped) (hushed : s.core.Hushed → u.core.Hushed)
    (now : u.now = s.now) (schedule : u.schedule = s.schedule)
    (told : u.cancelled = true ∨ u.owned = false) : u.Stopped where
  told := told
  begun := schedule ▸ h.begun
  waiting := fun due waiting past => hushed (h.waiting due (schedule ▸ waiting) (now ▸ past))
  queued := fun next queued => hushed (h.queued next (schedule ▸ queued))

theorem State.Stopped.advance (h : s.Stopped) (run : Reaches p (.load p now events keys) as s)
    (idle : s.woken = []) (time : Instant) : ({ s with now := time } : State).Stopped where
  told := h.told
  begun := h.begun
  waiting := by
    rintro due (waiting : s.schedule = .waiting due) -
    have going : s.cancelled = false := by
      by_contra up
      have ready := run.poised.alert (by simpa using up) due waiting
      rw [idle] at ready
      cases ready
    obtain ⟨f, hf⟩ := exists_flight_of_left run idle (h.told.resolve_left (by simp [going])) going
    exact hushed_of_mem_flights (s := { s with now := time }) hf
  queued := by
    rintro next (queued : s.schedule = .queued next)
    obtain ⟨-, f, hf⟩ := run.poised.mem_queue run.orderly idle queued
    exact hushed_of_mem_flights (s := { s with now := time }) hf

/-- **The stop holds after every step**, unless a fetch breaks down in it. -/
theorem stopped_step (run : Reaches p (.load p now events keys) as s) (h : s.Stopped)
    (hs : step p s a = some u) (sane : ∀ m ∈ observe p s a u, m.isCrash = false) : u.Stopped := by
  have told : u.cancelled = true ∨ u.owned = false := by
    refine h.told.imp (cancelled_step hs) fun left => ?_
    have kept : u.owned = true → s.owned = true := fun owned => (owned_step hs owned).1
    cases owned : u.owned with
    | false => rfl
    | true => rw [kept owned] at left; cases left
  obtain ⟨-, ⟨time, rfl, -, idle, rfl⟩ | ⟨task, how, turned⟩⟩ := turn_step run.sound hs
  · exact h.advance run idle time
  have now : u.now = s.now := turned.now_eq
  have hushed (before : s.core.Hushed) : u.core.Hushed := before.turn turned sane
  rcases shift_step run.poised.line hs with ⟨stops, answer, rfl, shift, -, -⟩ | ⟨-, spares⟩
  · have begun := shift.ne_starting
    -- wherever the schedule moves to, it has been hushed before
    have moved (before : s.core.Hushed) : u.Stopped :=
      ⟨told, begun, fun _ _ _ => hushed before, fun _ _ => hushed before⟩
    generalize hu : u.schedule = after at shift
    cases shift with
    | begun starting => exact absurd starting h.begun
    | stopped => exact ⟨told, begun, by rw [hu]; nofun, by rw [hu]; nofun⟩
    | queued waiting past => exact moved (h.waiting _ waiting past)
    | taken waiting past => exact moved (h.waiting _ waiting past)
    | served queued => exact moved (h.queued _ queued)
    | landed fetching =>
      exact moved (hushed_of_mem_flights (State.mem_flights_schedule.2 ⟨_, fetching⟩))
    | same => exact h.still hushed now hu told
  · exact h.still hushed now spares.schedule told

theorem State.calm_runSchedule (sound : s.core.Sound p) (begun : s.schedule ≠ .starting)
    (early : ∀ due, s.schedule = .waiting due → s.now < due) (free : s.schedule.isBusy = false) :
    Calm s.core (s.runSchedule p stops answer).core := by
  cases schedule : s.schedule with
  | starting => exact absurd schedule begun
  | queued | fetching => rw [schedule] at free; cases free
  | waiting due =>
    have off : s.core.schedule.started? = none := by simp [core, schedule, Schedule.started?]
    simp only [runSchedule, schedule]
    split
    · rw [core_endSchedule, core_note]
      exact (sound.reschedule off .ended rfl).toCalm
    · rw [if_neg (Nat.not_le_of_lt (early due schedule))]
      exact .refl _
  | off | ended | broken =>
    simp only [runSchedule, schedule]
    exact .refl _

/-- **No scheduled fetch starts after the stop.** -/
theorem State.Stopped.not_started (h : s.Stopped) (sound : s.core.Sound p)
    (limit : 0 < p.options.rateLimit.nanos) (hs : step p s a = some u) (t : Instant) :
    .started .schedule t ∉ observe p s a u := by
  intro started
  obtain ⟨-, ⟨time, rfl, -, -, rfl⟩ | ⟨task, how, turned⟩⟩ := turn_step sound hs
  · cases started
  by_cases hushed : s.core.Hushed
  · exact hushed.not_started limit turned .schedule t started
  have free : s.schedule.isBusy = false := by
    cases schedule : s.schedule with
    | queued next => exact absurd (h.queued next schedule) hushed
    | fetching next since =>
      have flying := State.mem_flights_schedule.2 ⟨next, schedule⟩
      exact absurd (hushed_of_mem_flights flying) hushed
    | _ => rfl
  have early due (waiting : s.schedule = .waiting due) : s.now < due :=
    Nat.lt_of_not_le fun past => hushed (h.waiting due waiting past)
  -- only the schedule itself starts a scheduled fetch
  cases a with
  | run task stops answer =>
    have own : task = .schedule := by
      simp only [observe, List.mem_append, List.mem_replicate] at started
      rcases started with ⟨-, same⟩ | ⟨-, same⟩ <;> cases same
      rfl
    subst own
    obtain rfl := eq_runSchedule_of_step hs
    have calm : Calm s.core ((s.unwake .schedule).runSchedule p stops answer).core :=
      State.calm_runSchedule (s := s.unwake .schedule) sound h.begun early free
    rw [observe_of_calm calm] at started
    cases started
  | _ => cases started

theorem stays_stop (stop : a = .close ∨ a = .drop) (hs : step p s a = some u) :
    Stays s u ∧ u.core = s.core := by
  rcases stop with rfl | rfl
  · obtain ⟨-, rfl⟩ := eq_close_of_step hs
    exact ⟨s.stays_close, s.core_close⟩
  · obtain ⟨-, rfl⟩ := eq_drop_of_step hs
    exact ⟨s.stays_drop, State.core_giveUp _⟩

theorem stopped_of_settled (run : Reaches p (.load p now events keys) as s) (settled : s.Settled p)
    (stop : a = .close ∨ a = .drop) (hs : step p s a = some u) : u.Stopped := by
  obtain ⟨idle, early⟩ := settled
  obtain ⟨stays, core⟩ := stays_stop stop hs
  have told : u.cancelled = true ∨ u.owned = false := by
    rcases stop with rfl | rfl
    · obtain ⟨-, rfl⟩ := eq_close_of_step hs
      exact .inl s.cancelled_close
    · exact .inr (congrArg Front.owned (front_step hs))
  have now : u.now = s.now := congrArg Core.now core
  refine ⟨told, fun starting => ?_, fun due waiting past => ?_, fun next queued => ?_⟩
  · have ready := run.poised.begins (stays.schedule ▸ starting)
    rw [idle] at ready
    cases ready
  · rw [stays.schedule] at waiting
    have later := early due (List.mem_append_left _ (by simp [State.ticks, waiting]))
    exact absurd (now ▸ past) (Nat.not_le_of_lt later)
  · rw [stays.schedule] at queued
    obtain ⟨-, f, hf⟩ := run.poised.mem_queue run.orderly idle queued
    exact core ▸ hushed_of_mem_flights hf

/-- **After the stop no scheduled fetch starts**, as long as no fetch breaks down. -/
theorem not_started_of_stopped (run : Reaches p (.load p now events keys) as s) (h : s.Stopped)
    (limit : 0 < p.options.rateLimit.nanos) (further : Reaches p s bs u)
    (sane : ∀ m ∈ history p s bs, m.isCrash = false) :
    u.Stopped ∧ ∀ t, .started .schedule t ∉ history p s bs := by
  induction further with
  | refl => exact ⟨h, nofun⟩
  | tail before last ih =>
    rw [history_snoc before last] at sane ⊢
    have reached := run.trans before
    obtain ⟨stopped, none⟩ := ih fun m hm => sane m (List.mem_append_left _ hm)
    refine ⟨stopped_step reached stopped last fun m hm => sane m (List.mem_append_right _ hm),
      fun t started => ?_⟩
    rcases List.mem_append.1 started with earlier | now
    · exact none t earlier
    · exact stopped.not_started reached.sound limit last t now

/-! ### The fetch that is on the way -/

variable {started : Instant}

variable (p s) in
/-- A fetch that is on the way ends in a run from `s`, by its timeout at the latest, and its end is
entered like any other. -/
inductive Lands (task : Task) (started : Instant) : List Action → Prop where
  | intro {before after : List Action} {stops : Bool} {answer : Option Answer} {x y : State}
    (run : Reaches p s before x) (last : step p x (.run task stops answer) = some y)
    (flying : (task, started) ∈ x.flights)
    (bounded : x.now ≤ started + p.options.timeout.nanos)
    (seen : observe p x (.run task stops answer) y =
      [.ended task x.now (p.outcome answer)])
    (booked : SameStore (x.core.enter (p.outcome answer)) y.core) :
    Lands task started (before ++ .run task stops answer :: after)

theorem Lands.append (h : Lands p s task started as) (bs : List Action) :
    Lands p s task started (as ++ bs) := by
  obtain ⟨run, last, flying, bounded, seen, booked⟩ := h
  rw [List.append_assoc, List.cons_append]
  exact .intro run last flying bounded seen booked

/-- A fetch on the way stays there until its own task runs and ends it. -/
theorem landed_step (sound : s.core.Sound p) (flying : (task, started) ∈ s.flights)
    (hs : step p s a = some u) :
    (task, started) ∈ u.flights ∨
      ∃ stops answer, a = .run task stops answer ∧
        observe p s a u = [.ended task s.now (p.outcome answer)] ∧
        SameStore (s.core.enter (p.outcome answer)) u.core := by
  rw [← State.flights_core] at flying ⊢
  have on (same : u.core.flights = s.core.flights) : (task, started) ∈ u.core.flights :=
    same ▸ flying
  cases a with
  | run t stops answer =>
    have turn := turn_step_run sound hs
    generalize observe p s (.run t stops answer) u = marks at turn ⊢
    cases turn with
    | calm calm => exact .inl (on calm.flights)
    | start nobody | startFinish nobody =>
      rw [nobody] at flying
      cases flying
    | finish alone _ _ store =>
      rw [alone, List.mem_singleton] at flying
      cases flying
      exact .inr ⟨stops, answer, rfl, rfl, store⟩
  | _ =>
    obtain ⟨-, ⟨time, -, -, -, rfl⟩ | ⟨t, how, turn⟩⟩ := turn_step sound hs
    · exact .inl flying
    · refine .inl (on ?_)
      simp only [observe] at turn
      generalize hm : ([] : List Mark) = marks at turn
      cases turn with
      | calm calm => exact calm.flights
      | start | finish | startFinish => cases hm

theorem bounded_of_flying (sound : s.core.Sound p) (flying : (task, started) ∈ s.flights) :
    s.now ≤ started + p.options.timeout.nanos := by
  rw [← State.flights_core] at flying
  rcases sound.flights_cases with none | ⟨t, since, one, -, -, timely⟩
  · rw [none] at flying
    cases flying
  · rw [one, List.mem_singleton] at flying
    cases flying
    exact timely

/-- **A fetch on the way runs to its end.** -/
theorem Reaches.lands (run : Reaches p (.load p now events keys) as s)
    (flying : (task, started) ∈ s.flights) (further : Reaches p s bs u) :
    (task, started) ∈ u.flights ∨ Lands p s task started bs := by
  induction further with
  | refl => exact .inl flying
  | tail before last ih =>
    have sound := (run.trans before).sound
    rcases ih with still | landed
    · rcases landed_step sound still last with still | ⟨stops, answer, rfl, seen, booked⟩
      · exact .inl still
      · exact .inr (.intro before last still (bounded_of_flying sound still) seen booked)
    · exact .inr (landed.append _)

/-- The fetch of the schedule can end as soon as its source has answered, or its timeout has
come. -/
theorem lands_of_answer (run : Reaches p (.load p now events keys) as s)
    (flying : (.schedule, started) ∈ s.flights) (stops : Bool) (answer : Option Answer)
    (heard : answer = none → started + p.options.timeout.nanos ≤ s.now) :
    Lands p s .schedule started [.wake .schedule, .run .schedule stops answer] := by
  obtain ⟨next, fetching⟩ := State.mem_flights_schedule.1 flying
  have waits : s.waitsOutside .schedule = true := by
    rw [State.waitsOutside, Bool.or_eq_true, List.any_eq_true]
    exact .inl ⟨_, flying, beq_self_eq_true _⟩
  have woken : step p s (.wake .schedule) = some (s.wake .schedule) := if_pos waits
  have ready := State.mem_woken_wake s .schedule
  have ran := (Effect.run (p := p) .schedule stops answer ready .schedule).step_eq
  refine (run.lands flying (.tail (.tail (.refl s) woken) ran)).resolve_left fun still => ?_
  -- after its fetch the schedule waits for its next tick, or has broken down
  generalize hs' : (s.wake .schedule).unwake .schedule = s' at still
  have schedule : s'.schedule = .fetching next started := by
    subst hs'
    exact (State.stays_wake s .schedule).schedule.trans fetching
  have present : s'.now = s.now := by
    subst hs'
    exact congrArg Core.now (s.core_wake .schedule)
  obtain ⟨end_, found⟩ : ∃ end_, s'.fetchEnd? p started answer = some end_ := by
    cases answer with
    | some answer => exact ⟨answer, rfl⟩
    | none => exact ⟨_, if_pos (present ▸ heard rfl)⟩
  have after := (s'.schedule_endTick (p := p) next end_).1
  rw [State.runSchedule, schedule] at still
  simp only [State.runFetch, found] at still
  obtain ⟨n, still⟩ := State.mem_flights_schedule.1 still
  rw [after] at still
  cases outcome : end_.outcome <;> (rw [outcome] at still; cases still)

/-! ### The stop over whole runs -/

/-- **Nothing scheduled starts after the stop.**  Where attempts are limited, and somebody stops the
schedule or lets the cache go while nobody is ready to run, the stop itself moves nobody, and
leaves the keys, the record and the fetches alone.  In every run from then on in which no fetch
breaks down, no scheduled fetch starts.  A scheduled fetch that is on the way ends by its timeout at
the latest and is entered like any other, and until then it can end as soon as its source answers.
And as long as the cache has an owner, lookups do what they would do with any other schedule,
stopped or not. -/
theorem stopped_for_good (run : Reaches p (.load p now events keys) as s) (settled : s.Settled p)
    (stop : a = .close ∨ a = .drop) (hs : step p s a = some u)
    (limit : 0 < p.options.rateLimit.nanos) :
    (Stays s u ∧ u.core = s.core) ∧
    ∀ bs v, Reaches p u bs v →
      ((∀ m ∈ history p u bs, m.isCrash = false) →
        ∀ t, .started .schedule t ∉ history p u bs) ∧
      (∀ started, (.schedule, started) ∈ s.flights →
        Lands p u .schedule started bs ∨
          (.schedule, started) ∈ v.flights ∧ v.now ≤ started + p.options.timeout.nanos ∧
            ∀ stops answer, (answer = none → started + p.options.timeout.nanos ≤ v.now) →
              Lands p v .schedule started [.wake .schedule, .run .schedule stops answer]) ∧
      (v.owned = true → ∀ b ls, (∀ l ∈ ls, l.OfLookups) →
        after? p (v.withBrake b) ls = (after? p v ls).map (·.withBrake b)) := by
  have stays := stays_stop stop hs
  have stopped := stopped_of_settled run settled stop hs
  have run' := run.tail hs
  refine ⟨stays, fun bs v further => ⟨fun sane => ?_, fun started flying => ?_, ?_⟩⟩
  · exact (not_started_of_stopped run' stopped limit further sane).2
  · rw [← stays.1.flights] at flying
    refine (run'.lands flying further).symm.imp_right fun still => ?_
    have reached := run'.trans further
    exact ⟨still, bounded_of_flying reached.sound still, lands_of_answer reached still⟩
  · exact fun owned b ls => after?_withBrake b owned

/-- The first tick fetches for so long that two more come due. -/
def overdueRun : List Action :=
  [.run .schedule false none, .advance 1000000000, .wake .schedule, .run .schedule false none,
    .advance 3200000000]

/-- The fetch ends while a lookup waits for the guard, and the schedule takes up an overdue tick
before it stops. -/
def lastTicks : List Action :=
  [.call "a", .run (.lookup 1) false none, .wake .schedule,
    .run .schedule false (some ⟨[], .keys .empty⟩), .run .schedule false none,
    .run (.lookup 1) false none, .run .schedule false none, .run .schedule true none,
    .run (.closing 0) false none]

/-- The overdue ticks start no fetch, and the one on the way is entered. -/
theorem stopped_for_good_lastTicks :
    ∃ s u v, Reaches slowPolicy (.load slowPolicy 0 [] .empty) overdueRun s ∧
      s.Settled slowPolicy ∧ step slowPolicy s .close = some u ∧
      Reaches slowPolicy u lastTicks v ∧ u.core = s.core ∧
      (∀ t, .started .schedule t ∉ history slowPolicy u lastTicks) ∧
      Lands slowPolicy u .schedule 1000000000 lastTicks ∧ v.schedule = .ended := by
  obtain ⟨s, u, v, run, settled, hs, further, flying, landed, seen, ended⟩ : ∃ s u v,
      Reaches slowPolicy (.load slowPolicy 0 [] .empty) overdueRun s ∧ s.Settled slowPolicy ∧
        step slowPolicy s .close = some u ∧ Reaches slowPolicy u lastTicks v ∧
        (.schedule, 1000000000) ∈ s.flights ∧ v.flights = [] ∧
        history slowPolicy u lastTicks = [.ended .schedule 3200000000 (.keys .empty)] ∧
        v.schedule = .ended :=
    ⟨_, _, _, reaches_iff_after?.2 rfl, by decide, rfl, reaches_iff_after?.2 rfl,
      List.mem_singleton_self _, rfl, rfl, rfl⟩
  obtain ⟨⟨-, core⟩, after⟩ := stopped_for_good run settled (.inl rfl) hs (by decide)
  obtain ⟨none, lands, -⟩ := after lastTicks v further
  refine ⟨s, u, v, run, settled, hs, further, core, none ?_, ?_, ended⟩
  · rw [seen]
    simp [Mark.isCrash]
  · refine (lands _ flying).resolve_right ?_
    rintro ⟨still, -⟩
    rw [landed] at still
    cases still

end BearerAuth.KeyCache
