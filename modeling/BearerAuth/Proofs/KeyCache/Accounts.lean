import BearerAuth.Proofs.KeyCache.Guard
import BearerAuth.Proofs.KeyCache.KeysInUse
import BearerAuth.Proofs.KeyCache.Simulated

/-!
# The record of refreshes is in order

What the cache has on record of its refreshes is what was seen of them: every attempt is counted
once when it is completed, every failure is counted and reported once and in that order, and a fetch
that breaks down leaves no trace on record.

* `Core.see` is what a mark does to the record, and `Turn.seen` says that a turn does no more;
* `Core.Books` says that the record agrees with the marks;
* `Ledger.Before` orders records in time, and `before_step` says that no step goes back;
* `Creation.reports_eq_nil` : the creation of a cache reports nothing;
* `books_in_order` : the accounts over whole runs.

The proof: a turn does to the record what its marks do one after the other, so that the agreement
need only be shown for a single mark.  The number of fetches on the way is the difference between
those that have started and those that have ended.
-/

namespace BearerAuth.KeyCache

open BearerAuth.KeyCache.Core

variable {p : Policy} {s u : State} {as bs : List Action} {a : Action} {now : Instant}
  {events : List Event} {keys : KeySet} {c d : Core} {task : Task} {how : FetchEnd}
  {marks new : List Mark}

/-! ### What marks do to the record -/

/-- The failure of a refresh. -/
def Mark.failure? : Mark → Option Failure
  | .ended _ _ (.failed why) => some why
  | _ => none

/-- The core after a mark has been entered. -/
def Core.see (c : Core) : Mark → Core
  | .started _ _ => { c with fetches := c.fetches + 1 }
  | .ended _ _ how => c.enter how

theorem Turn.seen (h : Turn p task how c new d) : SameStore (new.foldl see c) d := by
  cases h with
  | calm calm => exact calm.toSameStore
  | start _ _ store => exact store
  | finish _ _ _ store => exact store
  | startFinish _ _ store => exact store

/-! ### The record agrees with the marks -/

/-- The record agrees with the marks. -/
structure Core.Books (c : Core) (marks : List Mark) : Prop where
  /-- Every attempt that was completed is counted. -/
  attempts : c.ledger.attempts = (marks.filterMap Mark.completed?).length
  /-- So is every failure. -/
  failures : c.ledger.failures = (marks.filterMap Mark.failure?).length
  /-- Every failure is reported, in order. -/
  reports : c.reports = marks.filterMap Mark.failure?

theorem Core.SameStore.books (h : SameStore c d) (books : c.Books marks) : d.Books marks where
  attempts := h.ledger ▸ books.attempts
  failures := h.ledger ▸ books.failures
  reports := h.reports.trans books.reports

/-- What is entered for a mark keeps the agreement. -/
theorem Core.Books.see (books : c.Books marks) (m : Mark) : (c.see m).Books (marks ++ [m]) := by
  obtain ⟨attempts, failures, reports⟩ := books
  cases m with
  | started task time =>
    constructor <;> simpa [Core.see, List.filterMap_cons, Mark.completed?, Mark.failure?]
  | ended task time how =>
    cases how <;> constructor <;>
      simpa [Core.see, Core.enter, Ledger.succeed, Ledger.fail, List.filterMap_cons,
        Mark.completed?, Mark.failure?]

theorem Core.Books.foldl_see (books : c.Books marks) (new : List Mark) :
    (new.foldl Core.see c).Books (marks ++ new) := by
  induction new generalizing c marks with
  | nil => simpa using books
  | cons m new ih => simpa using ih (books.see m)

/-- **The record agrees with what was seen.** -/
theorem books_history (run : Reaches p (.load p now events keys) as s) :
    s.core.Books (history p (.load p now events keys) as) := by
  refine (run.chronicle (P := fun marks c => c.Books marks) ⟨rfl, rfl, rfl⟩ ?_ ?_).2
  · intro marks c time _ books
    exact ⟨books.attempts, books.failures, books.reports⟩
  · intro marks new c d task how _ turned books
    exact turned.seen.books (books.foldl_see new)

/-! ### Fetches on the way -/

/-- Of the fetches on the way before a turn and those that start in it, the ones that do not end in
it are on the way after it. -/
theorem Turn.flights_length (h : Turn p task how c new d) :
    c.flights.length + new.countP Mark.isStart =
      d.flights.length + new.countP (!·.isStart) := by
  cases h with
  | calm calm => simp [calm.flights]
  | start nobody _ _ flying => simp [nobody, flying, Mark.isStart]
  | finish flying _ _ _ landed => simp [flying, landed, Mark.isStart]
  | startFinish nobody _ _ landed => rw [nobody, landed]; rfl

theorem flights_load (p : Policy) (now : Instant) (events : List Event) (keys : KeySet) :
    (State.load p now events keys).core.flights = [] := by
  cases scheduled : p.scheduled <;> simp [Core.flights, State.core, State.load, scheduled,
    Schedule.started?]

theorem countP_isStart_eq (run : Reaches p (.load p now events keys) as s) :
    (history p (.load p now events keys) as).countP Mark.isStart =
      s.flights.length + (history p (.load p now events keys) as).countP (!·.isStart) := by
  rw [← State.flights_core]
  refine (run.chronicle (P := fun marks c =>
    marks.countP Mark.isStart = c.flights.length + marks.countP (!·.isStart)) ?_ ?_ ?_).2
  · rw [flights_load]
    rfl
  · exact fun _ _ balance => balance
  · intro marks new c d task how _ turned balance
    have flights := turned.flights_length
    rw [List.countP_append, List.countP_append]
    omega

/-! ### Kinds of ends -/

theorem countP_ended (marks : List Mark) : marks.countP (!·.isStart) =
    (marks.filterMap Mark.completed?).length + marks.countP Mark.isCrash := by
  induction marks with
  | nil => rfl
  | cons m marks ih =>
    rw [List.countP_cons, List.countP_cons, List.filterMap_cons, ih]
    rcases m with _ | ⟨_, _, _ | _ | _⟩ <;>
      simp [Mark.isStart, Mark.completed?, Mark.isCrash] <;> omega

theorem length_completed (marks : List Mark) : (marks.filterMap Mark.completed?).length =
    (marks.filterMap Mark.failure?).length + (marks.filterMap Mark.published?).length := by
  induction marks with
  | nil => rfl
  | cons m marks ih =>
    rcases m with _ | ⟨_, _, _ | _ | _⟩ <;>
      simp [List.filterMap_cons, Mark.failure?, Mark.completed?, Mark.published?, ih] <;> omega

/-! ### Records in time -/

/-- A record is no later than another. -/
structure Ledger.Before (l l' : Ledger) : Prop where
  /-- No attempt is forgotten. -/
  attempts : l.attempts ≤ l'.attempts
  /-- No failure is forgotten. -/
  failures : l.failures ≤ l'.failures
  /-- Keys were last replaced no later. -/
  lastSuccess : l.lastSuccess ≤ l'.lastSuccess
  /-- The last attempt was completed no later. -/
  lastAttempt : ∀ t, l.lastAttempt = some t → ∃ t', l'.lastAttempt = some t' ∧ t ≤ t'

theorem Ledger.Before.refl (l : Ledger) : l.Before l :=
  ⟨Nat.le_refl _, Nat.le_refl _, Nat.le_refl _, fun t ht => ⟨t, ht, Nat.le_refl _⟩⟩

theorem Ledger.Before.trans {l l' l'' : Ledger} (h : l.Before l') (h' : l'.Before l'') :
    l.Before l'' where
  attempts := Nat.le_trans h.attempts h'.attempts
  failures := Nat.le_trans h.failures h'.failures
  lastSuccess := Nat.le_trans h.lastSuccess h'.lastSuccess
  lastAttempt := fun t ht => by
    obtain ⟨t', ht', le⟩ := h.lastAttempt t ht
    obtain ⟨t'', ht'', le'⟩ := h'.lastAttempt t' ht'
    exact ⟨t'', ht'', Nat.le_trans le le'⟩

/-- What is on record is past, and since the first attempt keys are brought by attempts only. -/
structure Core.Dated (c : Core) : Prop where
  /-- Keys were last replaced by now. -/
  success : c.ledger.lastSuccess ≤ c.now
  /-- The last attempt was completed by now, and not before keys were last replaced. -/
  attempt : ∀ t, c.ledger.lastAttempt = some t → c.ledger.lastSuccess ≤ t ∧ t ≤ c.now

theorem Core.SameStore.dated (h : SameStore c d) (dated : c.Dated) : d.Dated where
  success := by rw [h.ledger, h.now]; exact dated.success
  attempt := by rw [h.ledger, h.now]; exact dated.attempt

/-- What is entered for a mark is dated now, and makes the record no earlier. -/
theorem Core.Dated.see (dated : c.Dated) (m : Mark) :
    (c.see m).Dated ∧ c.ledger.Before (c.see m).ledger := by
  have past (t : Instant) (ht : c.ledger.lastAttempt = some t) :
      ∃ t', some c.now = some t' ∧ t ≤ t' := ⟨c.now, rfl, (dated.attempt t ht).2⟩
  cases m with
  | started => exact ⟨⟨dated.success, dated.attempt⟩, .refl _⟩
  | ended task time how =>
    cases how with
    | keys keys =>
      refine ⟨⟨Nat.le_refl _, ?_⟩, Nat.le_succ _, Nat.le_refl _, dated.success, past⟩
      rintro t ⟨⟩
      exact ⟨Nat.le_refl _, Nat.le_refl _⟩
    | failed why =>
      refine ⟨⟨dated.success, ?_⟩, Nat.le_succ _, Nat.le_succ _, Nat.le_refl _, past⟩
      rintro t ⟨⟩
      exact ⟨dated.success, Nat.le_refl _⟩
    | crashed => exact ⟨dated, .refl _⟩

theorem Core.Dated.foldl_see (dated : c.Dated) (new : List Mark) :
    (new.foldl Core.see c).Dated ∧ c.ledger.Before (new.foldl Core.see c).ledger := by
  induction new generalizing c with
  | nil => exact ⟨dated, .refl _⟩
  | cons m new ih =>
    obtain ⟨dated', before⟩ := dated.see m
    obtain ⟨dated'', before'⟩ := ih dated'
    exact ⟨dated'', before.trans before'⟩

theorem Reaches.dated (run : Reaches p (.load p now events keys) as s) : s.core.Dated := by
  refine (run.chronicle (P := fun _ c => c.Dated) ⟨Nat.le_refl _, nofun⟩ ?_ ?_).2
  · intro _ c time later dated
    refine ⟨Nat.le_trans dated.success later, fun t ht => ?_⟩
    obtain ⟨after, past⟩ := dated.attempt t ht
    exact ⟨after, Nat.le_trans past later⟩
  · intro _ new c d _ _ _ turned dated
    exact turned.seen.dated (dated.foldl_see new).1

theorem before_step (sound : s.core.Sound p) (dated : s.core.Dated) (hs : step p s a = some u) :
    s.ledger.Before u.ledger := by
  obtain ⟨-, ⟨time, -, -, -, rfl⟩ | ⟨task, how, turned⟩⟩ := turn_step sound hs
  · exact .refl _
  · have ledger : u.ledger = _ := turned.seen.ledger
    rw [ledger]
    exact (dated.foldl_see _).2

theorem before_of_reaches (run : Reaches p (.load p now events keys) as s)
    (further : Reaches p s bs u) : s.ledger.Before u.ledger := by
  induction further with
  | refl => exact .refl _
  | tail before last ih =>
    have reached := run.trans before
    exact ih.trans (before_step reached.sound reached.dated last)

/-! ### Creation -/

theorem Simulation.runs_of_idle {m : Simulation} (idle : m.state.woken = [])
    (caller : Option Task) (bound : Nat) : runs caller bound m = m := by
  cases bound with
  | zero => rfl
  | succ bound => simp [runs, next?, idle]

theorem Simulation.runs_load (source : Behaviour) (noted : List Event) (bound : Nat) :
    ∃ schedule woken,
      runs none bound { policy := p, source, state := (State.load p now events keys).note noted } =
        { policy := p
          source
          state := { (State.load p now events keys).note noted with schedule, woken } } := by
  cases bound with
  | zero => exact ⟨_, _, rfl⟩
  | succ bound =>
    cases scheduled : p.scheduled with
    | false =>
      rw [runs_of_idle (by simp [State.load, State.note, scheduled])]
      exact ⟨_, _, rfl⟩
    | true =>
      have later : ¬ now + p.options.interval.nanos ≤ now := by
        have positive : p.options.interval.nanos ≠ 0 := by
          simp only [Policy.scheduled, Duration.isZero, Bool.and_eq_true, Bool.not_eq_true',
            beq_eq_false_iff_ne] at scheduled
          exact scheduled.2
        unfold Instant at *
        omega
      have first : next? { policy := p, source, state := (State.load p now events keys).note noted }
          none = some .schedule := by simp [next?, State.load, State.note, scheduled]
      have ran answer : step p ((State.load p now events keys).note noted)
          (.run .schedule true answer) =
          some { (State.load p now events keys).note noted with
            schedule := .waiting (now + p.options.interval.nanos), woken := [] } := by
        simp [step, State.run, State.runSchedule, State.rest, State.load, State.note, scheduled,
          later]
      simp only [runs, first, runTask, act, ran]
      rw [runs_of_idle rfl]
      exact ⟨_, _, rfl⟩

/-- So a cache begins with the keys that were loaded, and nothing else has happened. -/
theorem Simulation.settle_load (p : Policy) (now : Instant) (events : List Event) (keys : KeySet)
    (source : Behaviour) (noted : List Event) :
    ∃ schedule woken,
      settle { policy := p, source, state := (State.load p now events keys).note noted } none =
        { policy := p
          source
          state := { (State.load p now events keys).note noted with schedule, woken } } :=
  runs_load source noted _

/-- **The creation of a cache reports nothing**, whatever comes of it. -/
theorem Creation.reports_eq_nil (c : Creation) : c.reports = [] := by
  unfold reports simulation?
  split
  · rename_i keys _
    obtain ⟨schedule, woken, settled⟩ :=
      Simulation.settle_load c.policy c.completed c.answer.events keys c.source []
    simp only [State.note, List.append_nil] at settled
    exact congrArg (fun m : Simulation => m.state.reports) settled
  · rfl

/-! ### The accounts -/

/-- The source has counted the first load, the attempts, the fetches that broke down and the one
that is on the way. -/
theorem fetches_eq (run : Reaches p (.load p now events keys) as s) :
    s.fetches = 1 + s.ledger.attempts +
      (history p (.load p now events keys) as).countP Mark.isCrash + s.flights.length := by
  have attempts : s.ledger.attempts = _ := (books_history run).attempts
  rw [countP_isStart_history run, countP_isStart_eq run, countP_ended, attempts]
  omega

theorem lastAttempt_eq_none_iff (run : Reaches p (.load p now events keys) as s) :
    s.ledger.lastAttempt = none ↔ s.ledger.attempts = 0 := by
  have attempts : s.ledger.attempts = _ := (books_history run).attempts
  rw [← lastCompleted?_history run, attempts, lastCompleted?, List.getLast?_eq_none_iff,
    List.length_eq_zero_iff]

/-- **The record of refreshes is in order over whole runs.**  While the guard is free, every fetch
that has started, save the first load, is an attempt on record or has broken down.  The failures on
record are those that were seen, and they were reported, each once and in order; the other attempts
have replaced the keys.  The last attempt on record is the one that was completed last, and keys
were replaced no later.  No further run takes the record back, and the creation of a cache reports
nothing. -/
theorem books_in_order (run : Reaches p (.load p now events keys) as s) :
    (s.holder = none → s.fetches =
      1 + s.ledger.attempts + (history p (.load p now events keys) as).countP Mark.isCrash) ∧
    (s.reports = (history p (.load p now events keys) as).filterMap Mark.failure? ∧
      s.ledger.failures = s.reports.length) ∧
    s.ledger.attempts = s.ledger.failures +
      ((history p (.load p now events keys) as).filterMap Mark.published?).length ∧
    (s.ledger.lastAttempt = none ↔ s.ledger.attempts = 0) ∧
    s.ledger.lastAttempt = lastCompleted? (history p (.load p now events keys) as) ∧
    (∀ t, s.ledger.lastAttempt = some t → s.ledger.lastSuccess ≤ t) ∧
    (∀ bs u, Reaches p s bs u → s.ledger.Before u.ledger) ∧
    ∀ source since, (Creation.ofSource p source since).reports = [] := by
  obtain ⟨attempts, failures, reports⟩ := books_history run
  change s.ledger.attempts = _ at attempts
  change s.ledger.failures = _ at failures
  change s.reports = _ at reports
  refine ⟨fun free => ?_, ⟨reports, ?_⟩, ?_, lastAttempt_eq_none_iff run,
    (lastCompleted?_history run).symm, fun t ht => (run.dated.attempt t ht).1,
    fun bs u further => before_of_reaches run further, fun source since =>
      Creation.reports_eq_nil _⟩
  · -- who fetches holds the guard
    have landed : s.flights = [] := by
      rw [← State.flights_core]
      rcases run.sound.flights_cases with none | ⟨task, since, -, holder, -⟩
      · exact none
      · cases free.symm.trans holder
    rw [fetches_eq run, landed]
    rfl
  · rw [failures, reports]
  · rw [attempts, failures, length_completed]

/-- A refresh breaks down, the next one fails, and the schedule's fetch brings keys. -/
def mixedRun : List Action :=
  [.run .schedule false none, .call "a", .run (.lookup 0) false none,
    .run (.refresh 0) false (some ⟨[], .crashed⟩), .run (.lookup 0) false none, .call "b",
    .run (.lookup 1) false none, .run (.refresh 1) false (some ⟨[], .failed (.keySource "down")⟩),
    .run (.lookup 1) false none, .advance 7, .wake .schedule,
    .run .schedule false (some ⟨[], .keys .empty⟩)]

/-- Four fetches have started: the first load, two attempts and the one that has broken down. -/
theorem books_in_order_mixedRun :
    ∃ s, Reaches samplePolicy (.load samplePolicy 0 [] .empty) mixedRun s ∧ s.holder = none ∧
      s.fetches = 1 + s.ledger.attempts + 1 ∧ s.reports = [.keySource "down"] ∧
      s.ledger.attempts = 1 + 1 ∧ s.ledger.lastAttempt = some 7 := by
  obtain ⟨s, run, free⟩ : ∃ s,
      Reaches samplePolicy (.load samplePolicy 0 [] .empty) mixedRun s ∧ s.holder = none :=
    ⟨_, reaches_iff_after?.2 rfl, rfl⟩
  have seen : history samplePolicy (.load samplePolicy 0 [] .empty) mixedRun =
      [.started (.refresh 0) 0, .ended (.refresh 0) 0 .crashed, .started (.refresh 1) 0,
        .ended (.refresh 1) 0 (.failed (.keySource "down")), .started .schedule 7,
        .ended .schedule 7 (.keys .empty)] := rfl
  obtain ⟨fetches, ⟨reports, failures⟩, attempts, -, last, -⟩ := books_in_order run
  rw [seen] at fetches reports attempts last
  rw [failures, reports] at attempts
  exact ⟨s, run, free, fetches free, reports, attempts, last⟩

end BearerAuth.KeyCache
