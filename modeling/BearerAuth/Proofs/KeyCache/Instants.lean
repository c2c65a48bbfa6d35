import BearerAuth.Proofs.KeyCache.Accounts
import BearerAuth.Proofs.KeyCache.Undisturbed

/-!
# What happens within an instant

A simulated cache lets its ready tasks run until none is left.  Here is what that makes of a cache
with a single lookup, from the moment in which a task of it becomes ready.

* `Simulation.Settles` says what is reached when no task is ready any more, and after how many
  tasks at most; `Settles.first`, `meanwhile` and `last` put one task in front;
* `settles_skipped` : the schedule passes over the ticks that have come due;
* `settles_landed` : what follows on the end of the lookup's fetch;
* `settles_begun`, `concludes_begun` and `concludes_flying` : the refresh runs for the first time,
  or when its fetch has ended;
* `settles_tick` : a tick that comes due during the fetch.

The proof: each task is a step of the state alone.  Only the schedule can run again and again, and
an induction on the number of ticks that have come due brings it to an end.
-/

namespace BearerAuth.KeyCache.Simulation

variable {m n : Simulation} {c : Option Task} {task : Task} {j k : Nat} {b s t u : State}
  {kid : String} {time next due : Instant} {schedule : Schedule} {queue : List Task}
  {r : Option Instant} {a : Answer}

/-! ### One instant -/

/-- After some number of tasks nothing can run. -/
def Settles (c : Option Task) (k : Nat) (m n : Simulation) : Prop :=
  ∀ bound, k ≤ bound → runs c bound m = n

namespace Settles

theorem of_idle (idle : m.state.woken = []) : Settles c 0 m m :=
  fun bound _ => runs_of_idle idle c bound

theorem mono (h : Settles c j m n) (le : j ≤ k) : Settles c k m n :=
  fun bound enough => h bound (Nat.le_trans le enough)

theorem settle (h : Settles c k m n) (few : k ≤ 8 * (tickTolerance + 4)) :
    m.settle c = n := h _ (by omega)

theorem cons (task : Task) (first : m.next? c = some task) (rest : Settles c k (m.runTask task) n) :
    Settles c (k + 1) m n := by
  intro bound enough
  obtain ⟨bound, rfl⟩ : ∃ fewer, bound = fewer + 1 := ⟨bound - 1, by omega⟩
  rw [runs, first]
  exact rest bound (by omega)

end Settles

/-- What becomes of a simulated cache when the first ready task runs. -/
theorem runTask_woken {w : List Task} (unlisted : task ∉ w)
    (ran : { s with woken := w }.run m.policy task true
      (answer? { m with state := { s with woken := task :: w }, ready := r } task) = u) :
    runTask { m with state := { s with woken := task :: w }, ready := r } task =
      { m with
        state := u
        ready :=
          if u.flights.isEmpty then none
          else if s.fetches < u.fetches then some (s.now + m.source.delay.nanos)
          else r } := by
  have left : w.filter (· != task) = w :=
    List.filter_eq_self.2 fun t ht => by simpa using ne_of_mem_of_not_mem ht unlisted
  simp [runTask, act, step, left, ran]

namespace Settles

/-- Somebody else than the caller runs first, after which nobody fetches. -/
theorem first {w : List Task} (other : c ≠ some task) (unlisted : task ∉ w)
    (ran : { s with woken := w }.run m.policy task true
      (answer? { m with state := { s with woken := task :: w }, ready := r } task) = u)
    (landed : u.flights = []) (rest : Settles c k { m with state := u, ready := none } n) :
    Settles c (k + 1) { m with state := { s with woken := task :: w }, ready := r } n := by
  refine .cons task (by simp [next?, other.symm]) ?_
  rw [runTask_woken unlisted ran]
  simpa [landed] using rest

/-- Somebody else than the caller runs first, while somebody fetches. -/
theorem meanwhile {w : List Task} (other : c ≠ some task) (unlisted : task ∉ w)
    (ran : { s with woken := w }.run m.policy task true
      (answer? { m with state := { s with woken := task :: w }, ready := r } task) = u)
    (flying : u.flights ≠ []) (same : u.fetches = s.fetches)
    (rest : Settles c k { m with state := u, ready := r } n) :
    Settles c (k + 1) { m with state := { s with woken := task :: w }, ready := r } n := by
  refine .cons task (by simp [next?, other.symm]) ?_
  rw [runTask_woken unlisted ran]
  simpa [flying, same] using rest

theorem last
    (ran : { s with woken := [] }.run m.policy task true
      (answer? { m with state := { s with woken := [task] }, ready := r } task) = u)
    (landed : u.flights = [])
    (rest : Settles (some task) k { m with state := u, ready := none } n) :
    Settles (some task) (k + 1) { m with state := { s with woken := [task] }, ready := r } n := by
  refine .cons task (by simp [next?]) ?_
  rw [runTask_woken List.not_mem_nil ran]
  simpa [landed] using rest

end Settles

/-! ### The end of the fetch -/

theorem settles_joined (rest : b.AtRest m.policy) {how : Ending}
    (same : t.lookups = b.inquiries kid (.joined how)) (owned : t.owned = true)
    (landed : t.flights = []) :
    Settles (some (.lookup b.nextId)) 1
      { m with state := { t with woken := [.lookup b.nextId] }, ready := r }
      { m with
        state :=
          { t with
            lookups := b.inquiries kid (t.conclusion ⟨b.nextId, kid, b.now, .joined how⟩)
            woken := []
            log := t.log ++ State.endingEvents kid how }
        ready := none } := by
  let asleep : State := { t with woken := [] }
  have mine : asleep.lookup? b.nextId = _ := State.lookup?_inquiries rest same
  refine .last ?_ ?_ (.of_idle ?_)
  · change asleep.run m.policy _ _ _ = _
    simp only [State.run, mine, Option.elim_some, State.runLookup]
    exact State.conclude_inquiries rest (t := asleep.note _) owned same rfl
  · exact landed
  · rfl

/-- Ticks that have come due are passed over, one after the other, until the next lies ahead.  At
the latest the tick after one that is beyond the tolerance does so. -/
theorem settles_skipped (limited : t.limited m.policy = true) (unasked : t.queue = [])
    (heedless : t.cancelled = false) (interval : 0 < m.policy.options.interval.nanos)
    (others : c ≠ some .schedule) (grounded : t.refreshers = [])
    (asleep : .schedule ∉ t.woken) (k : Nat)
    (few : t.now < next + k ∨ next + tickTolerance < t.now ∧ 0 < k) :
    ∃ due skips, t.now < due ∧ ∀ j n,
      Settles c j
        { m with
          state :=
            { t with
              holder := none
              schedule := .waiting due
              log := t.log ++ List.replicate skips .tickSkipped }
          ready := none } n →
      Settles c (k + j) { m with state := t.skipped next, ready := none } n := by
  induction k generalizing t next with
  | zero =>
    have ahead : t.now < next := by unfold Instant at *; omega
    refine ⟨next, 1, ahead, fun j n rest => ?_⟩
    simpa [State.skipped, Nat.not_le.2 ahead] using rest
  | succ k ih =>
    by_cases ahead : t.now < next
    · refine ⟨next, 1, ahead, fun j n rest => .mono ?_ (Nat.le_add_left j _)⟩
      simpa [State.skipped, Nat.not_le.2 ahead] using rest
    · -- the tick is handled at once, so that the one after it is the next to be looked at
      let later : State :=
        { t with holder := none, schedule := .waiting next, log := t.log ++ [.tickSkipped] }
      have overdue : t.skipped next = { later with woken := .schedule :: t.woken } := by
        simp [State.skipped, later, Nat.not_lt.1 ahead]
      have fewer : later.now < later.nextTick m.policy next + k ∨
          later.nextTick m.policy next + tickTolerance < later.now ∧ 0 < k := by
        simp only [State.nextTick, later]
        unfold Instant at *
        split <;> omega
      obtain ⟨due, skips, before, goes⟩ := ih (t := later) limited unasked heedless grounded asleep
        fewer
      refine ⟨due, skips + 1, before, fun j n rest => ?_⟩
      rw [overdue, Nat.add_right_comm]
      refine .first (s := later) others asleep ?_ ?_ (goes j n ?_)
      · exact (State.run_schedule_waiting (t := later) rfl (Nat.not_lt.1 ahead) heedless).trans
          (State.tick_eq_skipped limited rfl unasked heedless)
      · exact State.flights_of_grounded grounded rfl
      · simpa [later, List.replicate_succ] using rest

/-- Within some number of tasks the lookup is answered after a fetch that has ended at some time,
and the schedule is left with nothing to do. -/
def Concludes (m : Simulation) (b : State) (kid : String) (time : Instant) (a : Answer) (k : Nat) :
    Prop :=
  ∃ schedule skips, m.policy.Dozes b { b with now := time, schedule } ∧
    Settles (some (.lookup b.nextId)) k m
      { m with state := b.answered m.policy kid time a schedule skips, ready := none }

/-- **After the end of the fetch** only the schedule can be ready besides the lookup, and finds the
rate limit; then the lookup is answered by the keys in use. -/
theorem settles_landed (rest : b.AtRest m.policy) (limit : 0 < m.policy.options.rateLimit.nanos)
    (sound : a.outcome ≠ .crashed)
    (beside : State.Beside m.policy b (b.flying kid time schedule queue)) :
    Concludes
      { m with
        state :=
          { b.landed m.policy kid time a with
            lookups := b.inquiries kid (.joined a.outcome.ending)
            nextId := b.nextId + 1
            holder := queue.head?
            schedule
            woken := queue ++ [.lookup b.nextId] }
        ready := r } b kid time a (tickTolerance + 3) := by
  let joined : State :=
    { b.landed m.policy kid time a with
      lookups := b.inquiries kid (.joined a.outcome.ending)
      nextId := b.nextId + 1
      woken := [.lookup b.nextId] }
  have grounded : joined.refreshers = [] := rest.grounded
  have limited : joined.limited m.policy = true := State.limited_landed limit sound
  cases beside with
  | dozing unasked dozes =>
    cases (unasked : queue = [])
    have goes := settles_joined (r := r) (t := { joined with holder := none, schedule }) rest
      rfl rest.owned (State.flights_of_grounded grounded dozes.started?)
    exact ⟨schedule, 0, dozes, goes.mono (Nat.le_add_left 1 _)⟩
  | lined next line queued heedless interval =>
    cases (line : queue = [.schedule])
    cases (queued : schedule = .queued next)
    have few : joined.now < next + (tickTolerance + 1) ∨
        next + tickTolerance < joined.now ∧ 0 < tickTolerance + 1 := by
      unfold Instant at *
      omega
    obtain ⟨due, skips, ahead, skipping⟩ := settles_skipped (c := some (.lookup b.nextId)) limited
      rest.unasked heedless interval (by simp) grounded (by simp [joined]) _ few
    have goes := settles_joined (r := none)
      (t :=
        { joined with
          holder := none
          schedule := .waiting due
          log := joined.log ++ List.replicate skips .tickSkipped })
      rest rfl rest.owned (State.flights_of_grounded grounded rfl)
    rw [List.append_assoc] at goes
    refine ⟨.waiting due, skips, .inr ⟨heedless, interval, due, rfl, ahead⟩, ?_⟩
    refine .mono (.first (w := [.lookup b.nextId])
      (s := { joined with holder := some .schedule, schedule := .queued next }) (by simp) (by simp)
      ?_ ?_ (skipping _ _ goes)) (by omega)
    · exact (State.run_schedule_queued rfl rfl).trans
        (State.handle_eq_skipped limited rest.unasked heedless)
    · exact State.flights_of_grounded grounded rfl

/-! ### The fetch -/

/-- When the fetch of the lookup ends. -/
def arrival (m : Simulation) (b : State) : Instant := arrivalOf m.policy m.source b

theorem arrival_eq (m : Simulation) (b : State) : m.arrival b =
    min (b.now + m.source.delay.nanos) (b.now + m.policy.options.timeout.nanos) := by
  rw [arrival, arrivalOf, nanos_bounded]
  unfold Instant at *
  omega

theorem answer?_flying (flights : m.state.flights = [(task, time)])
    (ready : m.ready = some (time + m.source.delay.nanos)) :
    m.answer? task = m.source.heard time m.state.now := by
  simp [answer?, Behaviour.heard, flights, ready]

theorem answer?_grounded (apart : m.state.flights.any (·.1 == task) = false) :
    m.answer? task = m.source.heard m.state.now m.state.now := by
  have atOnce : m.state.now + m.source.delay.nanos ≤ m.state.now ↔ m.source.delay.nanos = 0 := by
    unfold Instant at *
    omega
  simp [answer?, Behaviour.heard, apart, Duration.isZero, atOnce]

/-- Where the source has not been asked yet, what the refresh hears decides. -/
theorem answer?_begun (rest : b.AtRest m.policy) :
    answer? { m with state := { b.begun kid with woken := [.refresh b.nextId] }, ready := r }
      (.refresh b.nextId) = m.source.heard b.now b.now := by
  have landed : (b.begun kid).flights.any (·.1 == .refresh b.nextId) = false := by
    rw [State.flights_begun rest kid]
    rfl
  exact answer?_grounded landed

theorem settles_begun (rest : b.AtRest m.policy) (early : b.now < m.arrival b)
    (others : c ≠ some (.refresh b.nextId)) :
    Settles c 1 { m with state := { b.begun kid with woken := [.refresh b.nextId] }, ready := r }
      { m with
        state := b.flying kid b.now b.schedule []
        ready := some (b.now + m.source.delay.nanos) } := by
  let flying := b.flying kid b.now b.schedule []
  have asleep : { b.begun kid with woken := [] } = b.begun kid := State.eq_of_idle rest.idle
  have waits : flying.fetchEnd? m.policy b.now (m.source.heard b.now b.now) = none :=
    fetchEnd?_heard_eq_none early
  have onTheWay : flying.flights = [(.refresh b.nextId, b.now)] :=
    State.flights_flying rest.dozes.started?
  have started : (b.begun kid).fetches < flying.fetches := Nat.lt_succ_self _
  refine .cons (.refresh b.nextId) (by simp [next?, others.symm]) ?_
  rw [runTask_woken (s := b.begun kid) (u := flying) List.not_mem_nil]
  · simp only [onTheWay, List.isEmpty_cons, Bool.false_eq_true, started, if_false, if_true]
    exact .of_idle rest.idle
  · rw [answer?_begun rest, asleep, State.run_begun rest, waits, Option.elim_none]

theorem concludes_begun (rest : b.AtRest m.policy) (limit : 0 < m.policy.options.rateLimit.nanos)
    (sound : (m.policy.bounded m.source).2.outcome ≠ .crashed) (atOnce : m.arrival b = b.now) :
    Concludes { m with state := { b.begun kid with woken := [.refresh b.nextId] }, ready := r }
      b kid (m.arrival b) (m.policy.bounded m.source).2 (tickTolerance + 4) := by
  have beside : State.Beside m.policy b (b.flying kid b.now b.schedule []) := .dozing rfl rest.dozes
  have asleep : { b.begun kid with woken := [] } = b.begun kid := State.eq_of_idle rest.idle
  have ends : (b.flying kid b.now b.schedule []).fetchEnd? m.policy b.now
      (m.source.heard b.now b.now) = _ := fetchEnd?_heard atOnce.symm
  obtain ⟨schedule, skips, dozes, goes⟩ := settles_landed (r := none) rest limit sound beside
  rw [atOnce]
  refine ⟨schedule, skips, dozes, .first (by simp) (by simp) ?_ ?_ goes⟩
  · rw [answer?_begun rest, asleep, State.run_begun rest, ends, Option.elim_some,
      State.endRefresh_flying rest beside]
  · exact State.flights_of_grounded rest.grounded beside.started?

theorem concludes_flying (rest : b.AtRest m.policy) (limit : 0 < m.policy.options.rateLimit.nanos)
    (sound : (m.policy.bounded m.source).2.outcome ≠ .crashed)
    (beside : State.Beside m.policy b (b.flying kid (m.arrival b) schedule queue)) :
    Concludes
      { m with
        state := { b.flying kid (m.arrival b) schedule queue with woken := [.refresh b.nextId] }
        ready := some (b.now + m.source.delay.nanos) }
      b kid (m.arrival b) (m.policy.bounded m.source).2 (tickTolerance + 4) := by
  let flying := b.flying kid (m.arrival b) schedule queue
  have asleep : { flying with woken := [] } = flying := State.eq_of_idle rest.idle
  have ends : flying.fetchEnd? m.policy b.now (m.source.heard b.now (m.arrival b)) = _ :=
    fetchEnd?_heard rfl
  have onTheWay : flying.flights = _ := State.flights_flying beside.started?
  have hears : answer?
      { m with
        state := { flying with woken := [.refresh b.nextId] }
        ready := some (b.now + m.source.delay.nanos) }
      (.refresh b.nextId) = m.source.heard b.now (m.arrival b) := answer?_flying onTheWay rfl
  obtain ⟨schedule', skips, dozes, goes⟩ := settles_landed (r := none) rest limit sound beside
  refine ⟨schedule', skips, dozes, .first (s := flying) (by simp) (by simp) ?_ ?_ goes⟩
  · rw [hears, asleep, State.run_flying, ends, Option.elim_some,
      State.endRefresh_flying rest beside]
  · exact State.flights_of_grounded rest.grounded beside.started?

/-! ### Ticks during the fetch -/

theorem settles_tick (m : Simulation) (kid : String) {w : List Task}
    (asleep : .schedule ∉ w) (past : due ≤ time) (heedless : b.cancelled = false) :
    ∃ next, ∀ k n,
      Settles (some (.lookup b.nextId)) k
        { m with
          state := { b.flying kid time (.queued next) [.schedule] with woken := w }
          ready := some (b.now + m.source.delay.nanos) } n →
      Settles (some (.lookup b.nextId)) (k + 1)
        { m with
          state := { b.flying kid time (.waiting due) [] with woken := .schedule :: w }
          ready := some (b.now + m.source.delay.nanos) } n := by
  let held : State := { b.flying kid time (.waiting due) [] with woken := w }
  let lined : State := b.flying kid time (.queued (held.nextTick m.policy due)) [.schedule]
  refine ⟨held.nextTick m.policy due, fun k n goes => ?_⟩
  refine .meanwhile (s := b.flying kid time (.waiting due) []) (u := { lined with woken := w })
    (by simp) asleep ?_ ?_ rfl goes
  · rw [State.run_schedule_waiting (t := held) rfl past heedless]
    exact State.tick_of_held (t := held) rfl (by simp)
  · have onTheWay : lined.flights = [(.refresh b.nextId, b.now)] := State.flights_flying rfl
    change lined.flights ≠ []
    simp [onTheWay]

end BearerAuth.KeyCache.Simulation
