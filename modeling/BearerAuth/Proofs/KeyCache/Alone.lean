import BearerAuth.Proofs.KeyCache.Instants

/-!
# A lookup that is alone

A lookup in a cache at rest is answered in a known way, and leaves the cache at rest.

* `Simulation.fetching` is the cache during the lookup's fetch, and `arrival` the end of that;
* `Simulation.passTo_arrival`, `passTo_arrival_tick` and `passTo_tick` : time passes up to what
  falls due next, and `awaits_fetching` puts them together;
* `Simulation.lookup_of_run` and `lookup_due` : the lookup is over with its first run, or waits for
  a fetch;
* `Simulation.lookup_alone` is the complete account.

The proof: while the fetch is on its way the schedule can take up one tick at most, since it has to
wait for the guard with that.  So time passes twice at most before the fetch ends, and what the
schedule does then falls under the rate limit.  That the answer is the same in whatever order the
tasks run is in `BearerAuth.Proofs.KeyCache.SimulatedOrder`.
-/

namespace BearerAuth.KeyCache.Simulation

variable {m n : Simulation} {c : Option Task} {task : Task} {b s t : State} {kid : String}
  {time due : Instant} {schedule : Schedule} {queue : List Task} {r : Option Instant}

/-! ### Time -/

theorem act_advance (idle : m.state.woken = []) (later : m.state.now ≤ time)
    (ahead : ∀ t ∈ m.state.deadlines m.policy, time ≤ t) :
    m.act (.advance time) = { m with state := { m.state with now := time } } := by
  simp [act, step, idle, later, List.all_eq_true.2 fun t ht => decide_eq_true (ahead t ht)]

/-- Tasks that wait for something from outside are woken, in order. -/
theorem foldl_wake {tasks : List Task} (waits : ∀ t ∈ tasks, m.state.waitsOutside t = true)
    (apart : (m.state.woken ++ tasks).Nodup) :
    tasks.foldl (fun m t => m.act (.wake t)) m =
      { m with state := { m.state with woken := m.state.woken ++ tasks } } := by
  induction tasks generalizing m with
  | nil => simp
  | cons t tasks ih =>
    have asleep : t ∉ m.state.woken := fun inside =>
      (List.nodup_append.1 apart).2.2 t inside t (List.mem_cons_self ..) rfl
    let n : Simulation := { m with state := { m.state with woken := m.state.woken ++ [t] } }
    have woke : m.act (.wake t) = n := by
      simp [act, step, waits t (List.mem_cons_self ..), State.wake, asleep, n]
    have others := ih (m := n) (fun t ht => waits t (List.mem_cons_of_mem _ ht))
      (by simpa [n] using apart)
    rw [List.foldl_cons, woke, others]
    simp [n]

theorem waitsOutside_of_mem_dueTasks (due : task ∈ m.dueTasks) :
    m.state.waitsOutside task = true := by
  simp only [dueTasks, List.mem_append, List.mem_map, List.mem_filter] at due
  rcases due with tick | ⟨flight, ⟨flies, -⟩, rfl⟩
  · split at tick
    · rename_i ticks
      cases List.mem_singleton.1 tick
      simp [State.waitsOutside, ticks]
    · cases tick
  · have flying : m.state.flights.any (·.1 == flight.1) = true :=
      List.any_eq_true.2 ⟨flight, flies, beq_self_eq_true _⟩
    simp [State.waitsOutside, flying]

/-- The cache during the fetch of the lookup. -/
def fetching (m : Simulation) (b : State) (kid : String) (time : Instant) (schedule : Schedule)
    (queue : List Task) : Simulation :=
  { m with
    state := b.flying kid time schedule queue
    ready := some (b.now + m.source.delay.nanos) }

/-- The lookup has been answered after a fetch of the source as it behaves, and the schedule is left
with nothing to do. -/
def Arrives (m : Simulation) (b : State) (kid : String) (n : Simulation) : Prop :=
  ∃ schedule skips, m.policy.Dozes b { b with now := m.arrival b, schedule } ∧
    n =
      { m with
        state := b.answered m.policy kid (m.arrival b) (m.policy.bounded m.source).2 schedule skips
        ready := none }

theorem events_fetching (apart : schedule.started? = none) :
    (m.fetching b kid time schedule queue).events =
      (b.flying kid time schedule queue).ticks ++
        [b.now + m.policy.options.timeout.nanos, b.now + m.source.delay.nanos] := by
  simp [events, fetching, State.deadlines, State.flights_flying apart]

theorem advance_fetching {later : Instant} (rest : b.AtRest m.policy) (le : time ≤ later)
    (within : later ≤ m.arrival b) (apart : schedule.started? = none)
    (ahead : ∀ due, schedule = .waiting due → later ≤ due) :
    (m.fetching b kid time schedule queue).act (.advance later) =
      m.fetching b kid later schedule queue := by
  refine act_advance rest.idle le fun t ht => ?_
  rw [arrival_eq] at within
  have fetch : later ≤ b.now + m.policy.options.timeout.nanos :=
    Nat.le_trans within (Nat.min_le_right ..)
  have line : t ∈ (b.flying kid time schedule queue).ticks ++
      [b.now + m.policy.options.timeout.nanos] := by
    simpa [fetching, State.deadlines, State.flights_flying apart] using ht
  rcases List.mem_append.1 line with tick | timeout
  · exact ahead t (State.mem_ticks.1 tick)
  · rwa [List.mem_singleton.1 timeout]

theorem dueTasks_fetching (apart : schedule.started? = none) :
    (m.fetching b kid time schedule queue).dueTasks =
      (if (b.flying kid time schedule queue).ticks.any (· ≤ time) then [.schedule] else []) ++
        if m.arrival b ≤ time then [.refresh b.nextId] else [] := by
  have flights : (m.fetching b kid time schedule queue).state.flights =
      [(.refresh b.nextId, b.now)] := State.flights_flying apart
  have arrived : m.arrival b ≤ time ↔ b.now + m.source.delay.nanos ≤ time ∨
      b.now + m.policy.options.timeout.nanos ≤ time := by
    rw [arrival_eq]
    unfold Instant at *
    omega
  simp only [dueTasks, flights, arrived]
  congr 1
  by_cases answered : b.now + m.source.delay.nanos ≤ time
  · simp [fetching, State.flying, answered]
  · by_cases timeout : b.now + m.policy.options.timeout.nanos ≤ time <;>
      simp [fetching, State.flying, answered, timeout]

theorem passTo_fetching {later : Instant} (rest : b.AtRest m.policy) (le : time ≤ later)
    (within : later ≤ m.arrival b) (apart : schedule.started? = none)
    (ahead : ∀ due, schedule = .waiting due → later ≤ due) :
    (m.fetching b kid time schedule queue).passTo c later =
      settle
        { m with
          state :=
            { b.flying kid later schedule queue with
              woken := (m.fetching b kid later schedule queue).dueTasks }
          ready := some (b.now + m.source.delay.nanos) } c := by
  have idle : (m.fetching b kid later schedule queue).state.woken = [] := rest.idle
  have distinct : ([] ++ (m.fetching b kid later schedule queue).dueTasks).Nodup := by
    rw [dueTasks_fetching apart, List.nil_append]
    split <;> split <;> simp
  simp only [passTo, advance_fetching rest le within apart ahead]
  rw [foldl_wake (fun t => waitsOutside_of_mem_dueTasks) (by rwa [idle]), idle]
  rfl

theorem passTo_arrival (rest : b.AtRest m.policy) (limit : 0 < m.policy.options.rateLimit.nanos)
    (sound : (m.policy.bounded m.source).2.outcome ≠ .crashed) (le : time ≤ m.arrival b)
    (beside : State.Beside m.policy b (b.flying kid (m.arrival b) schedule queue)) :
    m.Arrives b kid
      ((m.fetching b kid time schedule queue).passTo (some (.lookup b.nextId)) (m.arrival b)) := by
  have apart : schedule.started? = none := beside.started?
  have ahead : ∀ due, schedule = .waiting due → m.arrival b < due := fun due => beside.ahead
  have undue : (b.flying kid (m.arrival b) schedule queue).ticks.any (· ≤ m.arrival b) = false :=
    List.any_eq_false.2 fun due tick => by simpa using ahead due (State.mem_ticks.1 tick)
  obtain ⟨schedule', skips, dozes, goes⟩ := concludes_flying rest limit sound beside
  refine ⟨schedule', skips, dozes, ?_⟩
  rw [passTo_fetching rest le (Nat.le_refl _) apart (fun due h => Nat.le_of_lt (ahead due h)),
    dueTasks_fetching apart, undue, if_pos (Nat.le_refl _)]
  exact goes.settle (by omega)

/-- The fetch ends at the time of a tick, which comes first. -/
theorem passTo_arrival_tick (rest : b.AtRest m.policy)
    (limit : 0 < m.policy.options.rateLimit.nanos)
    (sound : (m.policy.bounded m.source).2.outcome ≠ .crashed) (le : time ≤ m.arrival b)
    (heedless : b.cancelled = false) (interval : 0 < m.policy.options.interval.nanos) :
    m.Arrives b kid
      ((m.fetching b kid time (.waiting (m.arrival b)) []).passTo (some (.lookup b.nextId))
        (m.arrival b)) := by
  have due : (b.flying kid (m.arrival b) (.waiting (m.arrival b)) []).ticks.any
      (· ≤ m.arrival b) = true := by simp [State.flying, State.ticks]
  obtain ⟨next, takes⟩ := settles_tick m kid
    (show .schedule ∉ [Task.refresh b.nextId] by simp) (Nat.le_refl (m.arrival b)) heedless
  have beside : State.Beside m.policy b (b.flying kid (m.arrival b) (.queued next) [.schedule]) :=
    .lined next rfl rfl heedless interval
  obtain ⟨schedule', skips, dozes, goes⟩ := concludes_flying rest limit sound beside
  refine ⟨schedule', skips, dozes, ?_⟩
  rw [passTo_fetching rest le (Nat.le_refl _) rfl (fun due h => by cases h; exact Nat.le_refl _),
    dueTasks_fetching rfl, due, if_pos (Nat.le_refl _)]
  exact (takes _ _ goes).settle (by omega)

theorem passTo_tick (rest : b.AtRest m.policy) (kid : String) (le : time ≤ due)
    (early : due < m.arrival b) (heedless : b.cancelled = false) :
    ∃ next, (m.fetching b kid time (.waiting due) []).passTo (some (.lookup b.nextId)) due =
      m.fetching b kid due (.queued next) [.schedule] := by
  have tick : (b.flying kid due (.waiting due) []).ticks.any (· ≤ due) = true := by
    simp [State.flying, State.ticks]
  obtain ⟨next, takes⟩ := settles_tick m kid
    (show .schedule ∉ ([] : List Task) by simp) (Nat.le_refl due) heedless
  refine ⟨next, ?_⟩
  rw [passTo_fetching rest le (Nat.le_of_lt early) rfl fun due h => by cases h; exact Nat.le_refl _,
    dueTasks_fetching rfl, tick, if_neg (Nat.not_le.2 early)]
  have idle : { b.flying kid due (.queued next) [.schedule] with woken := [] } =
      b.flying kid due (.queued next) [.schedule] := State.eq_of_idle rest.idle
  refine (takes 0 _ ?_).settle (by omega)
  rw [idle]
  exact .of_idle rest.idle

/-- Nothing falls due before the fetch ends, unless there is a tick. -/
theorem min?_events_arrival (apart : schedule.started? = none)
    (ahead : ∀ due, schedule = .waiting due → m.arrival b ≤ due) :
    (m.fetching b kid time schedule queue).events.min? = some (m.arrival b) := by
  rw [events_fetching apart, List.min?_eq_some_iff]
  have ends := m.arrival_eq b
  constructor
  · refine List.mem_append_right _ ?_
    rcases Nat.le_total (b.now + m.source.delay.nanos) (b.now + m.policy.options.timeout.nanos) with
      first | first <;> simp [ends, first]
  · intro t ht
    rcases List.mem_append.1 ht with tick | fetch
    · exact ahead t (State.mem_ticks.1 tick)
    · rcases List.mem_pair.1 fetch with rfl | rfl
      · exact ends ▸ Nat.min_le_right ..
      · exact ends ▸ Nat.min_le_left ..

theorem min?_events_tick (early : due < m.arrival b) :
    (m.fetching b kid time (.waiting due) queue).events.min? = some due := by
  rw [events_fetching rfl, List.min?_eq_some_iff]
  rw [arrival_eq] at early
  constructor
  · simp [State.flying, State.ticks]
  · intro t ht
    rcases List.mem_append.1 ht with tick | fetch
    · cases State.mem_ticks.1 tick
      exact Nat.le_refl _
    · rcases List.mem_pair.1 fetch with rfl | rfl <;> unfold Instant at * <;> omega

/-! ### Waiting for the answer -/

theorem awaits_of_done {isDone : State → Bool} (done : isDone m.state = true) (k : Nat) :
    awaits isDone c k m = m := by
  cases k with
  | zero => rfl
  | succ k => simp [awaits, done]

theorem awaits_of_not_done {isDone : State → Bool} (going : isDone m.state = false)
    (falls : m.events.min? = some time) (k : Nat) :
    awaits isDone c (k + 1) m = awaits isDone c k (m.passTo c time) := by
  simp [awaits, going, falls]

theorem isOver_of_lookups (rest : b.AtRest m.policy) {phase : LookupPhase}
    (same : t.lookups = b.inquiries kid phase) : isOver b.nextId t = phase.isOver := by
  simp [isOver, State.lookup?_inquiries rest same]

theorem isOver_fetching (rest : b.AtRest m.policy) :
    isOver b.nextId (m.fetching b kid time schedule queue).state = false :=
  isOver_of_lookups (t := b.flying kid time schedule queue) rest rfl

theorem Arrives.isOver (rest : b.AtRest m.policy) (h : m.Arrives b kid n) :
    isOver b.nextId n.state = true := by
  obtain ⟨schedule, skips, -, rfl⟩ := h
  rw [isOver_of_lookups rest rfl]
  unfold State.conclusion
  split <;> rfl

/-- **The lookup waits for its fetch**, during which no more than one tick can come due. -/
theorem awaits_fetching (rest : b.AtRest m.policy) (limit : 0 < m.policy.options.rateLimit.nanos)
    (sound : (m.policy.bounded m.source).2.outcome ≠ .crashed) (kid : String) (k : Nat) :
    m.Arrives b kid
      (awaits (isOver b.nextId) (some (.lookup b.nextId)) (k + 2)
        (m.fetching b kid b.now b.schedule [])) := by
  -- once the fetch is what falls due next, the lookup is over when it has come
  have last {time : Instant} {schedule : Schedule} {queue : List Task} (k : Nat)
      (next : (m.fetching b kid time schedule queue).events.min? = some (m.arrival b))
      (passed : m.Arrives b kid
        ((m.fetching b kid time schedule queue).passTo (some (.lookup b.nextId)) (m.arrival b))) :
      m.Arrives b kid
        (awaits (isOver b.nextId) (some (.lookup b.nextId)) (k + 1)
          (m.fetching b kid time schedule queue)) := by
    rwa [awaits_of_not_done (isOver_fetching rest) next, awaits_of_done (passed.isOver rest)]
  have later : b.now ≤ m.arrival b := Nat.le_add_right ..
  rcases rest.dozes with ended | ⟨heedless, interval, due, waits, ahead⟩
  · have beside : State.Beside m.policy b (b.flying kid (m.arrival b) b.schedule []) :=
      .dozing rfl (.inl ⟨ended.1, rfl⟩)
    exact last (k + 1)
      (min?_events_arrival beside.started? fun due waits => Nat.le_of_lt (beside.ahead waits))
      (passTo_arrival rest limit sound later beside)
  rw [waits]
  rcases Nat.lt_trichotomy due (m.arrival b) with early | same | late
  · obtain ⟨next, passed⟩ := passTo_tick rest kid (Nat.le_of_lt ahead) early heedless
    rw [awaits_of_not_done (isOver_fetching rest) (min?_events_tick early), passed]
    have beside : State.Beside m.policy b (b.flying kid (m.arrival b) (.queued next) [.schedule]) :=
      .lined next rfl rfl heedless interval
    exact last k (min?_events_arrival rfl fun due h => by cases h)
      (passTo_arrival rest limit sound (Nat.le_of_lt early) beside)
  · rw [same]
    exact last (k + 1) (min?_events_arrival rfl fun due h => by cases h; exact Nat.le_refl _)
      (passTo_arrival_tick rest limit sound later heedless interval)
  · have beside : State.Beside m.policy b (b.flying kid (m.arrival b) (.waiting due) []) :=
      .dozing rfl (.inr ⟨heedless, interval, due, rfl, late⟩)
    exact last (k + 1)
      (min?_events_arrival beside.started? fun due waits => Nat.le_of_lt (beside.ahead waits))
      (passTo_arrival rest limit sound later beside)

/-! ### The whole lookup -/

/-- The cache in which a lookup has just been called. -/
def called (m : Simulation) (kid : String) : Simulation :=
  { m with
    state := { m.state.asked kid .called with woken := [.lookup m.state.nextId] } }

theorem lookup_fst (rest : m.state.AtRest m.policy) (kid : String) :
    (m.lookup kid).1 = (m.called kid).await (isOver m.state.nextId)
      (some (.lookup m.state.nextId)) := by
  simp only [lookup, act_call rest.owned, State.call_eq_asked rest, called]

/-- The answer of a lookup can be read off the state after it. -/
theorem lookup_eq (rest : m.state.AtRest m.policy) (same : (m.lookup kid).1 = n)
    {answer : Except Failure VerificationKey}
    (answered : n.state.lookups = m.state.inquiries kid (.ofAnswer answer)) :
    m.lookup kid = (n, answer) := by
  have read : m.lookup kid = ((m.lookup kid).1,
      ((m.lookup kid).1.result? m.state.nextId).getD (.error (.unknownKey kid))) := rfl
  have result : n.result? m.state.nextId = some answer := by
    rw [result?, State.lookup?_inquiries rest answered]
    exact LookupPhase.answer?_ofAnswer answer
  rw [read, same, result, Option.getD_some]

theorem lookup_of_run (answer : Except Failure VerificationKey) (noted : List Event)
    (rest : m.state.AtRest m.policy)
    (ran : ∀ heard, (m.state.asked kid .called).run m.policy (.lookup m.state.nextId) true heard =
      (m.state.asked kid (.ofAnswer answer)).note noted) :
    m.lookup kid =
      ({ m with state := (m.state.asked kid (.ofAnswer answer)).note noted, ready := none },
        answer) := by
  let after := (m.state.asked kid (.ofAnswer answer)).note noted
  have asleep : { m.state.asked kid .called with woken := [] } = m.state.asked kid .called :=
    State.eq_of_idle rest.idle
  have landed : after.flights = [] := State.flights_of_grounded rest.grounded rest.dozes.started?
  have settled : Settles (some (.lookup m.state.nextId)) 1 (m.called kid)
      { m with state := after, ready := none } :=
    .last (by rw [asleep, ran]) landed (.of_idle rest.idle)
  have done : isOver m.state.nextId after = true := by
    rw [isOver_of_lookups rest rfl]
    cases answer <;> rfl
  refine lookup_eq rest ?_ rfl
  rw [lookup_fst rest, await, settled.settle (by omega), awaits_of_done done]

/-- **A miss that is due a refresh waits for the fetch.** -/
theorem lookup_due (rest : m.state.AtRest m.policy)
    (limit : 0 < m.policy.options.rateLimit.nanos)
    (sound : (m.policy.bounded m.source).2.outcome ≠ .crashed)
    (missing : m.state.keys.get? kid = none) (polling : m.policy.polling = true)
    (due : m.state.limited m.policy = false) : m.Arrives m.state kid (m.lookup kid).1 := by
  let begun : State := { m.state.begun kid with woken := [.refresh m.state.nextId] }
  have asleep : { m.state.asked kid .called with woken := [] } = m.state.asked kid .called :=
    State.eq_of_idle rest.idle
  have landed : begun.flights = [] := State.flights_begun rest kid
  have begins {k : Nat} {n : Simulation}
      (goes : Settles (some (.lookup m.state.nextId)) k
        { m with state := begun, ready := none } n) :
      Settles (some (.lookup m.state.nextId)) (k + 1) (m.called kid) n :=
    .last (by rw [asleep]; exact State.run_asked_due missing rest polling due) landed goes
  rw [lookup_fst rest, await]
  have later : m.state.now ≤ m.arrival m.state := Nat.le_add_right ..
  rcases Nat.eq_or_lt_of_le later with atOnce | early
  · obtain ⟨schedule, skips, dozes, goes⟩ := concludes_begun rest limit sound atOnce.symm
    have arrived : m.Arrives m.state kid _ := ⟨schedule, skips, dozes, rfl⟩
    rwa [(begins goes).settle (by omega), awaits_of_done (arrived.isOver rest)]
  · have enough : 2 ≤
        ((m.called kid).state.nextId + 4) * (m.policy.options.timeout.nanos + 1) :=
      Nat.le_trans (by omega) (Nat.le_mul_of_pos_right _ (Nat.succ_pos _))
    obtain ⟨k, fuel⟩ := Nat.exists_eq_add_of_le' enough
    rw [(begins (settles_begun rest early (by simp))).settle (by omega)]
    exact fuel ▸ awaits_fetching rest limit sound kid k

/-! ### The complete account -/

theorem bounded_eq_keys_iff {p : Policy} {source : Behaviour} {fresh : KeySet} :
    (p.bounded source).2.outcome = .keys fresh ↔
      source.delay.nanos ≤ p.options.timeout.nanos ∧ source.answer.outcome = .keys fresh := by
  unfold Policy.bounded
  split <;> simp_all

theorem bounded_eq_failed_iff {p : Policy} {source : Behaviour} {why : Failure} :
    (p.bounded source).2.outcome = .failed why ↔
      source.delay.nanos ≤ p.options.timeout.nanos ∧ source.answer.outcome = .failed why ∨
        p.options.timeout.nanos < source.delay.nanos ∧ why = p.timedOut := by
  unfold Policy.bounded
  split <;> simp_all [eq_comm]

variable {p : Policy} {source : Behaviour} {as : List Action} {since : Instant}
  {events : List Event} {keys : KeySet}

theorem lookup_of_keys {fresh : KeySet} (rest : m.state.AtRest m.policy)
    (arrives : m.Arrives m.state kid (m.lookup kid).1)
    (brings : (m.policy.bounded m.source).2.outcome = .keys fresh) :
    ∃ schedule skips u, u.Settled m.policy ∧ m.policy.Dozes m.state u ∧
      m.lookup kid = ({ m with state := u, ready := none },
        (fresh.get? kid).elim (.error (.unknownKey kid)) .ok) ∧
      u = m.state.renewed m.policy kid (m.arrival m.state)
        (m.policy.bounded m.source).2.events fresh schedule skips := by
  obtain ⟨schedule, skips, dozes, same⟩ := arrives
  rw [State.answered_keys rest brings] at same
  refine ⟨schedule, skips, _, ?_, ?_, lookup_eq rest same rfl, rfl⟩
  · exact State.settled_of_dozes rest.idle rest.grounded dozes
  · exact dozes

theorem lookup_of_failed {why : Failure} (rest : m.state.AtRest m.policy)
    (missing : m.state.keys.get? kid = none)
    (arrives : m.Arrives m.state kid (m.lookup kid).1)
    (fails : (m.policy.bounded m.source).2.outcome = .failed why) :
    ∃ schedule skips u, u.Settled m.policy ∧ m.policy.Dozes m.state u ∧
      m.lookup kid = ({ m with state := u, ready := none }, .error (.unknownKey kid)) ∧
      u = m.state.unrenewed m.policy kid (m.arrival m.state)
        (m.policy.bounded m.source).2.events why schedule skips := by
  obtain ⟨schedule, skips, dozes, same⟩ := arrives
  rw [State.answered_failed rest missing fails] at same
  refine ⟨schedule, skips, _, ?_, ?_, lookup_eq rest same rfl, rfl⟩
  · exact State.settled_of_dozes rest.idle rest.grounded dozes
  · exact dozes

/-- **A lookup that is alone, completely.**  In a cache that has been reached in any way, in which
nothing can run and the guard is free, a lookup is answered, nothing can run after it, and it does
this: if the key is there, it finds it and nothing changes.  If it is not, and the source never
changes or an attempt was completed less than the rate limit ago, the key is unknown and nothing
changes, save what is logged.  Otherwise there is one fetch, over after its duration or the timeout,
whatever is shorter.  Keys that it brings by then, even at the same instant, replace those in use,
and the lookup is answered by them; if it fails or comes too late, the keys stay, the failure is
counted and reported once, and the key is unknown.  Ticks of the schedule make no difference to
that.  Before any attempt was completed there is always a fetch. -/
theorem lookup_alone (run : Reaches p (.load p since events keys) as s) (settled : s.Settled p)
    (free : s.holder = none) (owned : s.owned = true) (limit : 0 < p.options.rateLimit.nanos)
    (sound : source.answer.outcome ≠ .crashed) (kid : String) :
    ∃ u answer, lookup ⟨p, source, s, r⟩ kid = (⟨p, source, u, none⟩, answer) ∧
      (u.Settled p ∧ p.Dozes s u) ∧
      (∀ key, s.keys.get? kid = some key →
        answer = .ok key ∧ u = s.asked kid (.ofAnswer answer)) ∧
      (s.keys.get? kid = none → p.polling = false →
        answer = .error (.unknownKey kid) ∧
          u = (s.asked kid (.ofAnswer answer)).note [.missFixed kid]) ∧
      (s.keys.get? kid = none → p.polling = true →
        (∀ t, s.ledger.lastAttempt = some t → s.now - t < p.options.rateLimit.nanos →
          answer = .error (.unknownKey kid) ∧
            u = (s.asked kid (.ofAnswer answer)).note [.missLimited kid]) ∧
        ((∀ t, s.ledger.lastAttempt = some t → p.options.rateLimit.nanos ≤ s.now - t) →
          ∃ t schedule skips,
            t = s.now + min source.delay.nanos p.options.timeout.nanos ∧
            (∀ fresh, source.delay.nanos ≤ p.options.timeout.nanos →
              source.answer.outcome = .keys fresh →
              answer = (fresh.get? kid).elim (.error (.unknownKey kid)) .ok ∧
                u = s.renewed p kid t (p.bounded source).2.events fresh schedule skips) ∧
            ∀ why, source.delay.nanos ≤ p.options.timeout.nanos ∧
                source.answer.outcome = .failed why ∨
              p.options.timeout.nanos < source.delay.nanos ∧ why = p.timedOut →
              answer = .error (.unknownKey kid) ∧
                u = s.unrenewed p kid t (p.bounded source).2.events why schedule skips) ∧
        (s.ledger.attempts = 0 → u.fetches = s.fetches + 1 ∧ u.ledger.attempts = 1)) := by
  let m : Simulation := ⟨p, source, s, r⟩
  have rest : m.state.AtRest m.policy := State.atRest_of_reaches run settled free owned
  cases there : s.keys.get? kid with
  | some key =>
    have looked := lookup_of_run (m := m) (.ok key) [] rest fun heard =>
      (State.run_asked_known rest there).trans (State.note_nil _).symm
    refine ⟨_, _, looked, ⟨State.settled_asked rest .., rest.dozes⟩, ?_, nofun, nofun⟩
    rintro _ ⟨⟩
    exact ⟨rfl, State.note_nil _⟩
  | none =>
    cases polling : p.polling with
    | false =>
      have looked := lookup_of_run (m := m) (.error (.unknownKey kid)) _ rest fun heard =>
        State.run_asked_fixed there rest polling
      exact ⟨_, _, looked, ⟨State.settled_asked rest .., rest.dozes⟩, nofun,
        fun _ _ => ⟨rfl, rfl⟩, nofun⟩
    | true =>
      cases limited : s.limited p with
      | true =>
        have looked := lookup_of_run (m := m) (.error (.unknownKey kid)) _ rest fun heard =>
          State.run_asked_limited there rest polling limited
        obtain ⟨t, attempt, recent⟩ := State.limited_iff.1 limited
        refine ⟨_, _, looked, ⟨State.settled_asked rest .., rest.dozes⟩, nofun, nofun,
          fun _ _ => ⟨fun _ _ _ => ⟨rfl, rfl⟩, fun due => ?_, fun none => ?_⟩⟩
        · exact absurd recent (Nat.not_lt.2 (due t attempt))
        · rw [(lastAttempt_eq_none_iff run).2 none] at attempt
          cases attempt
      | false =>
        have unlimited t (attempt : s.ledger.lastAttempt = some t)
            (recent : s.now - t < p.options.rateLimit.nanos) : False := by
          rw [State.limited_iff.2 ⟨t, attempt, recent⟩] at limited
          cases limited
        have ends : m.arrival s = s.now + min source.delay.nanos p.options.timeout.nanos :=
          congrArg (s.now + ·) (nanos_bounded p source)
        have fetched (quiet : (p.bounded source).2.outcome ≠ .crashed) :
            m.Arrives s kid (m.lookup kid).1 := lookup_due rest limit quiet there polling limited
        cases outcome : (p.bounded source).2.outcome with
        | keys fresh =>
          obtain ⟨schedule, skips, u, settled, dozes, looked, same⟩ :=
            lookup_of_keys rest (fetched (by simp [outcome])) outcome
          refine ⟨u, _, looked, ⟨settled, dozes⟩, nofun, nofun,
            fun _ _ => ⟨?_, fun due => ?_, fun none => ?_⟩⟩
          · exact fun t attempt recent => (unlimited t attempt recent).elim
          · refine ⟨_, schedule, skips, ends, fun fresh' within brings => ?_, fun why fails => ?_⟩
            · cases outcome.symm.trans (bounded_eq_keys_iff.2 ⟨within, brings⟩)
              exact ⟨rfl, same⟩
            · cases outcome.symm.trans (bounded_eq_failed_iff.2 fails)
          · rw [same]
            exact ⟨rfl, congrArg (· + 1) none⟩
        | failed why =>
          obtain ⟨schedule, skips, u, settled, dozes, looked, same⟩ :=
            lookup_of_failed rest there (fetched (by simp [outcome])) outcome
          refine ⟨u, _, looked, ⟨settled, dozes⟩, nofun, nofun,
            fun _ _ => ⟨?_, fun due => ?_, fun none => ?_⟩⟩
          · exact fun t attempt recent => (unlimited t attempt recent).elim
          · refine ⟨_, schedule, skips, ends, fun fresh within brings => ?_, fun why' fails => ?_⟩
            · cases outcome.symm.trans (bounded_eq_keys_iff.2 ⟨within, brings⟩)
            · cases outcome.symm.trans (bounded_eq_failed_iff.2 fails)
              exact ⟨rfl, same⟩
          · rw [same]
            exact ⟨rfl, congrArg (· + 1) none⟩
        | crashed => exact absurd outcome (bounded_ne_crashed sound)

/-- A source that takes 3 ns to bring a key. -/
def slowSource : Behaviour := ⟨⟨3⟩, ⟨[], .keys (sampleKeys "a")⟩⟩

/-- The schedule waits for its tick at 7 ns when the key is looked up at 5 ns, and the fetch ends at
8 ns together with the timeout. -/
theorem lookup_alone_slowSource :
    ∃ s u, Reaches samplePolicy (.load samplePolicy 0 [] .empty)
        [.run .schedule false none, .advance 5] s ∧ s.schedule = .waiting 7 ∧
      lookup ⟨samplePolicy, slowSource, s, none⟩ "a" =
        (⟨samplePolicy, slowSource, u, none⟩, .ok ⟨.secret [1, 0, 1], none⟩) ∧
      u.now = 8 ∧ u.keys = sampleKeys "a" ∧ u.ledger = ⟨8, some 8, 1, 0⟩ ∧ u.reports = [] ∧
      u.fetches = 2 := by
  obtain ⟨s, run, same⟩ : ∃ s, Reaches samplePolicy (.load samplePolicy 0 [] .empty)
      [.run .schedule false none, .advance 5] s ∧
      s = { State.load samplePolicy 0 [] .empty with
        now := 5, schedule := .waiting 7, woken := [] } :=
    ⟨_, reaches_iff_after?.2 rfl, rfl⟩
  have settled : s.Settled samplePolicy := by
    rw [same]
    decide
  have missing : s.keys.get? "a" = none := by rw [same]; rfl
  have untried : s.ledger.lastAttempt = none := by rw [same]; rfl
  have sound : slowSource.answer.outcome ≠ .crashed := by simp [slowSource]
  obtain ⟨u, answer, looked, -, -, -, missed⟩ := lookup_alone (r := none) run settled
    (by rw [same]; rfl) (by rw [same]; rfl) (by decide) sound "a"
  obtain ⟨-, fetched, -⟩ := missed missing rfl
  obtain ⟨t, schedule, skips, ends, brought, -⟩ := fetched fun t attempt => by
    cases untried.symm.trans attempt
  obtain ⟨rfl, rfl⟩ := brought (sampleKeys "a") (by decide) rfl
  have time : t = 8 := by
    rw [ends, same]
    rfl
  refine ⟨s, _, run, by rw [same], looked, time, rfl, ?_, ?_, ?_⟩
  · simp [State.renewed, State.asked, time, same, State.load]
  · simp [State.renewed, State.asked, same, State.load]
  · simp [State.renewed, State.asked, same, State.load]

end BearerAuth.KeyCache.Simulation
