import BearerAuth.Proofs.KeyCache.Closings
import BearerAuth.Proofs.KeyCache.Detached
import BearerAuth.Proofs.KeyCache.Schedules

/-!
# A cache at rest

A cache in which nothing can run before time passes, with the guard free, has nothing ahead of it
but the next tick of its schedule, if there is one.  So a lookup that is called then is alone with
the schedule, and what its moves make of the whole state can be said by equations.

* `State.AtRest` describes such a cache, `State.atRest_of_reaches` says that it is one;
* `State.asked` is the cache with one lookup more, and `run_asked_known`, `run_asked_fixed`,
  `run_asked_limited` and `run_asked_due` say what the first run of that lookup does;
* `State.begun`, `flying` and `landed` are the cache before, during and after the fetch of the
  lookup, and `run_begun`, `run_flying` and `endRefresh_flying` lead from one to the next;
* `State.renewed` and `unrenewed` are what is left of the fetch in the end, once the lookup has been
  answered;
* `State.skipped` is the cache after a tick that finds the rate limit.
-/

namespace BearerAuth.KeyCache

open BearerAuth.KeyCache.Core

variable {p : Policy} {b s t : State} {as : List Action} {now : Instant} {events : List Event}
  {keys : KeySet}

/-! ### Rest -/

/-- The schedule is over as it was in `b`, or has nothing to do until its next tick. -/
def Policy.Dozes (p : Policy) (b s : State) : Prop :=
  b.schedule.isOver = true ∧ s.schedule = b.schedule ∨
    s.cancelled = false ∧ 0 < p.options.interval.nanos ∧
      ∃ due, s.schedule = .waiting due ∧ s.now < due

/-- Nothing is under way in a cache that is in use. -/
structure State.AtRest (p : Policy) (s : State) : Prop where
  /-- Nobody is ready to run. -/
  idle : s.woken = []
  /-- Nobody holds the guard. -/
  free : s.holder = none
  /-- Nobody waits for it. -/
  unasked : s.queue = []
  /-- No lookup has begun a refresh that is not over. -/
  grounded : s.refreshers = []
  /-- The cache has an owner. -/
  owned : s.owned = true
  /-- The next number is nobody's yet. -/
  fresh : ∀ l ∈ s.lookups, l.id ≠ s.nextId
  /-- The schedule has nothing to do. -/
  dozes : p.Dozes s s

theorem Schedule.started?_of_isOver {schedule : Schedule} (ended : schedule.isOver = true) :
    schedule.started? = none := by
  cases schedule with
  | fetching => cases ended
  | _ => rfl

theorem Policy.Dozes.started? (dozes : p.Dozes b s) : s.schedule.started? = none := by
  rcases dozes with ⟨ended, same⟩ | ⟨-, -, due, waits, -⟩
  · exact Schedule.started?_of_isOver (same ▸ ended)
  · rw [waits]
    rfl

theorem Policy.Dozes.ahead {due : Instant} (dozes : p.Dozes b s)
    (waits : s.schedule = .waiting due) : s.now < due := by
  rcases dozes with ⟨ended, same⟩ | ⟨-, -, due', waits', ahead⟩
  · rw [← same, waits] at ended
    cases ended
  · cases waits.symm.trans waits'
    exact ahead

theorem interval_of_reaches (run : Reaches p (.load p now events keys) as s)
    (going : s.schedule.isOver = false) : 0 < p.options.interval.nanos := by
  have scheduled : p.scheduled = true := by
    by_contra unscheduled
    have off : (State.load p now events keys).schedule.isOver = true := by
      simp [State.load, unscheduled, Schedule.isOver]
    rw [(over_of_isOver off run).1, off] at going
    cases going
  simp only [Policy.scheduled, Duration.isZero, Bool.and_eq_true, Bool.not_eq_true',
    beq_eq_false_iff_ne] at scheduled
  exact Nat.pos_of_ne_zero scheduled.2

/-- The phase of a lookup that has been answered. -/
def LookupPhase.ofAnswer : Except Failure VerificationKey → LookupPhase
  | .ok key => .found key
  | .error why => .failed why

theorem LookupPhase.answer?_ofAnswer (answer : Except Failure VerificationKey) :
    (ofAnswer answer).answer? = some answer := by cases answer <;> rfl

namespace State

/-- **A cache with a free guard, in which nothing can run before time passes, is at rest.** -/
theorem atRest_of_reaches (run : Reaches p (.load p now events keys) as s) (settled : s.Settled p)
    (free : s.holder = none) (owned : s.owned = true) : s.AtRest p := by
  obtain ⟨idle, ahead⟩ := settled
  have orderly := run.orderly
  have poised := run.poised
  have unasked := orderly.free free
  refine ⟨idle, free, unasked, ?_, owned, fun l hl => Nat.ne_of_lt (run.numbered.given l hl), ?_⟩
  · cases run.sound.seat with
    | nobody refreshers => exact refreshers
    | lookup _ _ _ holder | schedule _ _ _ _ holder => cases free.symm.trans holder
  · have interval := interval_of_reaches run
    unfold Policy.Dozes
    cases schedule : s.schedule with
    | off | ended | broken => exact .inl ⟨rfl, rfl⟩
    | starting => simpa [idle] using poised.begins schedule
    | waiting due =>
      rw [schedule] at interval
      refine .inr ⟨?_, interval rfl, due, rfl, ?_⟩
      · by_contra cancelled
        simpa [idle] using poised.alert (by simpa using cancelled) due schedule
      · exact ahead due (List.mem_append_left _ (by simp [ticks, schedule]))
    | queued next => simpa [line, free, unasked] using poised.line next schedule
    | fetching next started =>
      cases free.symm.trans (holder_of_fetching run.sound schedule)

theorem flights_of_grounded (grounded : s.refreshers = []) (apart : s.schedule.started? = none) :
    s.flights = [] := by
  rw [← flights_core]
  simp [Core.flights, core, grounded, apart]

theorem mem_ticks {due : Instant} : due ∈ s.ticks ↔ s.schedule = .waiting due := by
  unfold ticks
  cases s.schedule <;> simp [eq_comm]

/-- A cache in which nobody fetches is settled if its schedule has nothing to do. -/
theorem settled_of_dozes (idle : s.woken = []) (grounded : s.refreshers = [])
    (dozes : p.Dozes b s) : s.Settled p := by
  have landed : s.flights = [] := flights_of_grounded grounded dozes.started?
  refine ⟨idle, fun t ht => ?_⟩
  have tick : t ∈ s.ticks := by simpa [deadlines, landed] using ht
  exact dozes.ahead (mem_ticks.1 tick)

/-! ### One lookup more -/

variable {kid : String} {phase : LookupPhase} {key : VerificationKey} {w : List Task}
  {answer : Option Answer} {stops : Bool}

/-- The lookups of a state, and one of the next number that is called now. -/
def inquiries (b : State) (kid : String) (phase : LookupPhase) : List Lookup :=
  b.lookups ++ [⟨b.nextId, kid, b.now, phase⟩]

/-- The state with one lookup more. -/
def asked (b : State) (kid : String) (phase : LookupPhase) : State :=
  { b with lookups := b.inquiries kid phase, nextId := b.nextId + 1 }

/-- The state in which that lookup has begun a refresh. -/
def begun (b : State) (kid : String) : State :=
  { b.asked kid .refreshing with
    holder := some (.refresh b.nextId)
    refreshers := [⟨b.nextId, none⟩]
    log := b.log ++ [Event.missRefreshing kid] }

theorem lookup?_inquiries (rest : b.AtRest p) (same : t.lookups = b.inquiries kid phase) :
    t.lookup? b.nextId = some ⟨b.nextId, kid, b.now, phase⟩ := by
  have others : b.lookups.find? (·.id == b.nextId) = none :=
    List.find?_eq_none.2 fun l hl => by simpa using rest.fresh l hl
  simp [lookup?, same, inquiries, others]

theorem setPhase_inquiries (rest : b.AtRest p) (same : t.lookups = b.inquiries kid phase)
    (next : LookupPhase) :
    t.setPhase b.nextId next = { t with lookups := b.inquiries kid next } := by
  have others : b.lookups.map (fun l => if l.id = b.nextId then { l with phase := next } else l) =
      b.lookups := by
    conv_rhs => rw [← List.map_id b.lookups]
    exact List.map_congr_left fun l hl => if_neg (rest.fresh l hl)
  simp [setPhase, same, inquiries, others]

theorem conclude_inquiries {l : Lookup} (rest : b.AtRest p) (owned : t.owned = true)
    (same : t.lookups = b.inquiries kid phase) (mine : l.id = b.nextId) :
    t.conclude l = { t with lookups := b.inquiries kid (t.conclusion l) } := by
  unfold conclude conclusion
  cases t.keys.get? l.kid <;> simp only [mine, finish_of_owned owned, setPhase_inquiries rest same]

theorem join_inquiries {how : Ending} (rest : b.AtRest p)
    (same : t.lookups = b.inquiries kid .refreshing) (asleep : .lookup b.nextId ∉ t.woken) :
    t.join b.nextId how =
      { t with
        lookups := b.inquiries kid (.joined how)
        woken := t.woken ++ [.lookup b.nextId] } := by
  simp [join, lookup?_inquiries rest same, setPhase_inquiries rest same, wake, asleep]

theorem eq_of_idle (idle : t.woken = []) : { t with woken := [] } = t := by rw [← idle]

theorem limited_iff : s.limited p = true ↔
    ∃ t, s.ledger.lastAttempt = some t ∧ s.now - t < p.options.rateLimit.nanos := by
  cases attempt : s.ledger.lastAttempt <;> simp [State.limited, Ledger.limited, attempt]

theorem note_nil (s : State) : s.note [] = s := by simp [note]

theorem ask_of_free (free : t.holder = none) (task : Task) :
    t.ask task = { t with holder := some task } := by simp [ask, free]

theorem release_of_unasked (unasked : t.queue = []) : t.release = { t with holder := none } := by
  simp [release, unasked]

theorem settled_asked (rest : b.AtRest p) (kid : String) (phase : LookupPhase)
    (noted : List Event) :
    ((b.asked kid phase).note noted).Settled p :=
  settled_of_dozes rest.idle rest.grounded rest.dozes

theorem call_eq_asked (rest : b.AtRest p) :
    b.call kid = { b.asked kid .called with woken := [.lookup b.nextId] } := by
  simp [call, wake, asked, inquiries, rest.idle]

/-! ### The first run -/

theorem run_asked (rest : b.AtRest p) (kid : String) :
    (b.asked kid .called).run p (.lookup b.nextId) stops answer =
      (b.asked kid .called).runLookup p ⟨b.nextId, kid, b.now, .called⟩ := by
  have mine : (b.asked kid .called).lookup? b.nextId = _ := lookup?_inquiries rest rfl
  simp only [run, mine, Option.elim_some]

theorem run_asked_known (rest : b.AtRest p) (there : b.keys.get? kid = some key) :
    (b.asked kid .called).run p (.lookup b.nextId) stops answer = b.asked kid (.found key) := by
  have known : (b.asked kid .called).keys.get? kid = some key := there
  rw [run_asked rest]
  simp only [runLookup, known, Option.isSome_some, if_true]
  rw [conclude_inquiries rest (t := b.asked kid .called) rest.owned rfl rfl, conclusion, known]
  rfl

variable (missing : b.keys.get? kid = none)
include missing

theorem run_asked_fixed (rest : b.AtRest p) (fixed : p.polling = false) :
    (b.asked kid .called).run p (.lookup b.nextId) stops answer =
      (b.asked kid (.failed (.unknownKey kid))).note [.missFixed kid] := by
  have unknown : (b.asked kid .called).keys.get? kid = none := missing
  have unknown' : ((b.asked kid .called).note [.missFixed kid]).keys.get? kid = none := missing
  rw [run_asked rest]
  simp only [runLookup, unknown, fixed, Option.isSome_none, Bool.false_eq_true, if_false]
  rw [conclude_inquiries rest (t := (b.asked kid .called).note [.missFixed kid]) rest.owned rfl rfl,
    conclusion, unknown']
  rfl

theorem run_asked_missing (rest : b.AtRest p) (polling : p.polling = true) :
    (b.asked kid .called).run p (.lookup b.nextId) stops answer =
      { b.asked kid .queued with holder := some (.lookup b.nextId) }.inspect p
        ⟨b.nextId, kid, b.now, .called⟩ := by
  have unknown : (b.asked kid .called).keys.get? kid = none := missing
  have queued : (b.asked kid .called).setPhase b.nextId .queued = b.asked kid .queued :=
    setPhase_inquiries rest rfl .queued
  rw [run_asked rest]
  simp only [runLookup, unknown, polling, Option.isSome_none, Bool.false_eq_true, if_false, if_true,
    miss, queued, ask_of_free (t := b.asked kid .queued) rest.free]

theorem run_asked_limited (rest : b.AtRest p) (polling : p.polling = true)
    (limited : b.limited p = true) :
    (b.asked kid .called).run p (.lookup b.nextId) stops answer =
      (b.asked kid (.failed (.unknownKey kid))).note [.missLimited kid] := by
  let held : State := { b.asked kid .queued with holder := some (.lookup b.nextId) }
  let back : State := { held.note [.missLimited kid] with holder := none }
  have unknown : held.keys.get? kid = none := missing
  have unknown' : back.keys.get? kid = none := missing
  have braked : held.limited p = true := limited
  have released : (held.note [.missLimited kid]).release = back := release_of_unasked rest.unasked
  rw [run_asked_missing missing rest polling]
  change held.inspect p _ = _
  simp only [inspect, unknown, braked, released, Option.isSome_none, Bool.false_eq_true, if_false,
    if_true]
  rw [conclude_inquiries rest (t := back) rest.owned rfl rfl, conclusion, unknown']
  simp only [back, held, note, asked, rest.free]

theorem run_asked_due (rest : b.AtRest p) (polling : p.polling = true)
    (due : b.limited p = false) :
    (b.asked kid .called).run p (.lookup b.nextId) stops answer =
      { b.begun kid with woken := [.refresh b.nextId] } := by
  let held : State := { b.asked kid .queued with holder := some (.lookup b.nextId) }
  have unknown : held.keys.get? kid = none := missing
  have due' : held.limited p = false := due
  have moved : (held.note [.missRefreshing kid]).setPhase b.nextId .refreshing =
      { held.note [.missRefreshing kid] with lookups := b.inquiries kid .refreshing } :=
    setPhase_inquiries rest rfl .refreshing
  rw [run_asked_missing missing rest polling]
  change held.inspect p _ = _
  simp only [inspect, unknown, due', moved, Option.isSome_none, Bool.false_eq_true, if_false]
  simp [wake, held, begun, asked, note, rest.idle, rest.grounded]

omit missing

/-! ### The fetch -/

variable {time next : Instant} {schedule : Schedule} {queue : List Task} {a : Answer}

/-- What the schedule may be about while another holds the guard. -/
inductive Beside (p : Policy) (b s : State) : Prop where
  /-- It is over or has nothing to do. -/
  | dozing (unasked : s.queue = []) (dozes : p.Dozes b s)
  /-- It has a tick in hand and waits for the guard. -/
  | lined (next : Instant) (line : s.queue = [.schedule]) (queued : s.schedule = .queued next)
    (heedless : s.cancelled = false) (interval : 0 < p.options.interval.nanos)

theorem Beside.line (h : Beside p b s) : s.queue = [] ∨ s.queue = [.schedule] := by
  cases h with
  | dozing unasked => exact .inl unasked
  | lined _ line => exact .inr line

theorem Beside.started? (h : Beside p b s) : s.schedule.started? = none := by
  cases h with
  | dozing _ dozes => exact dozes.started?
  | lined next _ queued =>
    rw [queued]
    rfl

theorem Beside.ahead {due : Instant} (h : Beside p b s) (waits : s.schedule = .waiting due) :
    s.now < due := by
  cases h with
  | dozing _ dozes => exact dozes.ahead waits
  | lined next _ queued => cases waits.symm.trans queued

/-- The cache while the fetch of that refresh is on its way. -/
def flying (b : State) (kid : String) (time : Instant) (schedule : Schedule) (queue : List Task) :
    State :=
  { b.begun kid with
    now := time
    queue
    refreshers := [⟨b.nextId, some b.now⟩]
    schedule
    fetches := b.fetches + 1 }

/-- The cache after the end of that fetch has been entered. -/
def landed (b : State) (p : Policy) (kid : String) (time : Instant) (a : Answer) : State :=
  let before : State :=
    { b with
      now := time
      fetches := b.fetches + 1
      log := b.log ++ Event.missRefreshing kid :: a.events }
  let after := before.enter p .unknownKey a.outcome
  { before with
    keys := after.keys
    ledger := after.ledger
    reports := after.reports
    log := after.log }

/-- The cache after the lookup has been answered by the keys that are in use then.  Meanwhile some
ticks have been passed over. -/
def answered (b : State) (p : Policy) (kid : String) (time : Instant) (a : Answer)
    (schedule : Schedule) (skips : Nat) : State :=
  let landed := b.landed p kid time a
  { landed with
    lookups := b.inquiries kid (landed.conclusion ⟨b.nextId, kid, b.now, .called⟩)
    nextId := b.nextId + 1
    holder := none
    schedule
    woken := []
    log := landed.log ++ (List.replicate skips .tickSkipped ++ endingEvents kid a.outcome.ending) }

theorem conclusion_eq_ofAnswer (l : Lookup) : t.conclusion l =
    .ofAnswer ((t.keys.get? l.kid).elim (.error (.unknownKey l.kid)) .ok) := by
  unfold conclusion
  cases t.keys.get? l.kid <;> rfl

/-- What a fetch that brings keys makes of the cache: they are the keys in use from then on, and the
lookup is answered by them.  Some ticks may have been passed over. -/
def renewed (b : State) (p : Policy) (kid : String) (time : Instant) (noted : List Event)
    (fresh : KeySet) (schedule : Schedule) (skips : Nat) : State :=
  { b.asked kid (.ofAnswer ((fresh.get? kid).elim (.error (.unknownKey kid)) .ok)) with
    now := time
    keys := fresh
    ledger := ⟨time, some time, b.ledger.attempts + 1, b.ledger.failures⟩
    schedule
    fetches := b.fetches + 1
    log := b.log ++ Event.missRefreshing kid :: (noted ++
      Event.cacheRefreshed p.source fresh.size .unknownKey :: List.replicate skips .tickSkipped) }

/-- What a fetch that fails makes of the cache: the keys in use stay, the failure is reported, and
the lookup is not served.  Some ticks may have been passed over. -/
def unrenewed (b : State) (p : Policy) (kid : String) (time : Instant) (noted : List Event)
    (why : Failure) (schedule : Schedule) (skips : Nat) : State :=
  { b.asked kid (.ofAnswer (.error (.unknownKey kid))) with
    now := time
    ledger := ⟨b.ledger.lastSuccess, some time, b.ledger.attempts + 1, b.ledger.failures + 1⟩
    schedule
    fetches := b.fetches + 1
    reports := b.reports ++ [why]
    log := b.log ++ Event.missRefreshing kid :: (noted ++
      (if p.logsFailures then [.refreshFailed] else []) ++ List.replicate skips .tickSkipped ++
      [.missFailed kid]) }

theorem answered_keys {fresh : KeySet} {skips : Nat} (rest : b.AtRest p)
    (brings : a.outcome = .keys fresh) :
    b.answered p kid time a schedule skips =
      b.renewed p kid time a.events fresh schedule skips := by
  simp [answered, renewed, conclusion_eq_ofAnswer, landed, brings, enter, note, asked, rest.free,
    rest.idle, Ledger.succeed, endingEvents, FetchEnd.ending]

theorem answered_failed {why : Failure} {skips : Nat} (rest : b.AtRest p)
    (missing : b.keys.get? kid = none) (fails : a.outcome = .failed why) :
    b.answered p kid time a schedule skips =
      b.unrenewed p kid time a.events why schedule skips := by
  simp [answered, unrenewed, conclusion_eq_ofAnswer, missing, landed, fails, enter, note, asked,
    rest.free, rest.idle, Ledger.fail, endingEvents, FetchEnd.ending]

theorem flights_begun (rest : b.AtRest p) (kid : String) : (b.begun kid).flights = [] := by
  have apart : b.schedule.started? = none := rest.dozes.started?
  rw [← flights_core]
  simp [Core.flights, core, begun, asked, apart]

theorem flights_flying (apart : schedule.started? = none) :
    (b.flying kid time schedule queue).flights = [(.refresh b.nextId, b.now)] := by
  rw [← flights_core]
  simp [Core.flights, core, flying, apart]

/-- The attempt that has been entered is the last one on record, and recent. -/
theorem limited_landed (limit : 0 < p.options.rateLimit.nanos) (sound : a.outcome ≠ .crashed) :
    (b.landed p kid time a).limited p = true := by
  cases ends : a.outcome with
  | keys | failed =>
    simpa [landed, ends, enter, note, State.limited, Ledger.limited, Ledger.succeed, Ledger.fail]
      using limit
  | crashed => exact absurd ends sound

theorem run_begun (rest : b.AtRest p) :
    (b.begun kid).run p (.refresh b.nextId) stops answer =
      ((b.flying kid b.now b.schedule []).fetchEnd? p b.now answer).elim
        (b.flying kid b.now b.schedule [])
        fun a => (b.flying kid b.now b.schedule []).endRefresh p b.nextId a := by
  simp [run, refresher?, runRefresh_eq, launch, flying, begun, asked, rest.unasked]

theorem run_flying :
    (b.flying kid time schedule queue).run p (.refresh b.nextId) stops answer =
      ((b.flying kid time schedule queue).fetchEnd? p b.now answer).elim
        (b.flying kid time schedule queue)
        fun a => (b.flying kid time schedule queue).endRefresh p b.nextId a := by
  simp [run, refresher?, runRefresh_eq, launch, flying]

/-- With its end the guard goes to the schedule, if that waits for it, and the lookup runs on. -/
theorem endRefresh_flying (rest : b.AtRest p)
    (beside : Beside p b (b.flying kid time schedule queue)) :
    (b.flying kid time schedule queue).endRefresh p b.nextId a =
      { b.landed p kid time a with
        lookups := b.inquiries kid (.joined a.outcome.ending)
        nextId := b.nextId + 1
        holder := queue.head?
        schedule
        woken := queue ++ [.lookup b.nextId] } := by
  have line : queue = [] ∨ queue = [.schedule] := beside.line
  let entered : State :=
    { b.landed p kid time a with
      lookups := b.inquiries kid .refreshing
      nextId := b.nextId + 1
      holder := some (.refresh b.nextId)
      queue
      schedule }
  have ended : (b.flying kid time schedule queue).endRefresh p b.nextId a =
      entered.release.join b.nextId a.outcome.ending := by
    unfold endRefresh
    cases ends : a.outcome <;>
      simp [entered, landed, flying, begun, asked, note, enter, ends, rest.grounded]
  have idle : (b.landed p kid time a).woken = [] := rest.idle
  have unasked : (b.landed p kid time a).queue = [] := rest.unasked
  have released : entered.release =
      { entered with holder := queue.head?, queue := [], woken := queue } := by
    rcases line with rfl | rfl <;> simp [release, wake, idle, entered]
  rw [ended, released, join_inquiries rest rfl (by rcases line with rfl | rfl <;> simp)]
  simp [entered, unasked]

/-! ### Ticks that find the rate limit -/

/-- The schedule has passed a tick over, and `next` is the one after. -/
def skipped (t : State) (next : Instant) : State :=
  { t with
    holder := none
    schedule := .waiting next
    log := t.log ++ [Event.tickSkipped]
    woken := if next ≤ t.now then .schedule :: t.woken else t.woken }

theorem handle_eq_skipped (limited : t.limited p = true) (unasked : t.queue = [])
    (heedless : t.cancelled = false) : t.handle p next answer = t.skipped next := by
  simp only [handle, limited, if_true, release_of_unasked (t := t.note [.tickSkipped]) unasked]
  simp only [rest, skipped, note, heedless, Bool.false_or, decide_eq_true_eq]
  split <;> rfl

theorem tick_eq_skipped {due : Instant} (limited : t.limited p = true) (free : t.holder = none)
    (unasked : t.queue = []) (heedless : t.cancelled = false) :
    t.tick p due answer = t.skipped (t.nextTick p due) := by
  have asks := ask_of_free (t := { t with schedule := .queued (t.nextTick p due) }) free .schedule
  simp only [tick, asks, if_true]
  exact handle_eq_skipped limited unasked heedless

theorem tick_of_held {due : Instant} {task : Task} (held : t.holder = some task)
    (other : task ≠ .schedule) :
    t.tick p due answer =
      { t with schedule := .queued (t.nextTick p due), queue := t.queue ++ [.schedule] } := by
  simp [tick, ask, held, other]

theorem run_schedule_waiting {due : Instant} (waits : t.schedule = .waiting due)
    (past : due ≤ t.now) (heedless : t.cancelled = false) :
    t.run p .schedule stops answer = t.tick p due answer := by
  simp [run, runSchedule, waits, past, heedless]

theorem run_schedule_queued (queued : t.schedule = .queued next)
    (held : t.holder = some .schedule) :
    t.run p .schedule stops answer = t.handle p next answer := by
  simp [run, runSchedule, queued, held]

end State

end BearerAuth.KeyCache
