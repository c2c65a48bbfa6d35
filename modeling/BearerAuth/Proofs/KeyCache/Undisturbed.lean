import BearerAuth.Proofs.KeyCache.Bystanders
import BearerAuth.Proofs.KeyCache.Rest
import BearerAuth.Proofs.KeyCache.Simulated

/-!
# A lookup in whatever order

A key is looked up in a cache at rest, and no other lookup is called until it is answered.  Who else
is there, and in which order the tasks run, makes no difference to the answer, nor to what is on
record then.

* `Behaviour.Tells` says what can be heard of a source that behaves as told, and `Undisturbed` is a
  run in which nothing else is heard and no lookup is called or given up;
* `State.Bides` says that the schedule fetches neither now nor when it runs next;
* `Course` lists how far the lookup can have come, and what the core is like then;
* `Answered` is the account of the cache at the moment of the answer;
* `course_step` : the lookup goes on, or is answered in this way;
* `answer_undisturbed` : every run comes by that moment before there is an answer.

The proof: until its own fetch has ended, either the guard is free and nobody has a use for it, or
the refresh that the lookup has begun holds it.  Whoever else runs then leaves the core alone.
After the fetch the rate limit keeps everybody from the next one at that instant.
-/

namespace BearerAuth.KeyCache

open BearerAuth.KeyCache.Core

variable {p : Policy} {source : Behaviour} {b s t u : State} {as bs : List Action} {a : Action}
  {task : Task} {kid : String} {phase : LookupPhase} {l : Lookup} {since now : Instant}
  {events : List Event} {keys : KeySet} {stops : Bool} {answer : Option Answer}

/-! ### Sources that behave as told -/

namespace Behaviour

/-- What a fetch hears at some time of a source that it has asked since another. -/
def heard (source : Behaviour) (since now : Instant) : Option Answer :=
  if since + source.delay.nanos ≤ now then some source.answer else none

/-- What is heard in an action is what the source has to say by then, to a fetch that is on the way
or starts now, and time does not pass by the end of a fetch. -/
def Tells (source : Behaviour) (s : State) : Action → Prop
  | .run task _ answer =>
    answer = source.heard ((s.flights.find? (·.1 == task)).elim s.now (·.2)) s.now
  | .advance time => ∀ f ∈ s.flights, time ≤ f.2 + source.delay.nanos
  | _ => True

end Behaviour

theorem nanos_bounded (p : Policy) (source : Behaviour) :
    (p.bounded source).1.nanos = min source.delay.nanos p.options.timeout.nanos := by
  unfold Policy.bounded
  split <;> simp <;> omega

/-- A fetch ends with the first of the answer and the timeout, and with the answer if both come at
the same time. -/
theorem fetchEnd?_heard (time : s.now = since + (p.bounded source).1.nanos) :
    s.fetchEnd? p since (source.heard since s.now) = some (p.bounded source).2 := by
  unfold Policy.bounded at *
  by_cases within : source.delay.nanos ≤ p.options.timeout.nanos
  · rw [if_pos within] at time ⊢
    simp [Behaviour.heard, time, State.fetchEnd?]
  · rw [if_neg within] at time ⊢
    simp [Behaviour.heard, time, within, State.fetchEnd?]

theorem fetchEnd?_heard_eq_none (early : s.now < since + (p.bounded source).1.nanos) :
    s.fetchEnd? p since (source.heard since s.now) = none := by
  have unanswered : ¬ since + source.delay.nanos ≤ s.now ∧
      ¬ since + p.options.timeout.nanos ≤ s.now := by
    rw [nanos_bounded] at early
    unfold Instant at *
    omega
  simp [Behaviour.heard, State.fetchEnd?, unanswered]

theorem bounded_ne_crashed (sound : source.answer.outcome ≠ .crashed) :
    (p.bounded source).2.outcome ≠ .crashed := by
  unfold Policy.bounded
  split <;> simp_all

/-! ### Runs -/

/-- The action neither calls a lookup nor gives one up. -/
def Action.Apart : Action → Prop
  | .call _ | .abort _ => False
  | _ => True

variable (p source) in
/-- A run in which no lookup is called or given up, while the source behaves as told. -/
inductive Undisturbed : State → List Action → State → Prop where
  /-- No action, no change. -/
  | refl (s : State) : Undisturbed s [] s
  /-- One action more. -/
  | tail {s t u : State} {as : List Action} {a : Action} (before : Undisturbed s as t)
    (apart : a.Apart) (tells : source.Tells t a) (last : step p t a = some u) :
    Undisturbed s (as ++ [a]) u

namespace Undisturbed

theorem reaches (h : Undisturbed p source s as u) : Reaches p s as u := by
  induction h with
  | refl => exact .refl _
  | tail _ _ _ last ih => exact .tail ih last

theorem trans (h : Undisturbed p source s as t) (h' : Undisturbed p source t bs u) :
    Undisturbed p source s (as ++ bs) u := by
  induction h' with
  | refl => simpa using h
  | tail _ apart tells last ih => rw [← List.append_assoc]; exact .tail ih apart tells last

theorem single (apart : a.Apart) (tells : source.Tells s a) (next : step p s a = some u) :
    Undisturbed p source s [a] u := .tail (.refl s) apart tells next

end Undisturbed

/-! ### Who leaves the core alone -/

namespace State

/-- The schedule fetches neither now nor when it runs next: another task holds the guard, or the
guard is free and no tick is due. -/
structure Bides (s : State) : Prop where
  /-- It does not fetch. -/
  apart : s.schedule.started? = none
  /-- It does not hold the guard. -/
  elsewhere : s.holder ≠ some .schedule
  /-- While the guard is free, it is over or waits for a tick ahead. -/
  undue : s.holder = none →
    s.schedule.isOver = true ∨ ∃ due, s.schedule = .waiting due ∧ s.now < due

theorem Bides.of_held (apart : s.schedule.started? = none) (holder : s.holder = some task)
    (other : task ≠ .schedule) : s.Bides := by
  refine ⟨apart, ?_, fun free => ?_⟩
  · rw [holder]
    simpa using other
  · rw [holder] at free
    cases free

theorem Bides.reschedule (h : s.Bides) {schedule : Schedule}
    (core : u.core = { s.core with schedule }) (apart : schedule.started? = none)
    (undue : s.holder = none →
      schedule.isOver = true ∨ ∃ due, schedule = .waiting due ∧ s.now < due) : u.Bides := by
  have now : u.now = s.now := congrArg Core.now core
  have holder : u.holder = s.holder := congrArg Core.holder core
  have same : u.schedule = schedule := congrArg Core.schedule core
  refine ⟨same ▸ apart, holder ▸ h.elsewhere, fun free => ?_⟩
  rw [same, now]
  exact undue (holder ▸ free)

theorem Bides.congr (h : s.Bides) (core : u.core = s.core) : u.Bides :=
  have moved : u.core = { s.core with schedule := s.schedule } := core
  h.reschedule moved h.apart h.undue

theorem Bides.runSchedule (h : s.Bides) (stops : Bool) (answer : Option Answer) :
    (∃ schedule, (s.runSchedule p stops answer).core = { s.core with schedule }) ∧
      (s.runSchedule p stops answer).Bides := by
  have stays : (∃ schedule, s.core = { s.core with schedule }) ∧ s.Bides := ⟨⟨_, rfl⟩, h⟩
  unfold State.runSchedule
  split
  · rename_i starting
    refine ⟨⟨_, core_rest s _⟩, h.reschedule (core_rest s _) rfl fun free => ?_⟩
    rcases h.undue free with ended | ⟨due, waiting, -⟩
    · rw [starting] at ended
      cases ended
    · cases starting.symm.trans waiting
  · rename_i due waiting
    split
    · have ended := core_endSchedule (s.note [.scheduleStopped]) .ended
      exact ⟨⟨_, ended⟩, h.reschedule ended rfl fun _ => .inl rfl⟩
    split
    · rename_i past
      cases holder : s.holder with
      | none =>
        rcases h.undue holder with ended | ⟨due', waiting', ahead⟩
        · rw [waiting] at ended
          cases ended
        · cases waiting.symm.trans waiting'
          exact absurd past (Nat.not_le.2 ahead)
      | some other =>
        rw [tick_of_held holder fun own => h.elsewhere (own ▸ holder)]
        refine ⟨⟨_, rfl⟩, h.reschedule rfl rfl fun free => ?_⟩
        rw [holder] at free
        cases free
    · exact stays
  · rw [if_neg h.elsewhere]
    exact stays
  · rename_i fetching
    have apart := h.apart
    rw [fetching] at apart
    cases apart
  · exact stays

theorem core_runWatch {w : Watch} (off : s.holder ≠ some (.watch w.id))
    (unasked : s.holder = none → s.queue = []) : (s.runWatch w).core = s.core := by
  unfold runWatch
  split
  · rfl
  split
  · rfl
  dsimp only
  cases holder : s.holder with
  | none =>
    rw [ask_of_free holder, if_pos rfl, core_giveUp]
    exact (core_release _).trans (by simp [disclose, unasked holder, core, holder])
  | some other =>
    have asked : (s.ask (.watch w.id)).core = s.core := by
      rw [core_ask, holder]
      simp [core, holder]
    have still : (s.ask (.watch w.id)).holder ≠ some (.watch w.id) := by
      rw [show (s.ask (.watch w.id)).holder = s.holder from congrArg Core.holder asked]
      exact off
    rw [if_neg still, asked]

theorem runLookup_of_sits (sits : s.Sits l) : s.runLookup p l = s := by
  rcases sits with ⟨queued, off⟩ | refreshing | done
  · simp [runLookup, queued, off]
  · simp [runLookup, refreshing]
  · unfold runLookup
    generalize l.phase = phase at *
    cases phase with
    | called | queued | refreshing | joined => cases done
    | found | failed | aborted => rfl

end State

/-- Others than the schedule and the lookup with its refresh leave the core and the lookups
alone. -/
theorem core_step_of_apart (orderly : s.Orderly none)
    (unwatched : ∀ id, s.holder ≠ some (.watch id)) (hs : step p s a = some u) (apart : a.Apart)
    (still : ∀ time, a ≠ .advance time) (unscheduled : a.subject? ≠ some .schedule)
    (sits : ∀ id l, a.subject? = some (.lookup id) → s.lookup? id = some l → s.Sits l)
    (grounded : ∀ id, a.subject? = some (.refresh id) → s.refresher? id = none) :
    u.core = s.core ∧ u.lookups = s.lookups := by
  have same (kept : Keeps s u) : u.lookups = s.lookups := kept.lookups
  cases step_eq_some_iff.1 hs with
  | call | abort => exact apart.elim
  | watch => exact ⟨by simp, same ((State.keeps_wake _ _).after rfl rfl)⟩
  | close => exact ⟨by simp, same (State.keeps_close s)⟩
  | drop => exact ⟨State.core_giveUp _, same ((State.keeps_giveUp _).after rfl rfl)⟩
  | wake t => exact ⟨by simp, same (State.keeps_wake s t)⟩
  | note => exact ⟨rfl, rfl⟩
  | advance time => exact absurd rfl (still time)
  | run task stops answer _ runs =>
    cases runs with
    | unknown => exact ⟨rfl, rfl⟩
    | lookup l known =>
      rw [State.runLookup_of_sits (s := s.unwake _) (sits l.id l rfl known)]
      exact ⟨rfl, rfl⟩
    | refresh r known => cases (grounded r.id rfl).symm.trans known
    | schedule => exact absurd rfl unscheduled
    | watch w =>
      exact ⟨State.core_runWatch (s := s.unwake _) (unwatched w.id) orderly.free,
        (State.keeps_runWatch (s.unwake _) w).lookups⟩
    | closing c =>
      exact ⟨State.core_runClosing (s.unwake _) c,
        (State.keeps_runClosing (s.unwake _) c).lookups⟩

/-! ### How far the lookup has come -/

variable (p b kid) in
/-- A lookup called in `b` is due a refresh. -/
structure Due : Prop where
  /-- Its key is not in use. -/
  missing : b.keys.get? kid = none
  /-- The source can change. -/
  polling : p.polling = true
  /-- No attempt was completed less than the rate limit ago. -/
  allowed : b.limited p = false

namespace Core

/-- The core after a fetch that has started since and has ended at some time. -/
def fetched (c : Core) (time : Instant) (how : FetchEnd) : Core :=
  { c with now := time, fetches := c.fetches + 1 }.enter how

theorem lastAttempt_fetched (c : Core) (time : Instant) {how : FetchEnd} (sane : how ≠ .crashed) :
    (c.fetched time how).ledger.lastAttempt = some time := by
  cases how with
  | keys | failed => rfl
  | crashed => exact absurd rfl sane

end Core

variable (p source b) in
/-- When the fetch of a lookup called in `b` ends. -/
def arrivalOf : Instant := b.now + (p.bounded source).1.nanos

/-- How far a lookup called in `b` has come, and what the core is like. -/
inductive Course (p : Policy) (source : Behaviour) (b : State) (kid : String) (s : State) :
    LookupPhase → Prop where
  /-- It has not run. -/
  | called (core : s.core = { b.core with schedule := s.schedule }) (bides : s.Bides) :
    Course p source b kid s .called
  /-- It has begun a refresh, whose fetch has not started. -/
  | begun (due : Due p b kid)
    (core : s.core = { b.core with
      holder := some (.refresh b.nextId)
      refreshers := [⟨b.nextId, none⟩]
      schedule := s.schedule })
    (bides : s.Bides) : Course p source b kid s .refreshing
  /-- The fetch is on the way. -/
  | fetching (due : Due p b kid)
    (core : s.core = { b.core with
      now := s.now
      fetches := b.fetches + 1
      holder := some (.refresh b.nextId)
      refreshers := [⟨b.nextId, some b.now⟩]
      schedule := s.schedule })
    (bides : s.Bides) (time : s.now ≤ arrivalOf p source b) :
    Course p source b kid s .refreshing
  /-- The fetch has ended just now. -/
  | joined (due : Due p b kid)
    (store : SameStore (b.core.fetched (arrivalOf p source b) (p.bounded source).2.outcome) s.core)
    (landed : s.core.flights = []) :
    Course p source b kid s (.joined (p.bounded source).2.outcome.ending)

/-- A lookup called in `b` is answered just now. -/
structure Answered (p : Policy) (source : Behaviour) (b : State) (kid : String) (s : State)
    (answer : Except Failure VerificationKey) : Prop where
  /-- It is one more lookup, and the only one that has moved. -/
  lookups : s.lookups = b.inquiries kid (.ofAnswer answer)
  /-- If its key was in use, it has found it, and nothing has changed. -/
  known : ∀ key, b.keys.get? kid = some key → answer = .ok key ∧ SameStore b.core s.core
  /-- If not, and no refresh was due, its key is unknown, and nothing has changed. -/
  barred : b.keys.get? kid = none → p.polling = false ∨ b.limited p = true →
    answer = .error (.unknownKey kid) ∧ SameStore b.core s.core
  /-- If a refresh was due, there was one fetch, whose end has been entered, and the keys in use
  after that decide. -/
  fetched : Due p b kid →
    SameStore (b.core.fetched (arrivalOf p source b) (p.bounded source).2.outcome) s.core ∧
      answer = ((b.core.fetched (arrivalOf p source b) (p.bounded source).2.outcome).keys.get?
        kid).elim (.error (.unknownKey kid)) .ok

namespace Course

/-- Where only the schedule moves, without a fetch, the lookup is as far as before. -/
theorem of_bides (h : Course p source b kid s phase) {schedule : Schedule}
    (core : u.core = { s.core with schedule }) (bides : u.Bides) :
    Course p source b kid u phase := by
  have now : u.now = s.now := congrArg Core.now core
  have same : u.schedule = schedule := congrArg Core.schedule core
  cases h with
  | called before => exact .called (by rw [core, before, same]) bides
  | begun due before => exact .begun due (by rw [core, before, same]) bides
  | fetching due before _ time =>
    exact .fetching due (by rw [core, before, same, now]) bides (now ▸ time)
  | joined due store landed =>
    have apart : schedule.started? = none := same ▸ bides.apart
    refine .joined due (core ▸ store.reseat _ _ _) ?_
    rw [core]
    simpa [Core.flights, apart] using (List.append_eq_nil_iff.1 landed).1

theorem congr (h : Course p source b kid s phase) (bides : s.Bides) (core : u.core = s.core) :
    Course p source b kid u phase :=
  have moved : u.core = { s.core with schedule := s.schedule } := core
  h.of_bides moved (bides.congr core)

/-- While the lookup waits for its refresh, that holds the guard and is the only one. -/
theorem seat (h : Course p source b kid s .refreshing) :
    s.Bides ∧ s.holder = some (.refresh b.nextId) ∧
      ∃ started, s.refreshers = [⟨b.nextId, started⟩] := by
  cases h with
  | begun _ core bides | fetching _ core bides =>
    exact ⟨bides, congrArg Core.holder core, _, congrArg Core.refreshers core⟩

/-- While the lookup waits for its refresh, that has been on the way since the call, or starts its
fetch at once when it runs. -/
theorem launch (h : Course p source b kid s .refreshing) :
    Due p b kid ∧ s.Bides ∧ s.now ≤ arrivalOf p source b ∧
      (s.flights.find? (·.1 == .refresh b.nextId)).elim s.now (·.2) = b.now ∧
      ∃ r, s.refresher? b.nextId = some r ∧ r.id = b.nextId ∧ r.started.getD s.now = b.now ∧
        (s.launch r).core = { b.core with
          now := s.now
          fetches := b.fetches + 1
          holder := some (.refresh b.nextId)
          refreshers := [⟨b.nextId, some b.now⟩]
          schedule := s.schedule } := by
  cases h with
  | begun due core bides =>
    have now : s.now = b.now := congrArg Core.now core
    have only : s.refreshers = [⟨b.nextId, none⟩] := congrArg Core.refreshers core
    have flights : s.flights = [] := by
      rw [← State.flights_core]
      simp [Core.flights, State.core, only, bides.apart]
    refine ⟨due, bides, now ▸ Nat.le_add_right .., by simp [flights, now], ⟨b.nextId, none⟩,
      by simp [State.refresher?, only], rfl, now, ?_⟩
    rw [State.launch_of_none only rfl]
    change { s.core with
      fetches := s.core.fetches + 1, refreshers := [⟨b.nextId, some s.now⟩] } = _
    rw [core, now]
    rfl
  | fetching due core bides time =>
    have only : s.refreshers = [⟨b.nextId, some b.now⟩] := congrArg Core.refreshers core
    have flights : s.flights = [(.refresh b.nextId, b.now)] := by
      rw [← State.flights_core]
      simp [Core.flights, State.core, only, bides.apart]
    refine ⟨due, bides, time, by simp [flights], ⟨b.nextId, some b.now⟩,
      by simp [State.refresher?, only], rfl, rfl, ?_⟩
    rw [State.launch_of_some rfl]
    exact core

end Course

theorem State.AtRest.isOver (rest : b.AtRest p) (run : Reaches p (.load p since events keys) as b)
    (hl : l ∈ b.lookups) : l.phase.isOver = true := by
  by_contra going
  obtain ⟨f, hf⟩ := exists_flight_of_idle run.orderly run.attended rest.idle
    (run.numbered.mem_lookups_iff.1 hl) (by simpa using going)
  rw [State.flights_of_grounded rest.grounded rest.dozes.started?] at hf
  cases hf

/-- Of all lookups only the one that was called in `b` can move. -/
theorem eq_of_going (done : ∀ l ∈ b.lookups, l.phase.isOver = true)
    (same : s.lookups = b.inquiries kid phase) (hl : s.lookup? l.id = some l)
    (going : l.phase.isOver = false) : l = ⟨b.nextId, kid, b.now, phase⟩ := by
  have mem : l ∈ b.inquiries kid phase := same ▸ List.mem_of_find?_eq_some hl
  rcases List.mem_append.1 mem with old | own
  · rw [done l old] at going
    cases going
  · exact List.mem_singleton.1 own

section

variable (rest : b.AtRest p) (same : s.lookups = b.inquiries kid phase)
include rest same

theorem lookups_setPhase (next : LookupPhase) :
    (s.setPhase b.nextId next).lookups = b.inquiries kid next := by
  rw [State.setPhase_inquiries rest same]

theorem lookups_of_answered
    (moved : u.lookups =
      (s.setPhase b.nextId (s.conclusion ⟨b.nextId, kid, b.now, phase⟩)).lookups) :
    u.lookups = b.inquiries kid
      (.ofAnswer ((s.keys.get? kid).elim (.error (.unknownKey kid)) .ok)) := by
  rw [moved, lookups_setPhase rest same, State.conclusion_eq_ofAnswer]

end

/-! ### Its own turns -/

theorem refreshers_of_holder (sound : s.core.Sound p) (orderly : s.Orderly none) {id : Nat}
    (holder : s.holder = some (.refresh id)) (landed : s.core.flights = []) :
    s.refreshers = [⟨id, none⟩] ∧ s.schedule.started? = none := by
  obtain ⟨r, hr⟩ := orderly.wants (.refresh id)
    (List.mem_append_left _ (Option.mem_toList.2 holder))
  obtain ⟨own, only, apart, -⟩ := State.seat_of_refresher? sound hr
  have unstarted : r.started = none := by
    simpa [Core.flights, State.core, only, apart] using landed
  obtain ⟨id, started⟩ := r
  cases own
  cases unstarted
  exact ⟨only, apart⟩

theorem Due.not_grounds (h : Due p b kid) {id : Nat} {calledAt : Instant} :
    ¬ Grounds p b ⟨id, kid, calledAt, .called⟩ := by
  intro grounds
  cases grounds with
  | found there =>
    rw [h.missing] at there
    cases there
  | fixed polling => cases h.polling.symm.trans polling
  | limited limited => cases h.allowed.symm.trans limited
  | joined _ joined => cases joined

/-- A lookup that runs for the first time is answered, or begins a refresh that is due. -/
theorem course_of_run_lookup (rest : b.AtRest p) (sound : s.core.Sound p)
    (core : s.core = { b.core with schedule := s.schedule }) (bides : s.Bides)
    (same : s.lookups = b.inquiries kid .called)
    (hs : step p s (.run (.lookup b.nextId) stops answer) = some u) (orderly : u.Orderly none) :
    (u.lookups = b.inquiries kid .refreshing ∧ Course p source b kid u .refreshing) ∨
      ∃ answer, Answered p source b kid u answer := by
  have known : s.lookup? b.nextId = some ⟨b.nextId, kid, b.now, .called⟩ :=
    State.lookup?_inquiries rest same
  have free : s.holder = none := (congrArg Core.holder core).trans rest.free
  have keys : s.keys = b.keys := congrArg Core.keys core
  have ledger : s.ledger = b.ledger := congrArg Core.ledger core
  have now : s.now = b.now := congrArg Core.now core
  have limited : s.limited p = b.limited p := by
    rw [State.limited, ledger, now]
    rfl
  obtain rfl := eq_runLookup_of_step hs known
  have quiet := State.quiet_runLookup (s := s.unwake (.lookup b.nextId)) sound
    ⟨b.nextId, kid, b.now, .called⟩
  rcases State.passage_runLookup (p := p) (s.unwake (.lookup b.nextId))
    ⟨b.nextId, kid, b.now, .called⟩ stops answer with ⟨sits, -⟩ | ⟨phase, passes, awaits, kept⟩
  · rcases sits with ⟨queued, -⟩ | refreshing | finished
    · cases queued
    · cases refreshing
    · cases finished
  generalize (s.unwake (.lookup b.nextId)).runLookup p ⟨b.nextId, kid, b.now, .called⟩ = u at *
  have store : SameStore b.core u.core :=
    (core ▸ (SameStore.refl b.core).reseat _ _ _ : SameStore b.core s.core).trans quiet.toSameStore
  cases passes with
  | queued _ _ _ _ _ held =>
    have held : s.holder.isSome = true := held
    rw [free] at held
    cases held
  | begun _ _ _ _ missing polling allowed =>
    have landed : u.core.flights = [] := by
      rw [quiet.flights, show (s.unwake (.lookup b.nextId)).core = s.core from rfl, core]
      simp [Core.flights, State.core, rest.grounded, bides.apart]
    have holder : u.holder = some (.refresh b.nextId) := awaits
    obtain ⟨only, apart⟩ := refreshers_of_holder quiet.sound orderly holder landed
    refine .inl ⟨?_, .begun ⟨keys ▸ missing, polling rfl, limited ▸ allowed⟩ ?_ ?_⟩
    · exact kept.lookups.trans (lookups_setPhase (s := s.unwake _) rest same _)
    · exact Core.ext store.now store.keys store.ledger store.fetches store.reports holder only rfl
    · exact .of_held apart holder (by simp)
  | answered _ _ _ grounds =>
    have moved := lookups_of_answered (s := s.unwake (.lookup b.nextId)) rest same kept.lookups
    rw [show (s.unwake (.lookup b.nextId)).keys = b.keys from keys] at moved
    refine .inr ⟨_, moved, fun key there => ⟨?_, store⟩, fun missing _ => ⟨?_, store⟩,
      fun due => ?_⟩
    · rw [there]
      rfl
    · rw [missing]
      rfl
    · exact absurd (grounds.congr keys ledger now) due.not_grounds

theorem Course.runRefresh (rest : b.AtRest p) (h : Course p source b kid s .refreshing)
    (same : s.lookups = b.inquiries kid .refreshing) {r : Refresher}
    (known : s.refresher? b.nextId = some r) :
    ∃ phase, (s.runRefresh p r (source.heard b.now s.now)).lookups = b.inquiries kid phase ∧
      Course p source b kid (s.runRefresh p r (source.heard b.now s.now)) phase := by
  obtain ⟨due, bides, time, -, r', known', own, started, core⟩ := h.launch
  cases known.symm.trans known'
  have kept : (s.launch r).lookups = b.inquiries kid .refreshing :=
    (State.keeps_launch s r).lookups.trans same
  have ends := s.runRefresh_cases p r (source.heard b.now s.now)
  rw [started] at ends
  generalize s.launch r = n at *
  have now : n.now = s.now := congrArg Core.now core
  have holder : n.holder = some (.refresh b.nextId) := congrArg Core.holder core
  have only : n.refreshers = [⟨b.nextId, some b.now⟩] := congrArg Core.refreshers core
  have schedule : n.schedule = s.schedule := congrArg Core.schedule core
  have apart : n.schedule.started? = none := schedule ▸ bides.apart
  rcases Nat.eq_or_lt_of_le time with arrived | early
  · rw [fetchEnd?_heard arrived] at ends
    obtain ⟨_, ⟨⟩, ended⟩ := ends.resolve_left fun going => nomatch going.1
    rw [ended, own]
    have landed := State.landed_endRefresh (p := p) only apart (p.bounded source).2
    have stored : SameStore { b.core with
        now := arrivalOf p source b, fetches := b.fetches + 1 } n.core := by
      rw [core, arrived]
      exact ⟨rfl, rfl, rfl, rfl, rfl⟩
    rcases State.keeps_endRefresh (p := p) n b.nextId (p.bounded source).2 with
      ⟨other, -⟩ | ⟨-, -, joined⟩
    · exact absurd rfl (other _ (State.lookup?_inquiries rest kept))
    · exact ⟨_, joined.lookups.trans (lookups_setPhase rest kept _),
        .joined due ((stored.enter _).trans landed.store) landed.idle.flights⟩
  · rw [fetchEnd?_heard_eq_none early] at ends
    obtain ⟨-, going⟩ := ends.resolve_right fun ⟨_, ended, _⟩ => nomatch ended
    rw [going]
    refine ⟨_, kept, .fetching due ?_ (.of_held apart holder (by simp)) (now ▸ time)⟩
    rw [core, now, schedule]

/-! ### Steps -/

theorem course_of_advance {time : Instant} (rest : b.AtRest p) (orderly : s.Orderly none)
    (attended : s.Attended) (h : Course p source b kid s phase)
    (same : s.lookups = b.inquiries kid phase) (tells : source.Tells s (.advance time))
    (hs : step p s (.advance time) = some u) : Course p source b kid u phase := by
  obtain ⟨idle, later, due, rfl⟩ := eq_advance_of_step hs
  have attends := attended b.nextId _ (State.lookup?_inquiries rest same)
  cases h with
  | called | joined => simp [State.Attends, idle] at attends
  | begun _ core bides =>
    have holder : s.holder = some (.refresh b.nextId) := congrArg Core.holder core
    rcases orderly.served _ holder with running | ready | ⟨since, flying⟩
    · cases running
    · simp [idle] at ready
    · rw [← State.flights_core, core] at flying
      simp [Core.flights, bides.apart] at flying
  | fetching due' core bides =>
    have flying : (Task.refresh b.nextId, b.now) ∈ s.flights := by
      rw [← State.flights_core, core]
      simp [Core.flights]
    have told := tells _ flying
    have timeout := due _ (List.mem_append_right _ (List.mem_map_of_mem flying))
    have holder : s.holder = some (.refresh b.nextId) := congrArg Core.holder core
    refine .fetching due' ?_ (.of_held bides.apart holder (by simp)) ?_
    · exact congrArg (fun c => { c with now := time }) core
    · change time ≤ arrivalOf p source b
      rw [arrivalOf, nanos_bounded]
      unfold Instant at *
      omega

/-- After the fetch of the lookup everybody finds the rate limit, until the lookup is answered. -/
theorem course_of_joined (rest : b.AtRest p) (done : ∀ l ∈ b.lookups, l.phase.isOver = true)
    (limit : 0 < p.options.rateLimit.nanos) (sane : (p.bounded source).2.outcome ≠ .crashed)
    (sound : s.core.Sound p) (attended : s.Attended) (due : Due p b kid)
    (store : SameStore (b.core.fetched (arrivalOf p source b) (p.bounded source).2.outcome) s.core)
    (landed : s.core.flights = [])
    (same : s.lookups = b.inquiries kid (.joined (p.bounded source).2.outcome.ending))
    (apart : a.Apart) (hs : step p s a = some u) :
    (u.lookups = b.inquiries kid (.joined (p.bounded source).2.outcome.ending) ∧
        Course p source b kid u (.joined (p.bounded source).2.outcome.ending)) ∨
      ∃ answer, Answered p source b kid u answer := by
  -- nobody starts a fetch at this instant
  have braked : ¬ s.core.Allows p s.now := by
    intro allowed
    have now : s.now = arrivalOf p source b := store.now.trans (enter_now _ _)
    have completed : s.core.ledger.lastAttempt = some s.now := by
      rw [store.ledger, now]
      exact lastAttempt_fetched _ _ sane
    have late := allowed _ completed
    unfold Instant at *
    omega
  have calm : Calm s.core u.core := by
    obtain ⟨-, ⟨time, rfl, -, idle, -⟩ | ⟨task, how, turned⟩⟩ := turn_step sound hs
    · have attends := attended b.nextId _ (State.lookup?_inquiries rest same)
      simp [State.Attends, idle] at attends
    · generalize observe p s a u = marks at turned
      cases turned with
      | calm calm => exact calm
      | start _ allowed | startFinish _ allowed => exact absurd allowed braked
      | finish flying => rw [landed] at flying; cases flying
  have stored := store.trans calm.toSameStore
  rcases lookups_step sound hs with ⟨_, rfl, -⟩ | still | ⟨l, next, known, passes, moved⟩
  · exact apart.elim
  · exact .inl ⟨still.trans same, .joined due stored (calm.flights.trans landed)⟩
  obtain rfl := eq_of_going done same known passes.going
  cases passes with
  | queued _ _ called => cases called
  | begun _ _ unguarded => rcases unguarded with called | queued <;> contradiction
  | ended _ _ refreshing => cases refreshing
  | aborted => exact apart.elim
  | answered =>
    have keys : s.keys = _ := store.keys
    refine .inr ⟨_, lookups_of_answered rest same moved, fun key there => ?_, fun _ cause => ?_,
      fun _ => ⟨stored, by rw [keys]⟩⟩
    · cases due.missing.symm.trans there
    · rcases cause with fixed | limited
      · cases due.polling.symm.trans fixed
      · cases due.allowed.symm.trans limited

/-- Until the fetch has ended, others than the lookup and its refresh make no difference. -/
theorem course_of_bystander (done : ∀ l ∈ b.lookups, l.phase.isOver = true)
    (orderly : s.Orderly none) (h : Course p source b kid s phase)
    (same : s.lookups = b.inquiries kid phase) (bides : s.Bides)
    (unwatched : ∀ id, s.holder ≠ some (.watch id)) (apart : a.Apart)
    (still : ∀ time, a ≠ .advance time)
    (waits : a.subject? = some (.lookup b.nextId) → phase = .refreshing)
    (grounded : ∀ id, a.subject? = some (.refresh id) → s.refresher? id = none)
    (hs : step p s a = some u) :
    u.lookups = b.inquiries kid phase ∧ Course p source b kid u phase := by
  by_cases scheduled : a.subject? = some .schedule
  · obtain ⟨stops, answer, rfl⟩ : ∃ stops answer, a = .run .schedule stops answer := by
      cases a with
      | run task stops answer => cases scheduled; exact ⟨stops, answer, rfl⟩
      | _ => cases scheduled
    obtain rfl := eq_runSchedule_of_step hs
    obtain ⟨⟨_, core⟩, bides'⟩ :=
      (bides.congr (u := s.unwake .schedule) rfl).runSchedule (p := p) stops answer
    have frame := State.bystanders_runSchedule p (s.unwake .schedule) stops answer
    exact ⟨(congrArg Bystanders.lookups frame).trans same, h.of_bides core bides'⟩
  · have sits (id : Nat) (l : Lookup) (subject : a.subject? = some (.lookup id))
        (known : s.lookup? id = some l) : s.Sits l := by
      obtain rfl := State.id_of_lookup? known
      by_cases finished : l.phase.isOver = true
      · exact .inr (.inr finished)
      · obtain rfl := eq_of_going done same known (by simpa using finished)
        exact .inr (.inl (waits subject))
    obtain ⟨core, lookups⟩ :=
      core_step_of_apart orderly unwatched hs apart still scheduled sits grounded
    exact ⟨lookups.trans same, h.congr bides core⟩

theorem course_of_refreshing (rest : b.AtRest p) (done : ∀ l ∈ b.lookups, l.phase.isOver = true)
    (orderly : s.Orderly none) (h : Course p source b kid s .refreshing)
    (same : s.lookups = b.inquiries kid .refreshing) (apart : a.Apart)
    (still : ∀ time, a ≠ .advance time) (tells : source.Tells s a) (hs : step p s a = some u) :
    ∃ phase, u.lookups = b.inquiries kid phase ∧ Course p source b kid u phase := by
  obtain ⟨bides, holder, started, only⟩ := h.seat
  by_cases own : a.subject? = some (.refresh b.nextId)
  · cases a with
    | run task stops answer =>
      cases own
      obtain ⟨-, -, -, since, r, known, -⟩ := h.launch
      obtain rfl := eq_runRefresh_of_step hs known
      rw [show answer = source.heard b.now s.now from since ▸ tells]
      exact (h.congr (u := s.unwake (.refresh b.nextId)) bides rfl).runRefresh rest same known
    | _ => cases own
  · have grounded (id : Nat) (subject : a.subject? = some (.refresh id)) :
        s.refresher? id = none := by
      have other : b.nextId ≠ id := fun same => own (same ▸ subject)
      simp [State.refresher?, only, other]
    exact ⟨_, course_of_bystander done orderly h same bides (by simp [holder]) apart still
      (fun _ => rfl) grounded hs⟩

/-- **A lookup without company goes on, or is answered as it shall be**, whatever the step. -/
theorem course_step (rest : b.AtRest p) (done : ∀ l ∈ b.lookups, l.phase.isOver = true)
    (limit : 0 < p.options.rateLimit.nanos) (sane : (p.bounded source).2.outcome ≠ .crashed)
    (run : Reaches p (.load p since events keys) as s) (h : Course p source b kid s phase)
    (same : s.lookups = b.inquiries kid phase) (apart : a.Apart) (tells : source.Tells s a)
    (hs : step p s a = some u) :
    (∃ phase, u.lookups = b.inquiries kid phase ∧ Course p source b kid u phase) ∨
      ∃ answer, Answered p source b kid u answer := by
  by_cases moves : ∃ time, a = .advance time
  · obtain ⟨time, rfl⟩ := moves
    obtain ⟨-, -, -, rfl⟩ := eq_advance_of_step hs
    exact .inl ⟨phase, same, course_of_advance rest run.orderly run.attended h same tells hs⟩
  have still (time : Instant) (own : a = .advance time) : False := moves ⟨time, own⟩
  cases h with
  | called core bides =>
    have holder : s.holder = none := (congrArg Core.holder core).trans rest.free
    have grounded : s.refreshers = [] := (congrArg Core.refreshers core).trans rest.grounded
    by_cases own : a.subject? = some (.lookup b.nextId)
    · cases a with
      | run task stops answer =>
        cases own
        have line := (run.tail hs).orderly
        exact (course_of_run_lookup rest run.sound core bides same hs line).imp_left
          fun begun => ⟨_, begun⟩
      | abort => exact apart.elim
      | _ => cases own
    · exact .inl ⟨_, course_of_bystander done run.orderly (.called core bides) same bides
        (by simp [holder]) apart still (absurd · own) (by simp [State.refresher?, grounded]) hs⟩
  | begun due core bides =>
    exact .inl (course_of_refreshing rest done run.orderly (.begun due core bides) same apart still
      tells hs)
  | fetching due core bides time =>
    exact .inl (course_of_refreshing rest done run.orderly (.fetching due core bides time) same
      apart still tells hs)
  | joined due store landed =>
    exact (course_of_joined rest done limit sane run.sound run.attended due store landed same apart
      hs).imp_left fun joined => ⟨_, joined⟩

/-! ### Runs -/

theorem course_call (rest : b.AtRest p) (kid : String) :
    (b.call kid).lookups = b.inquiries kid .called ∧
      Course p source b kid (b.call kid) .called := by
  have core : (b.call kid).core = b.core := State.core_call b kid
  have bides : b.Bides := by
    refine ⟨rest.dozes.started?, by rw [rest.free]; nofun, fun _ => ?_⟩
    rcases rest.dozes with ⟨ended, -⟩ | ⟨-, -, due, waiting, ahead⟩
    · exact .inl ended
    · exact .inr ⟨due, waiting, ahead⟩
  refine ⟨by rw [State.call_eq_asked rest]; rfl, .called ?_ (bides.congr core)⟩
  rw [core, show (b.call kid).schedule = b.schedule from congrArg Core.schedule core]
  rfl

theorem Course.le_arrivalOf (h : Course p source b kid s phase) : s.now ≤ arrivalOf p source b := by
  have later : b.now ≤ arrivalOf p source b := Nat.le_add_right ..
  cases h with
  | called core | begun _ core => exact Nat.le_trans (Nat.le_of_eq (congrArg Core.now core)) later
  | fetching _ _ _ time => exact time
  | joined _ store => exact Nat.le_of_eq (store.now.trans (enter_now _ _))

theorem Course.answer?_eq_none (h : Course p source b kid s phase) : phase.answer? = none := by
  cases h <;> rfl

/-- The account leaves no choice of the answer. -/
theorem Answered.unique {r r' : Except Failure VerificationKey} (h : Answered p source b kid s r)
    (h' : Answered p source b kid t r') : r = r' := by
  cases there : b.keys.get? kid with
  | some key => exact (h.known key there).1.trans (h'.known key there).1.symm
  | none =>
    by_cases barred : p.polling = false ∨ b.limited p = true
    · exact (h.barred there barred).1.trans (h'.barred there barred).1.symm
    · have due : Due p b kid := ⟨there, by grind, by grind⟩
      exact (h.fetched due).2.trans (h'.fetched due).2.symm

/-- **A run without company comes by the answer**, or the lookup is still on its way. -/
theorem Undisturbed.course (rest : b.AtRest p) (limit : 0 < p.options.rateLimit.nanos)
    (sane : (p.bounded source).2.outcome ≠ .crashed) (owned : b.owned = true)
    (run : Reaches p (.load p since events keys) as b)
    (h : Undisturbed p source (b.call kid) bs u) :
    (∃ phase, u.lookups = b.inquiries kid phase ∧ Course p source b kid u phase) ∨
      ∃ answer before after t, bs = before ++ after ∧
        Undisturbed p source (b.call kid) before t ∧ Undisturbed p source t after u ∧
        Answered p source b kid t answer := by
  have called : Reaches p (.load p since events keys) (as ++ [.call kid]) (b.call kid) :=
    run.tail (if_pos owned)
  generalize start : b.call kid = s at *
  induction h with
  | refl =>
    subst start
    exact .inl ⟨_, course_call rest kid⟩
  | tail former apart tells last ih =>
    rcases ih with ⟨_, same, course⟩ | ⟨r, first, later, t, rfl, before, after, answered⟩
    · rcases course_step rest (fun l hl => rest.isOver run hl) limit sane
        (called.trans former.reaches) course same apart tells last with going | ⟨r, answered⟩
      · exact .inl going
      · exact .inr ⟨r, _, [], _, (List.append_nil _).symm, .tail former apart tells last, .refl _,
          answered⟩
    · exact .inr ⟨r, first, _, t, List.append_assoc _ _ _, before, .tail after apart tells last,
        answered⟩

/-- **A lookup in whatever order.**  In a cache that has been reached in any way, in which nothing
can run and the guard is free, a key is looked up.  Whatever happens then, as long as no lookup is
called or given up and the source behaves as told: the lookup waits no longer than a fetch may last,
and when there is an answer, the run has come by the moment at which it was given.  At that moment
no lookup has moved but this one.  If the key was in use it has been found, and nothing has changed.
If it was not, and the source never changes or the rate limit stood against a refresh, the key is
unknown, and nothing has changed.  Otherwise there has been one fetch, over just now, after its
duration or the timeout, whatever is shorter; its end has been entered, and the keys in use after
that have decided. -/
theorem answer_undisturbed (run : Reaches p (.load p since events keys) as s)
    (settled : s.Settled p) (free : s.holder = none) (owned : s.owned = true)
    (limit : 0 < p.options.rateLimit.nanos) (sound : source.answer.outcome ≠ .crashed)
    (h : Undisturbed p source (s.call kid) bs u) :
    (u.answer? s.nextId = none → u.now ≤ s.now + min source.delay.nanos p.options.timeout.nanos) ∧
    ∀ r, u.answer? s.nextId = some r → ∃ before after t, bs = before ++ after ∧
      Undisturbed p source (s.call kid) before t ∧ Undisturbed p source t after u ∧
      Answered p source s kid t r := by
  have rest : s.AtRest p := State.atRest_of_reaches run settled free owned
  have called : Reaches p (.load p since events keys) (as ++ [.call kid]) (s.call kid) :=
    run.tail (if_pos owned)
  rcases h.course rest limit (bounded_ne_crashed sound) owned run with
    ⟨phase, same, course⟩ | ⟨r, first, later, t, split, before, after, answered⟩
  · have open_ : u.answer? s.nextId = none := by
      rw [State.answer?, State.lookup?_inquiries rest same]
      exact course.answer?_eq_none
    refine ⟨fun _ => ?_, fun r given => ?_⟩
    · rw [← nanos_bounded]
      exact course.le_arrivalOf
    · rw [open_] at given
      cases given
  · have given : u.answer? s.nextId = some r := by
      have found := lookup?_reaches_of_isOver (called.trans before.reaches) after.reaches
        (State.lookup?_inquiries rest answered.lookups) (by cases r <;> rfl)
      rw [State.answer?, found]
      exact LookupPhase.answer?_ofAnswer r
    refine ⟨fun none => ?_, fun r' given' => ?_⟩
    · rw [given] at none
      cases none
    · cases given.symm.trans given'
      exact ⟨first, later, t, split, before, after, answered⟩

end BearerAuth.KeyCache
