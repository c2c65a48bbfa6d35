import BearerAuth.Proofs.KeyCache.Crashes
import BearerAuth.Proofs.KeyCache.Usage

/-!
# How the schedule moves

The schedule waits for a tick, takes it up, handles it as soon as it has the guard, and waits for
the tick after it.  It handles a tick by fetching, unless the rate limit forbids that.

* `Shift` lists all that a run makes of the schedule, and `Handles` all that handling a tick does;
* `shift_step` : no step but a run of the schedule moves it;
* `State.Poised` : a schedule that has to do something is ready for it, or stands in line for the
  guard;
* `poised_step` : every step keeps this invariant.

The proof: one lemma for each function of the schedule, from the inside out.  A run that makes the
schedule wait looks at the flag, and so the flag never finds it waiting unseen.
-/

namespace BearerAuth.KeyCache

open BearerAuth.KeyCache.Core

variable {p : Policy} {s t u : State} {as : List Action} {a : Action} {task : Task} {id : Nat}
  {now : Instant} {events : List Event} {keys : KeySet} {stops : Bool} {answer : Option Answer}

/-! ### What a run makes of the schedule -/

/-- The schedule after a fetch of its own, given the end of the fetch and the next tick. -/
def FetchEnd.scheduleAfter (next : Instant) : FetchEnd → Schedule
  | .keys _ | .failed _ => .waiting next
  | .crashed => .broken

variable (p s) in
/-- What becomes of the schedule when it handles a tick; `how` is the end that a fetch comes to. -/
inductive Handles (next : Instant) (how : FetchEnd) : Schedule → Prop where
  /-- The tick is skipped. -/
  | skipped : Handles next how (.waiting next)
  /-- A fetch starts. -/
  | fetching : Handles next how (.fetching next s.now)
  /-- A fetch starts and ends at once. -/
  | landed : Handles next how (how.scheduleAfter next)

variable (p s) in
/-- What a run makes of the schedule; `how` is the end that a fetch comes to. -/
inductive Shift (how : FetchEnd) : Schedule → Prop where
  /-- It begins to wait for its first tick. -/
  | begun (starting : s.schedule = .starting) :
    Shift how (.waiting (s.now + p.options.interval.nanos))
  /-- It stops. -/
  | stopped {due : Instant} (waiting : s.schedule = .waiting due) (cancelled : s.cancelled = true) :
    Shift how .ended
  /-- It takes up a tick, and has to wait for the guard. -/
  | queued {due : Instant} (waiting : s.schedule = .waiting due) (past : due ≤ s.now) :
    Shift how (.queued (s.nextTick p due))
  /-- It takes up a tick and handles it. -/
  | taken {due : Instant} {after : Schedule} (waiting : s.schedule = .waiting due)
    (past : due ≤ s.now) (handles : Handles s (s.nextTick p due) how after) : Shift how after
  /-- It handles a tick that it had taken up before. -/
  | served {next : Instant} {after : Schedule} (queued : s.schedule = .queued next)
    (handles : Handles s next how after) : Shift how after
  /-- Its fetch ends. -/
  | landed {next started : Instant} (fetching : s.schedule = .fetching next started) :
    Shift how (how.scheduleAfter next)
  /-- It stays where it is. -/
  | same (begun : s.schedule ≠ .starting)
    (patient : ∀ due, s.schedule = .waiting due → s.cancelled = false ∧ s.now < due) :
    Shift how s.schedule

theorem FetchEnd.scheduleAfter_ne_queued {next : Instant} (how : FetchEnd) (n : Instant) :
    how.scheduleAfter next ≠ .queued n := by
  cases how <;> nofun

theorem Handles.ne_queued {next : Instant} {how : FetchEnd} {after : Schedule}
    (h : Handles s next how after) (n : Instant) : after ≠ .queued n := by
  cases h with
  | skipped | fetching => nofun
  | landed => exact how.scheduleAfter_ne_queued n

theorem Handles.congr {next : Instant} {how : FetchEnd} {after : Schedule}
    (h : Handles t next how after) (now : t.now = s.now) : Handles s next how after := by
  cases h with
  | skipped => exact .skipped
  | fetching => exact now ▸ .fetching
  | landed => exact .landed

theorem Shift.of_woken {woken : List Task} {how : FetchEnd} {after : Schedule}
    (h : Shift p { s with woken } how after) : Shift p s how after := by
  cases h with
  | begun starting => exact .begun starting
  | stopped waiting cancelled => exact .stopped waiting cancelled
  | queued waiting past => exact .queued waiting past
  | taken waiting past handles => exact .taken waiting past (handles.congr rfl)
  | served queued handles => exact .served queued (handles.congr rfl)
  | landed fetching => exact .landed fetching
  | same begun patient => exact .same begun patient

/-- A schedule that has a tick in hand and wants the guard stands in line for it. -/
def State.InLine (s : State) : Prop := ∀ next, s.schedule = .queued next → .schedule ∈ s.line

/-- The schedule does not wait for a tick while it shall stop, unless it is ready to run. -/
def State.Alert (s : State) : Prop :=
  s.cancelled = true → ∀ due, s.schedule = .waiting due → .schedule ∈ s.woken

namespace State

@[simp] theorem schedule_rest (s : State) (due : Instant) :
    (s.rest due).schedule = .waiting due := congrArg Core.schedule (core_rest s due)

@[simp] theorem schedule_endSchedule (s : State) (how : Schedule) :
    (s.endSchedule how).schedule = how := congrArg Core.schedule (core_endSchedule s how)

theorem alert_of_apart (apart : ∀ due, s.schedule ≠ .waiting due) : s.Alert :=
  fun _ due waiting => absurd waiting (apart due)

theorem inLine_of_apart (apart : ∀ next, s.schedule ≠ .queued next) : s.InLine :=
  fun next queued => absurd queued (apart next)

/-- The schedule looks at the flag before it goes to wait. -/
theorem alert_rest (s : State) (due : Instant) : (s.rest due).Alert := by
  unfold rest
  split
  · exact fun _ _ _ => List.mem_cons_self
  · rename_i patient
    rintro (cancelled : s.cancelled = true)
    simp [cancelled] at patient

theorem schedule_endTick (s : State) (next : Instant) (end_ : Answer) :
    (s.endTick p next end_).schedule = end_.outcome.scheduleAfter next ∧
      (s.endTick p next end_).Alert := by
  unfold endTick
  dsimp only
  split <;> rename_i how <;> rw [how]
  · exact ⟨schedule_rest _ next, alert_rest _ next⟩
  · exact ⟨schedule_rest _ next, alert_rest _ next⟩
  · refine ⟨schedule_endSchedule _ .broken, alert_of_apart fun due waiting => ?_⟩
    rw [schedule_endSchedule] at waiting
    cases waiting

theorem schedule_runFetch (s : State) (next started : Instant) (answer : Option Answer) :
    s.runFetch p next started answer = s ∨
      (s.runFetch p next started answer).schedule = (p.outcome answer).scheduleAfter next ∧
        (s.runFetch p next started answer).Alert := by
  unfold runFetch
  split
  · rename_i end_ found
    rw [← fetchEnd?_outcome found]
    exact .inr (schedule_endTick s next end_)
  · exact .inl rfl

theorem handles_handle (s : State) (next : Instant) (answer : Option Answer) :
    Handles s next (p.outcome answer) (s.handle p next answer).schedule ∧
      (s.handle p next answer).Alert := by
  unfold handle
  split
  · rw [schedule_rest]
    exact ⟨.skipped, alert_rest _ next⟩
  · generalize hs' : ({ s with
      fetches := s.fetches + 1, schedule := .fetching next s.now } : State) = s'
    have fetching : s'.schedule = .fetching next s.now := by subst hs'; rfl
    rcases schedule_runFetch (p := p) s' next s.now answer with same | ⟨after, alert⟩
    · rw [same, fetching]
      refine ⟨.fetching, alert_of_apart fun due waiting => ?_⟩
      rw [fetching] at waiting
      cases waiting
    · rw [after]
      exact ⟨.landed, alert⟩

theorem mem_line_ask (s : State) (t : Task) : t ∈ (s.ask t).line := by
  unfold ask
  split <;> simp [line]

theorem shift_tick {due : Instant} (waiting : s.schedule = .waiting due) (past : due ≤ s.now) :
    Shift p s (p.outcome answer) (s.tick p due answer).schedule ∧ (s.tick p due answer).Alert ∧
      (s.tick p due answer).InLine := by
  unfold tick
  dsimp only
  generalize hs' : ({ s with schedule := .queued (s.nextTick p due) } : State).ask .schedule = s'
  have core := hs' ▸ core_ask { s with schedule := .queued (s.nextTick p due) } .schedule
  have queued : s'.schedule = .queued (s.nextTick p due) := congrArg Core.schedule core
  split
  · obtain ⟨handles, alert⟩ := handles_handle (p := p) s' (s.nextTick p due) answer
    have handles : Handles s _ _ _ := handles.congr (congrArg Core.now core)
    exact ⟨.taken waiting past handles, alert, inLine_of_apart handles.ne_queued⟩
  · rw [queued]
    refine ⟨.queued waiting past, alert_of_apart ?_, fun _ _ => hs' ▸ mem_line_ask _ _⟩
    rw [queued]
    nofun

theorem InLine.stays {how : FetchEnd} (line : s.InLine) (begun : s.schedule ≠ .starting)
    (patient : ∀ due, s.schedule = .waiting due → s.cancelled = false ∧ s.now < due) :
    Shift p s how s.schedule ∧ s.Alert ∧ s.InLine := by
  refine ⟨.same begun patient, fun up due waiting => ?_, line⟩
  rw [(patient due waiting).1] at up
  cases up

/-- **A run of the schedule makes no more of it.**  Where it goes to wait it has looked at the flag,
and where it waits for the guard it stands in line. -/
theorem InLine.shift_runSchedule (line : s.InLine) (p : Policy) (stops : Bool)
    (answer : Option Answer) :
    Shift p s (p.outcome answer) (s.runSchedule p stops answer).schedule ∧
      (s.runSchedule p stops answer).Alert ∧ (s.runSchedule p stops answer).InLine := by
  unfold State.runSchedule
  split
  · rename_i starting
    rw [schedule_rest]
    exact ⟨.begun starting, alert_rest s _, inLine_of_apart (by rw [schedule_rest]; nofun)⟩
  · rename_i due waiting
    split
    · rename_i stopped
      have ended := schedule_endSchedule (s.note [.scheduleStopped]) .ended
      rw [ended]
      exact ⟨.stopped waiting (Bool.and_eq_true_iff.1 stopped).1,
        alert_of_apart (by rw [ended]; nofun), inLine_of_apart (by rw [ended]; nofun)⟩
    split
    · rename_i past
      exact shift_tick waiting past
    · rename_i goes early
      have early : s.now < due := Nat.lt_of_not_le early
      have going : s.cancelled = false := by simpa [early] using goes
      refine line.stays (by rw [waiting]; nofun) fun d hd => ?_
      cases waiting.symm.trans hd
      exact ⟨going, early⟩
  · rename_i next queued
    split
    · obtain ⟨handles, alert⟩ := handles_handle (p := p) s next answer
      exact ⟨.served queued handles, alert, inLine_of_apart handles.ne_queued⟩
    · exact line.stays (by rw [queued]; nofun) (by rw [queued]; nofun)
  · rename_i next started fetching
    rcases schedule_runFetch (p := p) s next started answer with same | ⟨after, alert⟩
    · rw [same]
      exact line.stays (by rw [fetching]; nofun) (by rw [fetching]; nofun)
    · refine ⟨after ▸ .landed fetching, alert, inLine_of_apart ?_⟩
      rw [after]
      exact FetchEnd.scheduleAfter_ne_queued _
  · rename_i begun waiting _ _
    exact line.stays begun fun due off => absurd off (waiting due)

end State

/-! ### Steps -/

theorem Shift.ne_starting {how : FetchEnd} {after : Schedule} (h : Shift p s how after) :
    after ≠ .starting := by
  have handled {n : State} {next : Instant} {sch : Schedule} (handles : Handles n next how sch) :
      sch ≠ .starting := by
    cases handles with
    | skipped | fetching => nofun
    | landed => cases how <;> nofun
  cases h with
  | begun | stopped | queued => nofun
  | taken _ _ handles => exact handled handles
  | served _ handles => exact handled handles
  | landed => cases how <;> nofun
  | same begun => exact begun

theorem mem_line_step (sound : s.core.Sound p) (hs : step p s a = some u) {t : Task}
    (ht : t ∈ s.line) : t ∈ u.line ∨ a.subject? = some t := by
  cases step_eq_some_iff.1 hs with
  | call kid =>
    have line : (s.call kid).line = s.line := (State.stays_wake _ _).line
    exact .inl (line ▸ ht)
  | abort l =>
    have places := State.places_abort s l.id
    exact ((places t ht).imp_left fun own => congrArg some own.symm).symm
  | watch =>
    have line : s.watch.line = s.line := (State.stays_wake _ _).line
    exact .inl (line ▸ ht)
  | close => exact .inl ((State.stays_close s).line ▸ ht)
  | drop => exact .inl (s.stays_drop.line ▸ ht)
  | wake task => exact .inl ((State.stays_wake s task).line ▸ ht)
  | run task _ _ _ runs =>
    have places := State.places_runs (s := s.unwake task) sound runs
    exact ((places t ht).imp_left fun own => congrArg some own.symm).symm
  | advance | note => exact .inl ht

/-- **What a step makes of the schedule.** -/
theorem shift_step (line : s.InLine) (hs : step p s a = some u) :
    (∃ stops answer, a = .run .schedule stops answer ∧
        Shift p s (p.outcome answer) u.schedule ∧ u.Alert ∧ u.InLine) ∨
      (∀ stops answer, a ≠ .run .schedule stops answer) ∧ Spares s u := by
  by_cases own : ∃ stops answer, a = .run .schedule stops answer
  · obtain ⟨stops, answer, rfl⟩ := own
    rw [eq_runSchedule_of_step hs]
    have line' : (s.unwake .schedule).InLine := line
    obtain ⟨shift, alert, line⟩ := line'.shift_runSchedule p stops answer
    exact .inl ⟨stops, answer, rfl, shift.of_woken, alert, line⟩
  · have other stops answer (same : a = .run .schedule stops answer) := own ⟨stops, answer, same⟩
    exact .inr ⟨other, spares_step hs other⟩

/-! ### Nothing is left behind -/

/-- The schedule is ready for what it has to do, and shall stop if nobody uses the cache. -/
structure State.Poised (s : State) : Prop where
  /-- Until it has run, it is ready to run. -/
  begins : s.schedule = .starting → .schedule ∈ s.woken
  /-- It does not wait for a tick while it shall stop. -/
  alert : s.Alert
  /-- It stands in line if it wants the guard. -/
  line : s.InLine
  /-- It shall stop if nobody uses the cache. -/
  tended : s.Tended
  /-- It shall stop if anybody has stopped it. -/
  told : s.cancelled = false → s.closings = []

theorem poised_load (now : Instant) (events : List Event) (keys : KeySet) :
    (State.load p now events keys).Poised where
  begins := by
    simp only [State.load]
    split <;> simp
  alert := nofun
  line := by
    intro next queued
    simp only [State.load] at queued
    split at queued <;> cases queued
  tended := State.tended_of_owned rfl
  told := fun _ => rfl

/-- **No step leaves the schedule behind.** -/
theorem poised_step (sound : s.core.Sound p) (h : s.Poised) (hs : step p s a = some u) :
    u.Poised := by
  have tended := tended_step h.tended hs
  rcases shift_step h.line hs with ⟨stops, answer, rfl, shift, alert, line⟩ | ⟨other, spares⟩
  · have usage := usage_step_schedule hs
    refine ⟨fun starting => absurd starting shift.ne_starting, alert, line, tended, ?_⟩
    rw [show u.cancelled = s.cancelled from congrArg Usage.cancelled usage,
      show u.closings = s.closings from
        congrArg Guests.closings (congrArg Usage.guests usage)]
    exact h.told
  · refine ⟨fun starting => ?_, fun up due waiting => ?_, fun next queued => ?_, tended, ?_⟩
    · exact spares.ready (h.begins (spares.schedule ▸ starting))
    · rcases spares.flag with same | ⟨-, woken⟩
      · exact spares.ready (h.alert (same ▸ up) due (spares.schedule ▸ waiting))
      · exact woken due waiting
    · have stands := h.line next (spares.schedule ▸ queued)
      refine (mem_line_step sound hs stands).resolve_right fun own => ?_
      cases a with
      | run task stops answer => cases own; exact other stops answer rfl
      | abort id => cases own
      | _ => cases own
    · intro down
      have told := h.told (by simpa [down] using mt (cancelled_step hs))
      obtain ⟨t, touches, heeds⟩ := heeds_step hs other
      rw [heeds.closings]
      cases touches with
      | stops | stopsLate =>
        rw [heeds.cancelled s.spares_enlist.2] at down
        cases down
      | nothing | asks | sees | drops => exact told
      | returns => rw [State.dismiss, told]; rfl

theorem Reaches.poised (run : Reaches p (.load p now events keys) as s) : s.Poised := by
  induction run with
  | refl => exact poised_load now events keys
  | tail before last ih => exact poised_step before.sound ih last

/-- While nobody is ready to run, a schedule that wants the guard waits behind the fetch of
another. -/
theorem State.Poised.mem_queue (h : s.Poised) (orderly : s.Orderly none) (idle : s.woken = [])
    {next : Instant} (queued : s.schedule = .queued next) :
    .schedule ∈ s.queue ∧ ∃ f, f ∈ s.flights := by
  have stands := h.line next queued
  obtain ⟨front, since, holder, flying⟩ := orderly.exists_flight idle stands
  refine ⟨?_, _, flying⟩
  simp only [State.line, holder, Option.toList_some, List.singleton_append, List.mem_cons] at stands
  refine stands.resolve_left ?_
  rintro rfl
  obtain ⟨_, fetching⟩ := State.mem_flights_schedule.1 flying
  rw [queued] at fetching
  cases fetching

end BearerAuth.KeyCache
