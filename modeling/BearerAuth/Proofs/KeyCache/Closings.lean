import BearerAuth.Proofs.KeyCache.Usage

/-!
# Who waits for the end of the schedule

Only the first to stop the schedule waits for its end.  Whoever stops it later returns at once, and
may find it with a tick in hand.

* `over_of_isOver` : once the schedule is over it stays so, and no fetch of its own starts or ends;
* `State.Waits` is the invariant: the first to stop the schedule has not returned before its end;
* `waits_for_end` : what it means to have stopped the schedule, over whole runs;
* `not_over_at_return` : who stops it later has no such guarantee.

The proof: a closing is marked as returned in two moves only, by who stops the schedule after
another and by who finds it over.  So the first of all is marked in the second way.
-/

namespace BearerAuth.KeyCache

open BearerAuth.KeyCache.Core

variable {p : Policy} {s t u : State} {as bs : List Action} {a : Action} {now : Instant}
  {events : List Event} {keys : KeySet} {stops : Bool} {answer : Option Answer}

/-! ### A schedule that is over -/

/-- Whose fetch is seen. -/
def Mark.task : Mark → Task
  | started task _ | ended task _ _ => task

theorem Schedule.free_of_isOver {sch : Schedule} (ended : sch.isOver = true) :
    sch.isBusy = false := by
  cases sch with
  | off | ended | broken => rfl
  | starting | waiting | queued | fetching => cases ended

theorem core_step_of_isOver (ended : s.schedule.isOver = true)
    (hs : step p s (.run .schedule stops answer) = some u) : u.core = s.core := by
  rw [eq_runSchedule_of_step hs]
  cases schedule : s.schedule with
  | off | ended | broken => simp only [State.runSchedule, State.unwake, schedule, State.core]
  | starting | waiting | queued | fetching => rw [schedule] at ended; cases ended

theorem schedule_step_of_isOver (ended : s.schedule.isOver = true) (hs : step p s a = some u) :
    u.schedule = s.schedule := by
  by_cases own : ∃ stops answer, a = .run .schedule stops answer
  · obtain ⟨stops, answer, rfl⟩ := own
    exact congrArg Core.schedule (core_step_of_isOver ended hs)
  · exact (spares_step hs fun stops answer same => own ⟨stops, answer, same⟩).schedule

theorem idle_of_isOver (orderly : s.Orderly none) (ended : s.schedule.isOver = true) :
    .schedule ∉ s.line ∧ ∀ since, (.schedule, since) ∉ s.flights := by
  have free := Schedule.free_of_isOver ended
  refine ⟨fun stands => ?_, fun since flying => ?_⟩
  · have busy : s.schedule.isBusy = true := orderly.wants .schedule stands
    rw [free] at busy
    cases busy
  · obtain ⟨next, fetching⟩ := State.mem_flights_schedule.1 flying
    rw [fetching] at free
    cases free

theorem task_ne_schedule (ended : s.schedule.isOver = true) (hs : step p s a = some u) :
    ∀ m ∈ observe p s a u, m.task ≠ .schedule := by
  intro m hm
  cases a with
  | run task stops answer =>
    by_cases own : task = .schedule
    · subst own
      rw [observe_of_calm (core_step_of_isOver ended hs ▸ .refl s.core)] at hm
      cases hm
    · have whose : m.task = task := by
        simp only [observe, List.mem_append, List.mem_replicate] at hm
        rcases hm with ⟨-, rfl⟩ | ⟨-, rfl⟩ <;> rfl
      exact whose ▸ own
  | _ => cases hm

/-- **What is over stays over.**  In no run from there on does the schedule move or fetch. -/
theorem over_of_isOver (ended : s.schedule.isOver = true) (further : Reaches p s bs u) :
    u.schedule = s.schedule ∧ ∀ m ∈ history p s bs, m.task ≠ .schedule := by
  induction further with
  | refl => exact ⟨rfl, nofun⟩
  | tail before last ih =>
    obtain ⟨same, others⟩ := ih
    have ended' := same.symm ▸ ended
    refine ⟨(schedule_step_of_isOver ended' last).trans same, fun m hm => ?_⟩
    rw [history_snoc before last] at hm
    rcases List.mem_append.1 hm with earlier | now
    · exact others m earlier
    · exact task_ne_schedule ended' last m now

/-! ### The first to stop it -/

/-- Whoever was the first to stop the schedule waits for its end. -/
structure State.Waits (s : State) : Prop where
  /-- Nobody waits before anybody has stopped it. -/
  fresh : s.closings = [] → s.awaited = false
  /-- The first one has returned only if it is over. -/
  first : ∀ c, s.closings.head? = some c → c.returned = true → s.schedule.isOver = true

theorem State.Waits.keep (h : s.Waits) (closings : u.closings = s.closings)
    (awaited : u.awaited = s.awaited)
    (ended : s.schedule.isOver = true → u.schedule.isOver = true) : u.Waits := by
  refine ⟨?_, ?_⟩
  · rw [closings, awaited]
    exact h.fresh
  · rw [closings]
    exact fun c hc returned => ended (h.first c hc returned)

/-- Whoever comes to stop the schedule waits for its end unless somebody waits before him. -/
theorem State.Waits.join {id : Nat} (h : s.Waits)
    (closings : u.closings = s.closings ++ [⟨id, s.awaited⟩])
    (ended : s.schedule.isOver = true → u.schedule.isOver = true) : u.Waits := by
  refine ⟨fun none => ?_, fun c hc returned => ?_⟩
  · rw [closings] at none
    simp at none
  · rw [closings] at hc
    cases none : s.closings with
    | nil =>
      -- it is the first one, and nobody has begun to wait
      simp only [none, List.nil_append, List.head?_cons, Option.some.injEq] at hc
      subst hc
      exact absurd returned (by simp [h.fresh none])
    | cons c' rest =>
      rw [none, List.cons_append, List.head?_cons] at hc
      exact ended (h.first c (none ▸ hc) returned)

/-- **The first to stop the schedule waits for its end**, after every step. -/
theorem waits_step (h : s.Waits) (hs : step p s a = some u) : u.Waits := by
  have ended (was : s.schedule.isOver = true) : u.schedule.isOver = true :=
    (schedule_step_of_isOver was hs).symm ▸ was
  by_cases own : ∃ stops answer, a = .run .schedule stops answer
  · obtain ⟨stops, answer, rfl⟩ := own
    have guests : u.guests = s.guests := congrArg Usage.guests (usage_step_schedule hs)
    exact h.keep (congrArg Guests.closings guests) (congrArg Guests.awaited guests) ended
  obtain ⟨t, touches, heeds⟩ := heeds_step hs fun stops answer same => own ⟨stops, answer, same⟩
  have closings := heeds.closings
  have awaited : u.awaited = t.awaited := congrArg Guests.awaited heeds.guests
  cases touches with
  | nothing | asks | sees | drops => exact h.keep closings awaited ended
  | stops => exact h.join closings ended
  | stopsLate late =>
    refine ⟨fun none => ?_, fun _ _ _ => ended late⟩
    rw [closings] at none
    simp [State.dismiss, State.enlist] at none
  | returns id stops answer late =>
    refine ⟨fun none => ?_, fun _ _ _ => ended late⟩
    rw [closings, State.dismiss, List.map_eq_nil_iff] at none
    exact awaited.trans (h.fresh none)

theorem Reaches.waits (run : Reaches p (.load p now events keys) as s) : s.Waits := by
  induction run with
  | refl => exact ⟨fun _ => rfl, nofun⟩
  | tail before last ih => exact waits_step ih last

/-! ### The end of the schedule over whole runs -/

/-- **The first to stop the schedule waits for its end, and only the first.**  In every state that a
run gets to, whoever was the first to stop the schedule has returned only if it is over.  From the
end of the schedule on it stays where it is, wants no guard and has no fetch on the way, in every
further run none of its fetches starts or ends, and whenever it runs it changes neither the keys nor
the record, the fetches or what is reported.  But whoever stops it once another has begun to wait
returns at once, and leaves the schedule wherever it is. -/
theorem waits_for_end (run : Reaches p (.load p now events keys) as s) :
    (∀ c, s.closings.head? = some c → c.returned = true → s.schedule.isOver = true) ∧
    (s.schedule.isOver = true → ∀ bs v, Reaches p s bs v →
      v.schedule = s.schedule ∧ .schedule ∉ v.line ∧ (∀ since, (.schedule, since) ∉ v.flights) ∧
      (∀ m ∈ history p s bs, m.task ≠ .schedule) ∧
      ∀ stops answer w, step p v (.run .schedule stops answer) = some w → w.core = v.core) ∧
    ∀ u, s.awaited = true → step p s .close = some u →
      ⟨s.nextId, true⟩ ∈ u.closings ∧ u.schedule = s.schedule := by
  refine ⟨run.waits.first, fun ended bs v further => ?_, fun u awaited hs => ?_⟩
  · obtain ⟨same, others⟩ := over_of_isOver ended further
    have ended' : v.schedule.isOver = true := same.symm ▸ ended
    obtain ⟨out, grounded⟩ := idle_of_isOver (run.trans further).orderly ended'
    exact ⟨same, out, grounded, others, fun stops answer w hw => core_step_of_isOver ended' hw⟩
  · obtain ⟨-, rfl⟩ := eq_close_of_step hs
    refine ⟨?_, (State.stays_close s).schedule⟩
    rw [State.close_eq, if_pos awaited, State.enlist, awaited]
    exact List.mem_append_right _ (List.mem_singleton_self _)

/-- Two stop the schedule while it fetches. -/
def closedTwice : List Action :=
  [.run .schedule false none, .advance 7, .wake .schedule, .run .schedule false none, .close,
    .close]

/-- The fetch ends, the schedule stops, and the first of the two returns. -/
def closedTwiceOver : List Action :=
  closedTwice ++ [.wake .schedule, .run .schedule false (some ⟨[], .keys .empty⟩),
    .run .schedule true none, .run (.closing 0) false none]

/-- The first of the two has returned at the end of the schedule. -/
theorem waits_for_end_closedTwiceOver :
    ∃ s, Reaches samplePolicy (.load samplePolicy 0 [] .empty) closedTwiceOver s ∧
      s.closings.head? = some ⟨0, true⟩ ∧ s.schedule.isOver = true ∧ .schedule ∉ s.line := by
  obtain ⟨s, run, first⟩ : ∃ s,
      Reaches samplePolicy (.load samplePolicy 0 [] .empty) closedTwiceOver s ∧
        s.closings.head? = some ⟨0, true⟩ :=
    ⟨_, reaches_iff_after?.2 rfl, rfl⟩
  obtain ⟨waits, stays, -⟩ := waits_for_end run
  have ended := waits _ first rfl
  exact ⟨s, run, first, ended, (stays ended [] s (.refl s)).2.1⟩

/-- **Not everybody who stops the schedule waits for its end.**  The second of the two has returned
while the schedule fetches. -/
theorem not_over_at_return :
    ¬ ∀ (p : Policy) (now : Instant) (events : List Event) (keys : KeySet) (as : List Action)
        (s : State), Reaches p (.load p now events keys) as s →
        ∀ c ∈ s.closings, c.returned = true →
          s.schedule.isOver = true ∧ ∀ since, (.schedule, since) ∉ s.flights := by
  intro claim
  obtain ⟨s, run, second, flying⟩ : ∃ s,
      Reaches samplePolicy (.load samplePolicy 0 [] .empty) closedTwice s ∧
        ⟨1, true⟩ ∈ s.closings ∧ (.schedule, 7) ∈ s.flights :=
    ⟨_, reaches_iff_after?.2 rfl, by decide, List.mem_singleton_self _⟩
  exact (claim _ _ _ _ _ s run _ second rfl).2 7 flying

end BearerAuth.KeyCache
