import BearerAuth.Proofs.KeyCache.Accounts
import BearerAuth.Proofs.KeyCache.Misses
import BearerAuth.Proofs.KeyCache.Rest

/-!
# Keys that are loaded once

Without a schedule only lookups cost fetches, and a source that cannot change costs none after the
first.  Nothing is ever entered then, no lookup asks for the guard, and whoever is called is
answered before time passes.

* `earned_of_started` : without a schedule every fetch was earned by a lookup that has missed its
  key;
* `history_eq_nil` : of a source that cannot change nothing is seen;
* `called_of_going` : then a lookup that is not over has not run, and is called now;
* `loaded_once` : the account over whole runs.

The proof: fetches are started by refreshes and by the schedule only, and who has begun a refresh or
waits for the guard has found that the source can change.  So nothing is seen of a source that
cannot, and what is on record is what was seen.
-/

namespace BearerAuth.KeyCache

open BearerAuth.KeyCache.Core

variable {p : Policy} {s u : State} {as : List Action} {a : Action} {task : Task} {id : Nat}
  {l : Lookup} {now time : Instant} {events : List Event} {keys : KeySet}

/-! ### Who starts fetches -/

theorem refreshes_of_started (sound : s.core.Sound p) (hs : step p s a = some u)
    (seen : .started task time ∈ observe p s a u) :
    task = .schedule ∨ ∃ id, task = .refresh id := by
  cases a with
  | run t stops answer =>
    obtain rfl : task = t := by
      rcases List.mem_append.1 seen with start | end_
      · cases (List.mem_replicate.1 start).2
        rfl
      · cases (List.mem_replicate.1 end_).2
    have unseen (calm : Calm s.core u.core) : False := by
      rw [observe_of_calm calm] at seen
      cases seen
    cases runs_of_step hs with
    | refresh r => exact .inr ⟨r.id, rfl⟩
    | schedule => exact .inl rfl
    | unknown => exact (unseen (.refl _)).elim
    | lookup l => exact (unseen (State.quiet_runLookup (s := s.unwake _) sound l).toCalm).elim
    | watch w => exact (unseen (State.quiet_runWatch (s := s.unwake _) sound w).toCalm).elim
    | closing c => exact (unseen (State.core_runClosing (s.unwake _) c ▸ .refl _)).elim
  | _ => cases seen

theorem Reaches.refreshes_of_started (run : Reaches p (.load p now events keys) as s)
    (seen : .started task time ∈ history p (.load p now events keys) as) :
    task = .schedule ∨ ∃ id, task = .refresh id := by
  induction run with
  | refl => cases seen
  | tail before last ih =>
    rw [history_snoc before last] at seen
    rcases List.mem_append.1 seen with earlier | new
    · exact ih earlier
    · exact KeyCache.refreshes_of_started before.sound last new

/-- **Without a schedule every fetch was earned** by a lookup that has missed its key. -/
theorem earned_of_started (run : Reaches p (.load p now events keys) as s)
    (unscheduled : p.scheduled = false)
    (seen : .started task time ∈ history p (.load p now events keys) as) :
    ∃ id kid, task = .refresh id ∧ Earned p (.load p now events keys) as id kid := by
  have off : (State.load p now events keys).schedule.isOver = true := by
    simp [State.load, unscheduled, Schedule.isOver]
  rcases run.refreshes_of_started seen with rfl | ⟨id, rfl⟩
  · exact absurd rfl ((over_of_isOver off run).2 _ seen)
  · obtain ⟨l, -, -, earned⟩ := (run.traced id).begun (.inr ⟨time, seen⟩)
    exact ⟨id, l.kid, rfl, earned⟩

/-! ### Lookups that have not run -/

theorem Passage.ne_called (h : Passage p s l a .called) : False := by
  generalize arrived : LookupPhase.called = phase at h
  cases h with
  | answered =>
    unfold State.conclusion at arrived
    split at arrived <;> cases arrived
  | queued | begun | ended | aborted => cases arrived

/-- Time does not pass before a lookup has run, so that one that has not run is called now. -/
theorem calledAt_of_called (run : Reaches p (.load p now events keys) as s)
    (hl : s.lookup? id = some l) (called : l.phase = .called) : l.calledAt = s.now := by
  induction run generalizing l with
  | refl => cases hl
  | @tail t _ _ _ before last ih =>
    rcases lookup?_origin before.sound last hl with
      ⟨kid, rfl, -, rfl⟩ | ⟨l₀, hl₀, rfl | ⟨phase, passes, rfl⟩⟩
    · rw [← eq_call_of_step last]
      exact (congrArg Core.now (State.core_call t kid)).symm
    · obtain ⟨-, ⟨_, rfl, -, idle, -⟩ | ⟨_, _, turned⟩⟩ := turn_step before.sound last
      · have attends := before.attended id l hl₀
        simp [State.Attends, called, idle] at attends
      · exact (ih hl₀ called).trans turned.now_eq.symm
    · obtain rfl : phase = .called := called
      exact passes.ne_called.elim

/-! ### Sources that cannot change -/

section Fixed

variable (run : Reaches p (.load p now events keys) as s) (fixed : p.polling = false)

include run fixed

/-- **Of a source that cannot change nothing is seen** after the first load. -/
theorem history_eq_nil : history p (.load p now events keys) as = [] := by
  have unscheduled : p.scheduled = false := by simp [Policy.scheduled, fixed]
  have starts : (history p (.load p now events keys) as).countP Mark.isStart = 0 := by
    refine List.countP_eq_zero.2 fun m hm start => ?_
    cases m with
    | started task time =>
      obtain ⟨id, kid, -, earned⟩ := earned_of_started run unscheduled hm
      cases fixed.symm.trans earned.polling
    | ended => cases start
  -- what ends has started
  have balance := countP_isStart_eq run
  rw [starts] at balance
  refine List.eq_nil_iff_forall_not_mem.2 fun m hm => ?_
  have start := List.countP_eq_zero.1 starts m hm
  have end_ := List.countP_eq_zero.1 (show List.countP (!·.isStart) _ = 0 by omega) m hm
  simp [start] at end_

/-- What was entered with the first load is all that is on record. -/
theorem core_of_fixed : s.fetches = 1 ∧ s.keys = keys ∧ s.ledger = { lastSuccess := now } ∧
    s.reports = [] := by
  have nothing := history_eq_nil run fixed
  have fetches := countP_isStart_history run
  have published := lastPublished_history run
  have attempt := lastCompleted?_history run
  have books := books_history run
  rw [nothing] at fetches published attempt books
  obtain ⟨brought, since⟩ := Prod.mk.inj published
  refine ⟨fetches, brought.symm, ?_, books.reports⟩
  have attempts : s.ledger.attempts = 0 := books.attempts
  have failures : s.ledger.failures = 0 := books.failures
  calc s.ledger
    _ = ⟨s.ledger.lastSuccess, s.ledger.lastAttempt, s.ledger.attempts, s.ledger.failures⟩ := rfl
    _ = { lastSuccess := now } := by
      rw [← since, ← attempt, attempts, failures]
      rfl

omit run in
/-- No lookup has missed its key, since the source would have had to change. -/
theorem not_missed {kid : String} :
    ¬ Missed p (.load p now events keys) as id kid := fun missed => by
  cases fixed.symm.trans missed.polling

theorem lookup_not_mem_line (id : Nat) : .lookup id ∉ s.line := fun stands => by
  obtain ⟨l, hl, queued⟩ := run.orderly.wants _ stands
  exact not_missed fixed ((run.traced id).queued l hl queued)

theorem called_of_going (hl : s.lookup? id = some l) (going : l.phase.isOver = false) :
    l.phase = .called := by
  cases phase : l.phase with
  | called => rfl
  | queued => exact (not_missed fixed ((run.traced id).queued l hl phase)).elim
  | refreshing =>
    -- its refresh would stand in line
    have attends := run.attended id l hl
    simp only [State.Attends, phase] at attends
    obtain ⟨r, hr⟩ := run.orderly.wants _ attends
    have begun : ∃ r ∈ s.refreshers, r.id = id :=
      ⟨r, List.mem_of_find?_eq_some hr, by
        rw [← State.id_of_lookup? hl]; simpa using List.find?_some hr⟩
    obtain ⟨_, -, -, earned⟩ := (run.traced id).begun (.inl begun)
    exact (not_missed fixed earned.toMissed).elim
  | joined how =>
    -- the end of its refresh would have been seen
    obtain ⟨-, seen⟩ := run.joins id l how hl phase
    rw [history_eq_nil run fixed] at seen
    have unseen : s.ledger.lastAttempt = none := by
      rw [(core_of_fixed run fixed).2.2.1]
    split at seen
    · obtain ⟨m, hm, -⟩ := seen
      cases hm
    · rw [unseen] at seen
      cases seen
  | found | failed | aborted =>
    rw [phase] at going
    cases going

end Fixed

/-- The answer of some keys to the lookup of a key. -/
def answerOf (keys : KeySet) (kid : String) : Except Failure VerificationKey :=
  (keys.get? kid).elim (.error (.unknownKey kid)) .ok

theorem answer?_conclusion (s : State) (l : Lookup) :
    (s.conclusion l).answer? = some (answerOf s.keys l.kid) := by
  rw [State.conclusion_eq_ofAnswer, LookupPhase.answer?_ofAnswer, answerOf]

/-- Where the source cannot change, a lookup is answered by the keys in use in its first turn, and
nothing but the lookup changes. -/
theorem answered_of_fixed (fixed : p.polling = false) (hl : s.lookup? id = some l)
    (called : l.phase = .called) (ready : .lookup id ∈ s.woken) (stops : Bool)
    (answer : Option Answer) :
    ∃ u, step p s (.run (.lookup id) stops answer) = some u ∧
      u.answer? id = some (answerOf s.keys l.kid) ∧ u.core = s.core := by
  obtain rfl := State.id_of_lookup? hl
  -- it may log on the way that it misses its key
  obtain ⟨noted, runs⟩ : ∃ noted,
      (s.unwake (.lookup l.id)).runLookup p l =
        ((s.unwake (.lookup l.id)).note noted).conclude l := by
    simp only [State.runLookup, called, fixed]
    split
    · exact ⟨[], by rw [State.note, List.append_nil]⟩
    · exact ⟨[.missFixed l.kid], rfl⟩
  have turn := (Effect.run (p := p) (.lookup l.id) stops answer ready (.lookup l hl)).step_eq
  rw [runs] at turn
  refine ⟨_, turn, ?_, State.core_conclude _ l⟩
  have answered := State.answer?_conclude (s := (s.unwake (.lookup l.id)).note noted) hl
  exact answered.trans (answer?_conclusion _ l)

/-! ### The account -/

/-- **A source that cannot change is asked once.**  Whatever is looked up, given up, stopped or
dropped, in whatever order: no fetch starts or ends after the first load, the keys and the record
are those of the first load and nothing is reported.  No lookup stands in line for the guard.  A
lookup that is not over is called now; time does not pass until it has run, and its first turn
answers it with what the keys say and changes nothing else.  So whoever is answered is answered at
the instant of the call.  Of a source that can change, but is not asked on a schedule, every fetch after the
first load was earned by a lookup that has missed its key. -/
theorem loaded_once (run : Reaches p (.load p now events keys) as s) :
    (p.polling = false →
      (s.fetches = 1 ∧ history p (.load p now events keys) as = []) ∧
      (s.keys = keys ∧ s.ledger = { lastSuccess := now } ∧ s.reports = []) ∧
      (∀ id, .lookup id ∉ s.line) ∧
      (∀ l ∈ s.lookups, l.phase.isOver = false →
        l.calledAt = s.now ∧ (∀ time, step p s (.advance time) = none) ∧
        ∀ stops answer, ∃ u, step p s (.run (.lookup l.id) stops answer) = some u ∧
          u.answer? l.id = some (answerOf keys l.kid) ∧ u.core = s.core) ∧
      ∀ a u id r, step p s a = some u → s.answer? id = none → u.answer? id = some r →
        ∃ l, u.lookup? id = some l ∧ l.calledAt = u.now ∧ r = answerOf keys l.kid) ∧
    (p.options.interval.isZero = true → ∀ task time,
      .started task time ∈ history p (.load p now events keys) as →
        ∃ id kid, task = .refresh id ∧ Earned p (.load p now events keys) as id kid) := by
  refine ⟨fun fixed => ?_, fun unscheduled task time seen => ?_⟩
  · obtain ⟨fetches, same, ledger, reports⟩ := core_of_fixed run fixed
    refine ⟨⟨fetches, history_eq_nil run fixed⟩, ⟨same, ledger, reports⟩,
      lookup_not_mem_line run fixed, fun l hl going => ?_, fun a u id r hs before after => ?_⟩
    · have found := run.numbered.mem_lookups_iff.1 hl
      have called := called_of_going run fixed found going
      have ready := run.attended l.id l found
      simp only [State.Attends, called] at ready
      refine ⟨calledAt_of_called run found called, fun time => ?_, fun stops answer => ?_⟩
      · refine Option.eq_none_iff_forall_ne_some.2 fun u hs => ?_
        obtain ⟨idle, -⟩ := eq_advance_of_step hs
        rw [idle] at ready
        cases ready
      · exact same ▸ answered_of_fixed fixed found called ready stops answer
    · obtain ⟨l, moved, found, answered, -, stops, answer, rfl⟩ :=
        answer_step run.sound hs before after
      have going : l.phase.isOver = false := by
        rcases lookup?_step run.sound hs found with unmoved | ⟨phase, passes, -⟩
        · rw [State.answer?, found, ← unmoved] at before
          cases before.symm.trans after
        · exact passes.going
      have called := called_of_going run fixed found going
      have still : u.now = s.now := (calm_of_run_lookup run.sound hs).now
      rw [answer?_conclusion, same] at answered
      exact ⟨_, moved, (calledAt_of_called run found called).trans still.symm,
        (Option.some.inj answered).symm⟩
  · exact earned_of_started run (by simp [Policy.scheduled, unscheduled]) seen

/-- A source that cannot change. -/
def fixedPolicy : Policy := { samplePolicy with polling := false }

/-- Of three lookups one finds its key, one misses it and one is given up; the schedule that there
is not is stopped, and a key is looked up again later. -/
def fixedRun : List Action :=
  [.call "a", .call "b", .call "c", .run (.lookup 1) false none, .abort 2, .close,
    .run (.lookup 0) false none, .advance 9, .call "b"]

/-- A source that can change, without a schedule. -/
def unscheduledPolicy : Policy := { samplePolicy with options := ⟨⟨0⟩, ⟨5⟩, ⟨3⟩⟩ }

/-- A lookup misses its key and begins a refresh. -/
def missingRun : List Action :=
  [.call "b", .run (.lookup 0) false none, .run (.refresh 0) false none]

/-- The source has been asked once at 9 ns, and the key is unknown at that instant; without a
schedule a fetch is that of a lookup. -/
theorem loaded_once_fixedRun :
    (∃ s u, Reaches fixedPolicy (.load fixedPolicy 0 [] (sampleKeys "a")) fixedRun s ∧
      s.now = 9 ∧ s.fetches = 1 ∧ s.keys = sampleKeys "a" ∧
      step fixedPolicy s (.run (.lookup 4) false none) = some u ∧
      u.answer? 4 = some (.error (.unknownKey "b")) ∧ u.core = s.core) ∧
    ∃ id kid, Task.refresh 0 = .refresh id ∧
      Earned unscheduledPolicy (.load unscheduledPolicy 0 [] .empty) missingRun id kid := by
  obtain ⟨s, run, time, waits⟩ : ∃ s,
      Reaches fixedPolicy (.load fixedPolicy 0 [] (sampleKeys "a")) fixedRun s ∧ s.now = 9 ∧
        (⟨4, "b", 9, .called⟩ : Lookup) ∈ s.lookups :=
    ⟨_, reaches_iff_after?.2 rfl, rfl, by decide⟩
  obtain ⟨t, run'⟩ : ∃ t,
      Reaches unscheduledPolicy (.load unscheduledPolicy 0 [] .empty) missingRun t :=
    ⟨_, reaches_iff_after?.2 rfl⟩
  obtain ⟨⟨fetches, -⟩, ⟨same, -⟩, -, prompt, -⟩ := (loaded_once run).1 rfl
  obtain ⟨-, -, answered⟩ := prompt _ waits rfl
  obtain ⟨u, next, answer, core⟩ := answered false none
  exact ⟨⟨s, u, run, time, fetches, same, next, answer, core⟩,
    (loaded_once run').2 rfl (.refresh 0) 0 (List.mem_singleton_self _)⟩

end BearerAuth.KeyCache
