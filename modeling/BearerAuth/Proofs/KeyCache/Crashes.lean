import BearerAuth.Proofs.KeyCache.Answers

/-!
# A fetch that breaks down limits nothing

An attempt is put on record when its fetch comes back.  A fetch that breaks down never does, so the
record allows the next fetch as it allowed this one, and whoever gets the guard fetches again at
once.  The rate limit holds between attempts that are completed, and only between these.

* `allowed_of_crash` : until another attempt is completed, nothing is limited;
* `State.AtHand`, `State.TickAtHand` : a lookup has the guard at hand, the schedule has a tick and
  the guard at hand;
* `started_of_miss`, `started_of_tick` : they start a fetch, if that is allowed;
* `refetch_of_crash` : another fetch starts at the very instant at which a lookup misses its key or
  a tick is handled;
* `not_spaced_after_crash` : fetches are not spaced after one that has broken down.

The proof: the fetch that breaks down was allowed by what was on record when it started, and nothing
has been put on record since.
-/

namespace BearerAuth.KeyCache

open BearerAuth.KeyCache.Core

variable {p : Policy} {s u : State} {as : List Action} {now : Instant} {events : List Event}
  {keys : KeySet} {marks before after : List Mark} {task : Task} {t : Instant} {l : Lookup}
  {stops : Bool} {answer : Option Answer}

/-! ### The record after a crash -/

/-- Marks that complete no attempt do not change which was completed last. -/
theorem lastCompleted?_append_of_none (since : ∀ m ∈ after, m.completed? = none) :
    lastCompleted? (marks ++ after) = lastCompleted? marks := by
  have nothing : lastCompleted? after = none := by
    rw [lastCompleted?, List.filterMap_eq_nil_iff.2 since]
    rfl
  rw [lastCompleted?_append, nothing]
  rfl

/-- **Since a fetch has broken down, nothing is limited**, until another attempt is completed. -/
theorem allowed_of_crash (run : Reaches p (.load p now events keys) as s)
    (told : history p (.load p now events keys) as = before ++ .ended task t .crashed :: after)
    (since : ∀ m ∈ after, m.completed? = none) : s.limited p = false := by
  have last := lastCompleted?_history run
  have spaced := history_spaced run
  have past : t ≤ s.now := time_le_of_mem_history run (m := .ended task t .crashed) (by simp [told])
  rw [told, lastCompleted?_append_of_none (List.forall_mem_cons.2 ⟨rfl, since⟩)] at last
  rw [told] at spaced
  unfold State.limited Ledger.limited
  cases attempt : s.ledger.lastAttempt with
  | none => rfl
  | some completed =>
    -- that attempt was completed before the fetch broke down, and allowed it
    obtain ⟨m, hm, hmt⟩ := mem_of_lastCompleted? (last.trans attempt)
    have late : completed + p.options.rateLimit.nanos ≤ t :=
      (List.pairwise_append.1 spaced).2.2 m hm _ (List.mem_cons_self ..) completed hmt
    simp only [Option.any_some, decide_eq_false_iff_not, Nat.not_lt]
    unfold Instant at *
    omega

/-! ### Starting a fetch -/

/-- A run in which the source counts another fetch is seen to start it. -/
theorem started_mem_observe (more : s.fetches < u.fetches) :
    .started task s.now ∈ observe p s (.run task stops answer) u := by
  have starts : u.fetches - s.fetches ≠ 0 := by omega
  exact List.mem_append_left _ (List.mem_replicate.2 ⟨starts, rfl⟩)

namespace State

/-- A lookup has the guard at hand: it holds it, or it is called while the guard is free. -/
def AtHand (s : State) (l : Lookup) : Prop :=
  l.phase = .called ∧ s.holder = none ∨ l.phase = .queued ∧ s.holder = some (.lookup l.id)

/-- The schedule has a tick and the guard at hand: it holds the guard, or the tick is due while the
guard is free. -/
def TickAtHand (s : State) : Prop :=
  (∃ due, s.schedule = .waiting due ∧ due ≤ s.now ∧ s.cancelled = false ∧ s.holder = none) ∨
    ∃ next, s.schedule = .queued next ∧ s.holder = some .schedule

theorem AtHand.idle (hand : s.AtHand l) (sound : s.core.Sound p) : s.core.Idle := by
  rcases hand with ⟨-, free⟩ | ⟨-, holds⟩
  · exact sound.idle (by simp [core, free]) (by simp [core, free])
  · exact idle_of_holder_lookup sound holds

theorem TickAtHand.idle (hand : s.TickAtHand) (sound : s.core.Sound p) : s.core.Idle := by
  refine sound.idle ?_ fun _ => ?_
  · rcases hand with ⟨due, -, -, -, free⟩ | ⟨next, -, holds⟩
    · simp [core, free]
    · simp [core, holds]
  · rcases hand with ⟨due, waiting, -⟩ | ⟨next, queued, -⟩
    · simp [core, waiting, Schedule.started?]
    · simp [core, queued, Schedule.started?]

theorem inspects_of_atHand (polling : p.polling = true) (hand : s.AtHand l)
    (missing : s.keys.get? l.kid = none) :
    ∃ n : State, s.runLookup p l = n.inspect p l ∧
      n.core = { s.core with holder := some (.lookup l.id) } := by
  rcases hand with ⟨called, free⟩ | ⟨queued, holds⟩
  · have core := core_ask (s.setPhase l.id .queued) (.lookup l.id)
    rw [show (s.setPhase l.id .queued).holder = none from free] at core
    refine ⟨(s.setPhase l.id .queued).ask (.lookup l.id), ?_, core⟩
    have holder := congrArg Core.holder core
    change ((s.setPhase l.id .queued).ask (.lookup l.id)).holder = some (.lookup l.id) at holder
    simp only [runLookup, called, missing, Option.isSome_none, Bool.false_eq_true, if_false,
      polling, if_true, miss, holder]
  · refine ⟨s, ?_, ?_⟩
    · simp only [runLookup, queued, holds, if_true]
    · rw [← holds]
      rfl

theorem begins_of_inspect (idle : s.refreshers = []) (missing : s.keys.get? l.kid = none)
    (allowed : s.limited p = false) :
    ∃ n : State, s.inspect p l = n.wake (.refresh l.id) ∧
      n.core = { s.core with
        holder := some (.refresh l.id), refreshers := [(⟨l.id, none⟩ : Refresher)] } := by
  simp only [inspect, missing, Option.isSome_none, Bool.false_eq_true, if_false, allowed]
  refine ⟨_, rfl, ?_⟩
  simp only [core, note, setPhase, idle, List.nil_append]

theorem fetches_runRefresh {r : Refresher} (only : s.refreshers = [r])
    (schedule : s.schedule.started? = none) (unstarted : r.started = none) :
    (s.runRefresh p r answer).fetches = s.fetches + 1 := by
  have launched := launch_of_none only unstarted
  rcases s.runRefresh_cases p r answer with ⟨-, same⟩ | ⟨end_, -, same⟩ <;> rw [same, launched]
  have landed := landed_endRefresh (p := p) (r := { r with started := some s.now })
    (s := { s with
      fetches := s.fetches + 1, refreshers := [{ r with started := some s.now }] })
    rfl schedule end_
  exact landed.store.fetches.trans (enter_fetches ..)

theorem fetches_handle (idle : s.refreshers = []) (allowed : s.limited p = false) (next : Instant) :
    (s.handle p next answer).fetches = s.fetches + 1 := by
  unfold handle
  rw [if_neg (by simp [allowed])]
  rcases landed_runFetch (p := p) (s := { s with
    fetches := s.fetches + 1, schedule := .fetching next s.now }) idle next s.now answer with
    same | landed
  · rw [same]
  · exact landed.store.fetches.trans (enter_fetches ..)

theorem fetches_tick (idle : s.refreshers = []) (allowed : s.limited p = false)
    (free : s.holder = none) (due : Instant) :
    (s.tick p due answer).fetches = s.fetches + 1 := by
  have asked : ({ s with schedule := .queued (s.nextTick p due) } : State).ask .schedule =
      { s with schedule := .queued (s.nextTick p due), holder := some .schedule } := by
    simp [ask, free]
  unfold tick
  dsimp only
  rw [asked, if_pos rfl]
  generalize hs' : ({ s with schedule := .queued (s.nextTick p due), holder := some .schedule } :
    State) = s'
  have idle' : s'.refreshers = [] := by subst hs'; exact idle
  have allowed' : s'.limited p = false := by subst hs'; exact allowed
  rw [fetches_handle idle' allowed', ← hs']

theorem fetches_runSchedule (idle : s.refreshers = []) (allowed : s.limited p = false)
    (hand : s.TickAtHand) : (s.runSchedule p false answer).fetches = s.fetches + 1 := by
  rcases hand with ⟨due, waiting, past, going, free⟩ | ⟨next, queued, holds⟩
  · simp only [runSchedule, waiting, going, Bool.false_and, Bool.false_eq_true, if_false, past,
      if_true]
    exact fetches_tick idle allowed free due
  · simp only [runSchedule, queued, holds, if_true]
    exact fetches_handle idle allowed _

end State

/-! ### Fetching again -/

/-- A lookup that misses its key starts a fetch once it has the guard at hand, if that is
allowed. -/
theorem started_of_miss (sound : s.core.Sound p) (allowed : s.limited p = false)
    (polling : p.polling = true) (hl : s.lookup? l.id = some l) (hand : s.AtHand l)
    (missing : s.keys.get? l.kid = none) (ready : .lookup l.id ∈ s.woken) :
    .started (.refresh l.id) s.now ∈
      history p s [.run (.lookup l.id) false none, .run (.refresh l.id) false none] := by
  have idle := hand.idle sound
  -- the lookup begins a refresh
  obtain ⟨n, looks, core⟩ :=
    State.inspects_of_atHand (s := s.unwake (.lookup l.id)) polling hand missing
  have allowed' : n.limited p = false := by
    have ledger : n.ledger = s.ledger := congrArg Core.ledger core
    have now : n.now = s.now := congrArg Core.now core
    rw [State.limited, ledger, now]
    exact allowed
  have idle' : n.refreshers = [] := (congrArg Core.refreshers core).trans idle.refreshers
  have missing' : n.keys.get? l.kid = none := by
    rw [show n.keys = s.keys from congrArg Core.keys core]
    exact missing
  obtain ⟨m, begins, core'⟩ := State.begins_of_inspect (p := p) idle' missing' allowed'
  rw [core] at core'
  have first := (Effect.run (p := p) (.lookup l.id) false none ready (.lookup l hl)).step_eq
  rw [looks, begins] at first
  have woken := State.mem_woken_wake m (.refresh l.id)
  have core' := (State.core_wake m (.refresh l.id)).trans core'
  generalize m.wake (.refresh l.id) = m at first woken core'
  have refreshers : m.refreshers = [⟨l.id, none⟩] := congrArg Core.refreshers core'
  have schedule : m.schedule = s.schedule := congrArg Core.schedule core'
  have now : m.now = s.now := congrArg Core.now core'
  -- the refresh starts its fetch
  have found : (m.unwake (.refresh l.id)).refresher? l.id = some ⟨l.id, none⟩ := by
    simp [State.refresher?, State.unwake, refreshers]
  have second :=
    (Effect.run (p := p) (.refresh l.id) false none woken (.refresh ⟨l.id, none⟩ found)).step_eq
  have fetches : ((m.unwake (.refresh l.id)).runRefresh p ⟨l.id, none⟩ none).fetches =
      m.fetches + 1 :=
    State.fetches_runRefresh refreshers (schedule ▸ idle.schedule) rfl
  simp only [history, first, second, List.append_nil]
  exact List.mem_append_right _ (now ▸ started_mem_observe (Nat.le_of_eq fetches.symm))

/-- The schedule starts a fetch once it has a tick and the guard at hand, if that is allowed. -/
theorem started_of_tick (sound : s.core.Sound p) (allowed : s.limited p = false)
    (hand : s.TickAtHand) (ready : .schedule ∈ s.woken) :
    .started .schedule s.now ∈ history p s [.run .schedule false none] := by
  have idle := hand.idle sound
  have first := (Effect.run (p := p) .schedule false none ready .schedule).step_eq
  have fetches : ((s.unwake .schedule).runSchedule p false none).fetches = s.fetches + 1 :=
    State.fetches_runSchedule idle.refreshers allowed hand
  simp only [history, first, List.append_nil]
  exact started_mem_observe (Nat.le_of_eq fetches.symm)

/-- **A fetch that breaks down limits nothing.**  Until another attempt is completed, the rate limit
does not hold anybody back.  A lookup that misses its key starts another fetch at the very instant
at which it has the guard at hand, and so does the schedule with a tick. -/
theorem refetch_of_crash (run : Reaches p (.load p now events keys) as s)
    (told : history p (.load p now events keys) as = before ++ .ended task t .crashed :: after)
    (since : ∀ m ∈ after, m.completed? = none) :
    s.limited p = false ∧
    (∀ l, p.polling = true → s.lookup? l.id = some l → s.AtHand l → s.keys.get? l.kid = none →
      .lookup l.id ∈ s.woken →
        .started (.refresh l.id) s.now ∈
          history p s [.run (.lookup l.id) false none, .run (.refresh l.id) false none]) ∧
    (s.TickAtHand → .schedule ∈ s.woken →
      .started .schedule s.now ∈ history p s [.run .schedule false none]) := by
  have allowed := allowed_of_crash run told since
  refine ⟨allowed, fun l polling hl hand missing ready => ?_, fun hand ready => ?_⟩
  · exact started_of_miss run.sound allowed polling hl hand missing ready
  · exact started_of_tick run.sound allowed hand ready

/-- While the second lookup is queued, the refresh of the first breaks down. -/
def crashRun : List Action :=
  [.run .schedule false none, .call "a", .call "b", .run (.lookup 0) false none,
    .run (.lookup 1) false none, .run (.refresh 0) false (some ⟨[], .crashed⟩)]

theorem history_crashRun : history samplePolicy (.load samplePolicy 0 [] .empty) crashRun =
    [.started (.refresh 0) 0] ++ .ended (.refresh 0) 0 .crashed :: [] := rfl

/-- The second lookup starts a fetch at the instant at which the first has broken down. -/
theorem refetch_of_crash_crashRun :
    ∃ s, Reaches samplePolicy (.load samplePolicy 0 [] .empty) crashRun s ∧
      s.limited samplePolicy = false ∧
      .started (.refresh 1) 0 ∈
        history samplePolicy s [.run (.lookup 1) false none, .run (.refresh 1) false none] := by
  obtain ⟨s, run, holds, found, missing, ready, now⟩ : ∃ s,
      Reaches samplePolicy (.load samplePolicy 0 [] .empty) crashRun s ∧
        s.holder = some (.lookup 1) ∧ s.lookup? 1 = some ⟨1, "b", 0, .queued⟩ ∧
        s.keys.get? "b" = none ∧ .lookup 1 ∈ s.woken ∧ s.now = 0 :=
    ⟨_, reaches_iff_after?.2 rfl, rfl, rfl, rfl, by decide, rfl⟩
  obtain ⟨allowed, again, -⟩ := refetch_of_crash run history_crashRun nofun
  rw [now] at again
  exact ⟨s, run, allowed,
    again ⟨1, "b", 0, .queued⟩ rfl found (.inr ⟨rfl, holds⟩) missing ready⟩

/-- Fetches are not spaced after one that has broken down, though the source can change and attempts
are limited. -/
theorem not_spaced_after_crash :
    ¬ ∀ (p : Policy) (now : Instant) (events : List Event) (keys : KeySet) (as : List Action)
        (s : State),
      p.polling = true → 0 < p.options.rateLimit.nanos →
      Reaches p (.load p now events keys) as s →
      ∀ before task t after,
        history p (.load p now events keys) as = before ++ .ended task t .crashed :: after →
        ∀ task' u, .started task' u ∈ after → t + p.options.rateLimit.nanos ≤ u := by
  intro spaced
  obtain ⟨s, run⟩ : ∃ s, Reaches samplePolicy (.load samplePolicy 0 [] .empty)
      (crashRun ++ [.run (.lookup 1) false none, .run (.refresh 1) false none]) s :=
    ⟨_, reaches_iff_after?.2 rfl⟩
  have late := spaced samplePolicy 0 [] .empty _ s rfl (by decide) run
    [.started (.refresh 0) 0] (.refresh 0) 0 [.started (.refresh 1) 0] rfl (.refresh 1) 0
    (List.mem_singleton_self _)
  exact absurd late (by decide)

end BearerAuth.KeyCache
