import BearerAuth.Proofs.KeyCache.Lookups
import BearerAuth.Proofs.KeyCache.RateLimit

/-!
# The guard is never lost

Tasks that want the guard stand in a line, with its holder in front.  Nobody stands there twice or
without a use for the guard, and who is in front gets on.  So while nobody is ready to run, the
guard is in the hands of somebody whose fetch is on the way, or it is free.

* `State.line` is the line, and `State.Wants` says which tasks have a use for the guard;
* `State.Orderly` is the invariant, but for a task that is just running;
* `State.orderly_release` : the line is in order again as soon as the guard is handed on;
* `orderly_step` : every step keeps the invariant;
* `holder_iff_flight` : mutual exclusion, and no leaked guard.

The proof: a task that runs with the guard in hand hands it on, or leaves it to a refresh that is
ready to run, or begins a fetch.  What else it does comes before or after that, and does not touch
those in line.
-/

namespace BearerAuth.KeyCache

open BearerAuth.KeyCache.Core

variable {p : Policy} {s u : State} {a : Action} {busy : Option Task} {task : Task} {id : Nat}
  {l : Lookup} {stops : Bool} {answer : Option Answer}

/-! ### Moves that leave the line alone -/

/-- Nobody turns to anything else between the states, and whatever is ready to run stays so. -/
structure Remains (s u : State) : Prop extends Keeps s u where
  /-- The refreshes begun by lookups are the same. -/
  refreshers : u.refreshers = s.refreshers
  /-- The schedule is where it was. -/
  schedule : u.schedule = s.schedule
  /-- The watches are the same. -/
  watches : u.watches = s.watches

/-- Nor does anybody get or ask for the guard, or hand it on. -/
structure Stays (s u : State) : Prop extends Remains s u where
  /-- The same task holds the guard. -/
  holder : u.holder = s.holder
  /-- The same tasks wait for it. -/
  queue : u.queue = s.queue

theorem Remains.flights (h : Remains s u) : u.flights = s.flights := by
  simp only [State.flights, h.refreshers, h.schedule]

theorem Stays.refl (s : State) : Stays s s := ⟨⟨.refl s, rfl, rfl, rfl⟩, rfl, rfl⟩

theorem Stays.trans {t : State} (h : Stays s t) (h' : Stays t u) : Stays s u :=
  ⟨⟨h.toKeeps.trans h'.toKeeps, h'.refreshers.trans h.refreshers, h'.schedule.trans h.schedule,
    h'.watches.trans h.watches⟩, h'.holder.trans h.holder, h'.queue.trans h.queue⟩

/-- The schedule has a tick in hand, with the guard or in want of it. -/
def Schedule.isBusy : Schedule → Bool
  | queued _ | fetching _ _ => true
  | _ => false

namespace State

theorem stays_note (s : State) (events : List Event) : Stays s (s.note events) :=
  ⟨⟨keeps_note s events, rfl, rfl, rfl⟩, rfl, rfl⟩

theorem stays_wake (s : State) (t : Task) : Stays s (s.wake t) := by
  refine ⟨⟨keeps_wake s t, ?_, ?_, ?_⟩, ?_, ?_⟩ <;> (unfold wake; split <;> rfl)

theorem stays_foldl_wake (s : State) (closings : List Closing) :
    Stays s (closings.foldl (fun s c => s.wake (.closing c.id)) s) := by
  induction closings generalizing s with
  | nil => exact .refl s
  | cons c rest ih => exact (stays_wake s _).trans (ih _)

theorem stays_cancel (s : State) : Stays s s.cancel := by
  have told : Stays s { s with cancelled := true } := ⟨⟨.of_eq rfl rfl, rfl, rfl, rfl⟩, rfl, rfl⟩
  unfold cancel
  split
  · exact told.trans (stays_wake _ _)
  · exact told

theorem stays_giveUp (s : State) : Stays s s.giveUp := by
  unfold giveUp
  split
  · exact .refl s
  · exact stays_cancel s

theorem stays_drop (s : State) : Stays s ({ s with owned := false } : State).giveUp := by
  have left : Stays s { s with owned := false } := ⟨⟨.of_eq rfl rfl, rfl, rfl, rfl⟩, rfl, rfl⟩
  exact left.trans (stays_giveUp _)

theorem stays_advance (s : State) (time : Instant) : Stays s { s with now := time } :=
  ⟨⟨.of_eq rfl rfl, rfl, rfl, rfl⟩, rfl, rfl⟩

theorem stays_enter (s : State) (trigger : Trigger) (how : FetchEnd) :
    Stays s (s.enter p trigger how) := by
  cases how <;> exact ⟨⟨.of_eq rfl rfl, rfl, rfl, rfl⟩, rfl, rfl⟩

theorem stays_runClosing (s : State) (c : Closing) : Stays s (s.runClosing c) := by
  unfold runClosing
  split
  · exact .refl s
  · refine Stays.trans ?_ (stays_giveUp _)
    exact ⟨⟨.of_eq rfl rfl, rfl, rfl, rfl⟩, rfl, rfl⟩

theorem remains_ask (s : State) (t : Task) : Remains s (s.ask t) := by
  refine ⟨keeps_ask s t, ?_, ?_, ?_⟩ <;> (unfold ask; split <;> rfl)

theorem remains_release (s : State) : Remains s s.release := by
  unfold release
  split
  · exact ⟨.of_eq rfl rfl, rfl, rfl, rfl⟩
  · rename_i t rest _
    have woken := stays_wake { s with holder := some t, queue := rest } t
    exact ⟨woken.toKeeps.after rfl rfl, woken.refreshers, woken.schedule, woken.watches⟩

theorem stays_close (s : State) : Stays s s.close := by
  have opened (t : State) (closings : List Closing) (nextId : Nat) (awaited : Bool) :
      Stays t { t with closings, nextId, awaited } :=
    ⟨⟨.of_eq rfl rfl, rfl, rfl, rfl⟩, rfl, rfl⟩
  unfold close
  dsimp only
  split
  · exact ((stays_cancel s).trans (opened _ _ _ _)).trans (stays_runClosing _ _)
  · exact (stays_cancel s).trans (opened _ _ _ _)

theorem holder_of_fetching (sound : s.core.Sound p) {next started : Instant}
    (fetching : s.schedule = .fetching next started) : s.holder = some .schedule := by
  cases sound.seat with
  | nobody _ idle | lookup _ _ idle =>
    rw [show s.core.schedule = _ from fetching] at idle
    cases idle
  | schedule _ _ _ _ holder => exact holder

/-! ### The line -/

/-- Who holds the guard and who waits for it, the first in front. -/
def line (s : State) : List Task := s.holder.toList ++ s.queue

/-- The task has a use for the guard. -/
def Wants (s : State) : Task → Prop
  -- it has asked for the guard, and not begun a refresh
  | .lookup id => ∃ l, s.lookup? id = some l ∧ l.phase = .queued
  -- it is not over
  | .refresh id => ∃ r, s.refresher? id = some r
  -- it has a tick in hand
  | .schedule => s.schedule.isBusy = true
  -- it has not seen the record
  | .watch id => ∃ w, s.watch? id = some w ∧ w.seen = none
  | .closing _ => False

theorem Wants.knows {t : Task} (h : s.Wants t) : s.Knows t := by
  cases t with
  | lookup =>
    obtain ⟨l, found, -⟩ := h
    exact Option.isSome_of_eq_some found
  | refresh =>
    obtain ⟨r, found⟩ := h
    exact Option.isSome_of_eq_some found
  | schedule => trivial
  | watch =>
    obtain ⟨w, found, -⟩ := h
    exact Option.isSome_of_eq_some found
  | closing => exact False.elim h

/-- A fetch of the task is on the way. -/
def Flies (s : State) (t : Task) : Prop := ∃ since, (t, since) ∈ s.flights

/-- The line is in order: nobody stands there twice or without a use for the guard, the guard is
free only if nobody waits for it, and its holder gets on, for it runs just now (`busy`), is ready to
run or fetches. -/
structure Orderly (s : State) (busy : Option Task) : Prop where
  /-- Nobody stands there twice. -/
  once : s.line.Nodup
  /-- Who stands there has a use for the guard. -/
  wants : ∀ t ∈ s.line, s.Wants t
  /-- The guard is free only if nobody waits for it. -/
  free : s.holder = none → s.queue = []
  /-- Its holder gets on. -/
  served : ∀ t, s.holder = some t → busy = some t ∨ t ∈ s.woken ∨ s.Flies t

/-- A fetch on the way is that of a refresh begun by a lookup, or that of the schedule. -/
theorem mem_flights {t : Task} {since : Instant} : (t, since) ∈ s.flights ↔
    (∃ r ∈ s.refreshers, r.started = some since ∧ .refresh r.id = t) ∨
      t = .schedule ∧ s.schedule.started? = some since := by
  simp only [← flights_core, Core.flights, core, List.mem_append, List.mem_filterMap,
    Option.mem_toList, Option.map_eq_some_iff, Prod.mk.injEq]
  grind

theorem mem_flights_schedule {since : Instant} : (.schedule, since) ∈ s.flights ↔
    ∃ next, s.schedule = .fetching next since := by
  rw [mem_flights]
  constructor
  · rintro (⟨r, -, -, own⟩ | ⟨-, started⟩)
    · cases own
    · cases schedule : s.schedule with
      | fetching next _ => rw [schedule] at started; cases started; exact ⟨next, rfl⟩
      | _ => rw [schedule] at started; cases started
  · rintro ⟨next, fetching⟩
    exact .inr ⟨rfl, by rw [fetching]; rfl⟩

variable {t : Task}

theorem Wants.remains (h : s.Wants t) (remains : Remains s u) : u.Wants t := by
  cases t with
  | lookup id => simpa only [Wants, lookup?, remains.lookups] using h
  | refresh id => simpa only [Wants, refresher?, remains.refreshers] using h
  | schedule => simpa only [Wants, remains.schedule] using h
  | watch id => simpa only [Wants, watch?, remains.watches] using h
  | closing id => exact h

theorem Wants.setPhase (h : s.Wants t) (other : t ≠ .lookup id) (phase : LookupPhase) :
    (s.setPhase id phase).Wants t := by
  cases t with
  | lookup i =>
    obtain ⟨l, found, queued⟩ := h
    have apart : i ≠ id := fun same => other (congrArg Task.lookup same)
    exact ⟨l, by simp [lookup?_setPhase, found, apart], queued⟩
  | _ => exact h

theorem Wants.reschedule (h : s.Wants t) (other : t ≠ .schedule) (schedule : Schedule) :
    ({ s with schedule } : State).Wants t := by
  cases t with
  | schedule => exact absurd rfl other
  | _ => exact h

theorem watch?_disclose (id i : Nat) :
    (s.disclose id).watch? i =
      (s.watch? i).map fun w => if w.id = id then { w with seen := s.ledger } else w := by
  simp only [disclose, watch?, List.find?_map]
  congr 2
  funext w
  by_cases h : w.id = id <;> simp [h]

theorem Wants.disclose (h : s.Wants t) (other : t ≠ .watch id) : (s.disclose id).Wants t := by
  cases t with
  | watch i =>
    obtain ⟨w, found, unseen⟩ := h
    have own : w.id = i := by simpa using List.find?_some found
    have apart : w.id ≠ id := fun same => other (congrArg Task.watch (own.symm.trans same))
    exact ⟨w, by simp [watch?_disclose, found, apart], unseen⟩
  | _ => exact h

theorem Wants.queued (h : s.Wants (.lookup id)) (hl : s.lookup? id = some l) :
    l.phase = .queued := by
  obtain ⟨l', found, queued⟩ := h
  cases found.symm.trans hl
  exact queued

/-- While a lookup has begun a refresh, no other refresh has a use for the guard. -/
theorem Wants.eq_refresh {r : Refresher} (h : s.Wants (.refresh id)) (only : s.refreshers = [r]) :
    r.id = id := by
  obtain ⟨r', found⟩ := h
  have mem := List.mem_of_find?_eq_some found
  rw [only, List.mem_singleton] at mem
  subst mem
  simpa using List.find?_some found

theorem Flies.remains (h : s.Flies t) (remains : Remains s u) : u.Flies t := by
  rwa [Flies, remains.flights]

theorem Flies.reschedule (h : s.Flies t) (other : t ≠ .schedule) (schedule : Schedule) :
    ({ s with schedule } : State).Flies t := by
  obtain ⟨since, flying⟩ := h
  rcases mem_flights.1 flying with refresh | ⟨same, -⟩
  · exact ⟨since, mem_flights.2 (.inl refresh)⟩
  · exact absurd same other

namespace Orderly

/-- Those in line stay in order while they have a use for the guard and the holder gets on. -/
theorem congr (h : s.Orderly busy) (holder : u.holder = s.holder) (queue : u.queue = s.queue)
    (wants : ∀ t ∈ s.line, s.Wants t → u.Wants t) (woken : ∀ t ∈ s.woken, t ∈ u.woken)
    (flies : ∀ t ∈ s.line, s.Flies t → u.Flies t) :
    u.Orderly busy := by
  have same : u.line = s.line := by simp only [line, holder, queue]
  refine ⟨same ▸ h.once, fun t ht => ?_, fun none => ?_, fun t ht => ?_⟩
  · rw [same] at ht
    exact wants t ht (h.wants t ht)
  · rw [queue]
    exact h.free (holder ▸ none)
  · rw [holder] at ht
    have front : t ∈ s.line := by simp [line, ht]
    rcases h.served t ht with running | ready | flies'
    · exact .inl running
    · exact .inr (.inl (woken t ready))
    · exact .inr (.inr (flies t front flies'))

theorem stays (h : s.Orderly busy) (stays : Stays s u) : u.Orderly busy :=
  h.congr stays.holder stays.queue (fun _ _ wants => wants.remains stays.toRemains)
    stays.woken fun _ _ flies => flies.remains stays.toRemains

theorem setPhase (h : s.Orderly busy) (out : .lookup id ∉ s.line) (phase : LookupPhase) :
    (s.setPhase id phase).Orderly busy := by
  refine h.congr rfl rfl (fun t ht wants => ?_) (fun _ ready => ready) fun _ _ flies => flies
  refine wants.setPhase ?_ phase
  rintro rfl
  exact out ht

theorem finish (h : s.Orderly busy) (out : .lookup id ∉ s.line) (phase : LookupPhase) :
    (s.finish id phase).Orderly busy := (h.setPhase out phase).stays (stays_giveUp _)

theorem conclude (h : s.Orderly busy) (out : .lookup l.id ∉ s.line) :
    (s.conclude l).Orderly busy := by
  unfold State.conclude
  split <;> exact h.finish out _

theorem reschedule (h : s.Orderly busy) (out : .schedule ∉ s.line) (schedule : Schedule) :
    ({ s with schedule } : State).Orderly busy := by
  have other {t : Task} (ht : t ∈ s.line) : t ≠ .schedule := by
    rintro rfl
    exact out ht
  exact h.congr rfl rfl (fun t ht wants => wants.reschedule (other ht) schedule)
    (fun _ ready => ready) fun t ht flies => flies.reschedule (other ht) schedule

theorem rest (h : s.Orderly busy) (out : .schedule ∉ s.line) (due : Instant) :
    (s.rest due).Orderly busy := by
  have waiting := h.reschedule out (.waiting due)
  unfold State.rest
  split
  · exact waiting.stays
      ⟨⟨⟨rfl, fun _ ready => List.mem_cons_of_mem _ ready⟩, rfl, rfl, rfl⟩, rfl, rfl⟩
  · exact waiting

theorem endSchedule (h : s.Orderly busy) (out : .schedule ∉ s.line) (how : Schedule) :
    (s.endSchedule how).Orderly busy :=
  (h.reschedule out how).stays (stays_foldl_wake _ _)

/-- Who has run leaves the line in order, if he gets on in case he holds the guard. -/
theorem leave (h : s.Orderly (some task)) (goesOn : s.holder = some task →
    task ∈ s.woken ∨ s.Flies task) : s.Orderly none := by
  refine ⟨h.once, h.wants, h.free, fun t ht => .inr ?_⟩
  rcases h.served t ht with running | ready
  · cases running
    exact goesOn ht
  · exact ready

theorem leave_of_ne (h : s.Orderly (some task)) (off : s.holder ≠ some task) : s.Orderly none :=
  h.leave fun holds => absurd holds off

theorem leave_of_not_mem (h : s.Orderly (some task)) (out : task ∉ s.line) : s.Orderly none :=
  h.leave_of_ne fun holds => out (by simp [line, holds])

theorem not_mem_queue (h : s.Orderly busy) (holds : s.holder = some task) : task ∉ s.queue := by
  have once := h.once
  simp only [line, holds, Option.toList_some, List.singleton_append, List.nodup_cons] at once
  exact once.1

theorem queue_nodup (h : s.Orderly busy) : s.queue.Nodup :=
  h.once.sublist (List.sublist_append_right ..)

theorem wants_queue (h : s.Orderly busy) {t : Task} (ht : t ∈ s.queue) : s.Wants t :=
  h.wants t (List.mem_append_right _ ht)

theorem line_ask (h : s.Orderly busy) (t : Task) : (s.ask t).line = s.line ++ [t] := by
  unfold State.ask
  cases holder : s.holder with
  | none => simp [line, holder, h.free holder]
  | some => simp [line, holder]

theorem ask (h : s.Orderly (some task)) (out : task ∉ s.line) (wants : s.Wants task) :
    (s.ask task).Orderly (some task) := by
  have remains := remains_ask s task
  refine ⟨?_, fun t ht => Wants.remains ?_ remains, ?_, fun t ht => ?_⟩
  · rw [h.line_ask, List.nodup_append]
    refine ⟨h.once, List.pairwise_singleton .., ?_⟩
    rintro t ht _ new rfl
    exact out (List.mem_singleton.1 new ▸ ht)
  · rw [h.line_ask] at ht
    rcases List.mem_append.1 ht with ht | ht
    · exact h.wants t ht
    · rwa [List.mem_singleton.1 ht]
  · unfold State.ask
    cases s.holder <;> simp
  · have holder : s.holder.or (some task) = some t :=
      (congrArg Core.holder (core_ask s task)).symm.trans ht
    rcases Option.or_eq_some_iff.1 holder with before | ⟨-, new⟩
    · rcases h.served t before with running | ready | flies
      · exact .inl running
      · exact .inr (.inl (remains.woken t ready))
      · exact .inr (.inr (flies.remains remains))
    · exact .inl new

end Orderly

/-! ### Handing on the guard -/

theorem line_release (s : State) : s.release.line = s.queue := by
  unfold release
  split
  · rename_i empty
    simp [line, empty]
  · rename_i t rest queue
    have woken := stays_wake { s with holder := some t, queue := rest } t
    simp [line, woken.holder, woken.queue, queue]

/-- The line is in order once the guard has been handed on, if those who wait stand there once and
have a use for it. -/
theorem orderly_release (once : s.queue.Nodup) (wants : ∀ t ∈ s.queue, s.Wants t) :
    s.release.Orderly none := by
  refine ⟨(line_release s).symm ▸ once, fun t ht => ?_, fun free => ?_, fun t ht => ?_⟩
  · rw [line_release] at ht
    exact (wants t ht).remains (remains_release s)
  · have holder : s.queue.head? = none := (congrArg Core.holder (core_release s)).symm.trans free
    have empty : s.queue = [] := List.head?_eq_none_iff.1 holder
    simp only [release, empty]
  · -- who gets the guard is made ready to run
    refine .inr (.inl ?_)
    have holder : s.queue.head? = some t := (congrArg Core.holder (core_release s)).symm.trans ht
    obtain ⟨rest, queue⟩ := List.head?_eq_some_iff.1 holder
    simp only [release, queue]
    exact mem_woken_wake _ t

namespace Orderly

theorem release (h : s.Orderly busy) (holds : s.holder = some task) :
    s.release.Orderly none ∧ task ∉ s.release.line :=
  ⟨orderly_release h.queue_nodup fun _ ht => h.wants_queue ht,
    line_release s ▸ h.not_mem_queue holds⟩

/-! ### Lookups -/

/-- The refresh that a lookup begins takes its place in front of the line, and is ready to run. -/
theorem takeOver (h : s.Orderly busy) (holds : s.holder = some (.lookup id))
    (nobody : s.refreshers = []) :
    ({ s.setPhase id .refreshing with
        holder := some (.refresh id)
        refreshers := s.refreshers ++ [(⟨id, none⟩ : Refresher)] }.wake (.refresh id)).Orderly
      none := by
  generalize hs' : ({ s.setPhase id .refreshing with
    holder := some (.refresh id)
    refreshers := s.refreshers ++ [(⟨id, none⟩ : Refresher)] } : State) = s'
  have line' : s'.line = .refresh id :: s.queue := by subst hs'; rfl
  have front : s'.Wants (.refresh id) := by
    subst hs'
    exact ⟨⟨id, none⟩, by simp [refresher?, nobody]⟩
  have behind (t : Task) (ht : t ∈ s.queue) : t ≠ .refresh id ∧ s'.Wants t := by
    have apart : t ≠ .lookup id := by
      rintro rfl
      exact h.not_mem_queue holds ht
    have wants := (h.wants_queue ht).setPhase apart .refreshing
    subst hs'
    cases t with
    | refresh i =>
      -- no other refresh is in line
      obtain ⟨r, found⟩ := h.wants_queue ht
      simp [refresher?, nobody] at found
    | _ => exact ⟨nofun, wants⟩
  have taken : s'.Orderly (some (.refresh id)) := by
    refine ⟨?_, fun t ht => ?_, fun free => ?_, fun t ht => .inl ?_⟩
    · rw [line']
      exact List.nodup_cons.2 ⟨fun mem => (behind _ mem).1 rfl, h.queue_nodup⟩
    · rw [line'] at ht
      rcases List.mem_cons.1 ht with rfl | ht
      · exact front
      · exact (behind t ht).2
    · subst hs'
      cases free
    · subst hs'
      exact ht
  exact (taken.stays (stays_wake s' _)).leave fun _ => .inl (mem_woken_wake s' _)

theorem inspect (h : s.Orderly (some (.lookup l.id))) (sound : s.core.Sound p)
    (holds : s.holder = some (.lookup l.id)) : (s.inspect p l).Orderly none := by
  unfold State.inspect
  split
  · obtain ⟨handed, out⟩ := h.release holds
    exact handed.conclude out
  split
  · have holds' : (s.note [.missLimited l.kid]).holder = some (.lookup l.id) := holds
    obtain ⟨handed, out⟩ := (h.stays (stays_note s _)).release holds'
    exact handed.conclude out
  · exact (h.stays (stays_note s [.missRefreshing l.kid])).takeOver holds
      (idle_of_holder_lookup sound holds).refreshers

theorem miss (h : s.Orderly (some (.lookup l.id))) (sound : s.core.Sound p)
    (hl : s.lookup? l.id = some l) (out : .lookup l.id ∉ s.line) : (s.miss p l).Orderly none := by
  have wants : (s.setPhase l.id .queued).Wants (.lookup l.id) :=
    ⟨{ l with phase := .queued }, by simp [lookup?_setPhase, hl], rfl⟩
  have asked := (h.setPhase out .queued).ask out wants
  have quiet := quiet_ask (s := s.setPhase l.id .queued) sound (.lookup l.id)
  unfold State.miss
  dsimp only
  split
  · rename_i holds
    exact asked.inspect quiet.sound holds
  · rename_i off
    exact asked.leave_of_ne off

theorem runLookup (h : s.Orderly (some (.lookup l.id))) (sound : s.core.Sound p)
    (hl : s.lookup? l.id = some l) : (s.runLookup p l).Orderly none := by
  -- a lookup that is not queued is not in line
  have apart (other : l.phase ≠ .queued) : .lookup l.id ∉ s.line :=
    fun mem => other ((h.wants _ mem).queued hl)
  unfold State.runLookup
  split
  · rename_i called
    have out := apart (by rw [called]; nofun)
    split
    · exact (h.leave_of_not_mem out).conclude out
    · split
      · exact h.miss sound hl out
      · exact ((h.leave_of_not_mem out).stays (stays_note s _)).conclude out
  · split
    · rename_i holds
      exact h.inspect sound holds
    · rename_i off
      exact h.leave_of_ne off
  · rename_i how joined
    have out := apart (by rw [joined]; nofun)
    exact ((h.leave_of_not_mem out).stays (stays_note s _)).conclude out
  · rename_i queued _
    exact h.leave_of_not_mem (apart queued)

/-! ### Watches -/

theorem glance (h : s.Orderly busy) (holds : s.holder = some (.watch id)) :
    (s.disclose id).release.giveUp.Orderly none := by
  refine (orderly_release (s := s.disclose id) h.queue_nodup fun t ht => ?_).stays
    (stays_giveUp _)
  refine (h.wants_queue ht).disclose ?_
  rintro rfl
  exact h.not_mem_queue holds ht

theorem runWatch {w : Watch} (h : s.Orderly (some (.watch w.id)))
    (hw : s.watch? w.id = some w) : (s.runWatch w).Orderly none := by
  unfold State.runWatch
  split
  · rename_i seen
    refine h.leave_of_not_mem fun mem => ?_
    obtain ⟨w', found, unseen⟩ := h.wants _ mem
    cases found.symm.trans hw
    simp [unseen] at seen
  rename_i unseen
  split
  · rename_i holds
    exact h.glance holds
  rename_i off
  split
  · exact h.leave_of_ne off
  · rename_i apart
    have out : .watch w.id ∉ s.line := by
      rw [line, List.mem_append]
      rintro (front | behind)
      · exact off (by simpa using front)
      · exact apart (by simpa using behind)
    have asked := h.ask out ⟨w, hw, by simpa using unseen⟩
    dsimp only
    split
    · rename_i holds
      exact asked.glance holds
    · rename_i off
      exact asked.leave_of_ne off

/-! ### Fetches -/

theorem endRefresh {r : Refresher} (h : s.Orderly busy) (only : s.refreshers = [r])
    (holds : s.holder = some (.refresh r.id)) (end_ : Answer) :
    (s.endRefresh p r.id end_).Orderly none := by
  have entered := (stays_note s end_.events).trans
    (stays_enter (p := p) _ .unknownKey end_.outcome)
  unfold State.endRefresh
  dsimp only
  generalize (s.note end_.events).enter p .unknownKey end_.outcome = n at entered ⊢
  have handed : ({ n with
      refreshers := n.refreshers.filter (·.id != r.id) } : State).release.Orderly none := by
    refine orderly_release (entered.queue ▸ h.queue_nodup) fun t ht => ?_
    have ht : t ∈ s.queue := entered.queue ▸ ht
    have wants : n.Wants t := (h.wants_queue ht).remains entered.toRemains
    cases t with
    | refresh i =>
      -- the refresh that ends is the only one, and it does not wait
      rw [← wants.eq_refresh (entered.refreshers.trans only)] at ht
      exact absurd ht (h.not_mem_queue holds)
    | _ => exact wants
  unfold State.join
  split
  · rename_i l hl
    split
    · rename_i refreshing
      refine (handed.setPhase (fun mem => ?_) _).stays (stays_wake _ _)
      have queued := (handed.wants _ mem).queued hl
      rw [refreshing] at queued
      cases queued
    · exact handed
  · exact handed

theorem startRefresh {r : Refresher} (h : s.Orderly busy) (only : s.refreshers = [r])
    (unstarted : r.started = none) :
    ({ s with
        fetches := s.fetches + 1
        refreshers := [{ r with started := some s.now }] } : State).Orderly busy := by
  refine h.congr rfl rfl (fun t _ wants => ?_) (fun _ ready => ready) fun t _ flies => ?_
  · cases t with
    | refresh i =>
      have own := wants.eq_refresh only
      exact ⟨{ r with started := some s.now }, by simp [refresher?, own]⟩
    | _ => exact wants
  · obtain ⟨since, flying⟩ := flies
    rcases mem_flights.1 flying with ⟨r', mem, started, -⟩ | schedule
    · rw [only, List.mem_singleton] at mem
      rw [mem, unstarted] at started
      cases started
    · exact ⟨since, mem_flights.2 (.inr schedule)⟩

theorem launch {r : Refresher} (h : s.Orderly busy) (only : s.refreshers = [r]) :
    (s.launch r).Orderly busy := by
  cases started : r.started with
  | some since => rwa [launch_of_some started]
  | none =>
    rw [launch_of_none only started]
    exact h.startRefresh only started

theorem runRefresh {r : Refresher} (h : s.Orderly (some (.refresh r.id))) (sound : s.core.Sound p)
    (hr : s.refresher? r.id = some r) : (s.runRefresh p r answer).Orderly none := by
  obtain ⟨-, only, -, holds, -⟩ := seat_of_refresher? sound hr
  obtain ⟨since, only'⟩ := refreshers_launch only
  rcases s.runRefresh_cases p r answer with ⟨-, same⟩ | ⟨end_, -, same⟩ <;> rw [same]
  · have flying : (.refresh r.id, since) ∈ (s.launch r).flights :=
      mem_flights.2 (.inl ⟨⟨r.id, some since⟩, by simp [only'], rfl, rfl⟩)
    exact (h.launch only).leave fun _ => .inr ⟨since, flying⟩
  · exact (h.launch only).endRefresh only' ((holder_launch s r).trans holds) end_

theorem endTick (h : s.Orderly busy) (holds : s.holder = some .schedule) (next : Instant)
    (end_ : Answer) : (s.endTick p next end_).Orderly none := by
  have entered := (stays_note s end_.events).trans (stays_enter (p := p) _ .scheduled end_.outcome)
  unfold State.endTick
  dsimp only
  generalize (s.note end_.events).enter p .scheduled end_.outcome = n at entered ⊢
  have holds' : n.holder = some .schedule := entered.holder.trans holds
  split
  · obtain ⟨handed, out⟩ := (h.stays entered).release holds'
    exact handed.rest out next
  · have holds'' : (n.note [.tickFailed]).holder = some .schedule := holds'
    obtain ⟨handed, out⟩ := ((h.stays entered).stays (stays_note n _)).release holds''
    exact handed.rest out next
  · obtain ⟨handed, out⟩ := (h.stays entered).release holds'
    exact handed.endSchedule out .broken

theorem startFetch (h : s.Orderly busy) (next : Instant) :
    ({ s with fetches := s.fetches + 1, schedule := .fetching next s.now } : State).Orderly
      busy := by
  refine h.congr rfl rfl (fun t _ wants => ?_) (fun _ ready => ready) fun t _ flies => ?_
  · cases t with
    | schedule => rfl
    | _ => exact wants
  · by_cases same : t = .schedule
    · exact ⟨s.now, mem_flights.2 (.inr ⟨same, rfl⟩)⟩
    · exact flies.reschedule same (.fetching next s.now)

theorem runFetch (h : s.Orderly (some .schedule)) (holds : s.holder = some .schedule)
    {next started : Instant} (fetching : s.schedule = .fetching next started) :
    (s.runFetch p next started answer).Orderly none := by
  unfold State.runFetch
  split
  · exact h.endTick holds next _
  · have flying : (.schedule, started) ∈ s.flights :=
      mem_flights_schedule.2 ⟨_, fetching⟩
    exact h.leave fun _ => .inr ⟨started, flying⟩

theorem handle (h : s.Orderly (some .schedule)) (holds : s.holder = some .schedule)
    (next : Instant) : (s.handle p next answer).Orderly none := by
  unfold State.handle
  split
  · have holds' : (s.note [.tickSkipped]).holder = some .schedule := holds
    obtain ⟨handed, out⟩ := (h.stays (stays_note s _)).release holds'
    exact handed.rest out next
  · exact (h.startFetch next).runFetch holds rfl

theorem tick (h : s.Orderly (some .schedule)) (out : .schedule ∉ s.line) (due : Instant) :
    (s.tick p due answer).Orderly none := by
  have asked := (h.reschedule out (.queued (s.nextTick p due))).ask out rfl
  unfold State.tick
  dsimp only
  split
  · rename_i holds
    exact asked.handle holds _
  · rename_i off
    exact asked.leave_of_ne off

theorem runSchedule (h : s.Orderly (some .schedule)) (sound : s.core.Sound p) :
    (s.runSchedule p stops answer).Orderly none := by
  have apart (idle : s.schedule.isBusy = false) : .schedule ∉ s.line := by
    intro mem
    have busy : s.schedule.isBusy = true := h.wants _ mem
    rw [idle] at busy
    cases busy
  unfold State.runSchedule
  split
  · rename_i starting
    have out := apart (by rw [starting]; rfl)
    exact (h.leave_of_not_mem out).rest out _
  · rename_i due waiting
    have out := apart (by rw [waiting]; rfl)
    split
    · exact ((h.leave_of_not_mem out).stays (stays_note s _)).endSchedule out .ended
    · split
      · exact h.tick out due
      · exact h.leave_of_not_mem out
  · split
    · rename_i holds
      exact h.handle holds _
    · rename_i off
      exact h.leave_of_ne off
  · rename_i next started fetching
    exact h.runFetch (holder_of_fetching sound fetching) fetching
  · refine h.leave_of_not_mem (apart ?_)
    cases schedule : s.schedule <;> simp_all [Schedule.isBusy]

/-! ### Tasks -/

theorem runs (h : s.Orderly (some task)) (sound : s.core.Sound p)
    (runs : s.Runs p stops answer task u) : u.Orderly none := by
  cases runs with
  | unknown _ unknown => exact h.leave_of_not_mem fun mem => unknown (h.wants _ mem).knows
  | lookup l known => exact h.runLookup sound known
  | refresh r known => exact h.runRefresh sound known
  | schedule => exact h.runSchedule sound
  | watch w known => exact h.runWatch known
  | closing c => exact (h.leave_of_not_mem (h.wants _)).stays (stays_runClosing s c)

theorem unwake (h : s.Orderly none) (task : Task) : (s.unwake task).Orderly (some task) := by
  refine ⟨h.once, fun t ht => ?_, h.free, fun t ht => ?_⟩
  · have wants := h.wants t ht
    cases t <;> exact wants
  · by_cases same : t = task
    · exact .inl (same ▸ rfl)
    · rcases h.served t ht with running | ready | flies
      · cases running
      · exact .inr (.inl (List.mem_filter.2 ⟨ready, by simpa using same⟩))
      · exact .inr (.inr flies)

/-! ### Tasks from outside -/

theorem call (h : s.Orderly none) (kid : String) : (s.call kid).Orderly none := by
  refine Orderly.stays ?_ (stays_wake _ _)
  refine h.congr rfl rfl (fun t _ wants => ?_) (fun _ ready => ready) fun _ _ flies => flies
  cases t with
  | lookup id =>
    obtain ⟨l, found, queued⟩ := wants
    exact ⟨l, (List.find?_append ..).trans (Option.or_eq_some_iff.2 (.inl found)), queued⟩
  | _ => exact wants

theorem watch (h : s.Orderly none) : s.watch.Orderly none := by
  refine Orderly.stays ?_ (stays_wake _ _)
  refine h.congr rfl rfl (fun t _ wants => ?_) (fun _ ready => ready) fun _ _ flies => flies
  cases t with
  | watch id =>
    obtain ⟨w, found, unseen⟩ := wants
    exact ⟨w, (List.find?_append ..).trans (Option.or_eq_some_iff.2 (.inl found)), unseen⟩
  | _ => exact wants

/-- Whoever is given up in front of the line hands the guard on. -/
theorem retire_release (h : s.Orderly none) (task : Task) :
    (s.retire task).release.Orderly none := by
  refine orderly_release (h.queue_nodup.filter _) fun t ht => ?_
  have wants := h.wants_queue (mem_queue_retire.1 ht).1
  cases t <;> exact wants

theorem retire (h : s.Orderly none) (off : s.holder ≠ some task) :
    (s.retire task).Orderly none ∧ task ∉ (s.retire task).line := by
  have sub : (s.retire task).line.Sublist s.line := List.filter_sublist.append_left _
  refine ⟨⟨h.once.sublist sub, fun t ht => ?_, fun free => ?_, fun t ht => ?_⟩, fun inside => ?_⟩
  · have wants := h.wants t (sub.subset ht)
    cases t <;> exact wants
  · have nobody := h.free free
    simp [State.retire, nobody]
  · rcases h.served t ht with running | ready | flies
    · cases running
    · refine .inr (.inl (mem_woken_retire.2 ⟨ready, ?_⟩))
      rintro rfl
      exact off ht
    · exact .inr (.inr flies)
  · rcases List.mem_append.1 inside with front | behind
    · exact off (Option.mem_toList.1 front)
    · exact (mem_queue_retire.1 behind).2 rfl

theorem abort (h : s.Orderly none) (id : Nat) : (s.abort id).Orderly none := by
  rw [abort_eq]
  split
  · refine (h.retire_release _).finish ?_ .aborted
    rw [line_release]
    exact fun behind => (mem_queue_retire.1 behind).2 rfl
  · rename_i off
    obtain ⟨ordered, gone⟩ := h.retire off
    exact ordered.finish gone .aborted

end Orderly

end State

/-! ### Steps -/

theorem orderly_load (now : Instant) (events : List Event) (keys : KeySet) :
    (State.load p now events keys).Orderly none := ⟨.nil, nofun, fun _ => rfl, nofun⟩

/-- **Every step keeps the line in order.** -/
theorem orderly_step (sound : s.core.Sound p) (h : s.Orderly none) (hs : step p s a = some u) :
    u.Orderly none := by
  cases step_eq_some_iff.1 hs with
  | call kid => exact h.call kid
  | abort l => exact h.abort l.id
  | watch => exact h.watch
  | close => exact h.stays (State.stays_close s)
  | drop => exact h.stays s.stays_drop
  | wake task => exact h.stays (State.stays_wake s task)
  | run task _ _ _ runs => exact (h.unwake task).runs sound runs
  | advance time => exact h.stays (s.stays_advance time)
  | note events => exact h.stays (State.stays_note s events)

theorem Reaches.orderly {as : List Action} {now : Instant} {events : List Event} {keys : KeySet}
    (run : Reaches p (.load p now events keys) as s) : s.Orderly none := by
  induction run with
  | refl => exact orderly_load now events keys
  | tail before last ih => exact orderly_step before.sound ih last

/-! ### Fetches on the way -/

/-- Nothing is fetched, or one task fetches, with the guard in hand and since no longer than a fetch
may last. -/
theorem Core.Sound.flights_cases {c : Core} (sound : c.Sound p) :
    c.flights = [] ∨ ∃ task since, c.flights = [(task, since)] ∧ c.holder = some task ∧
      since ≤ c.now ∧ c.now ≤ since + p.options.timeout.nanos := by
  cases sound.seat with
  | nobody hr hs => exact .inl (Idle.mk hr hs).flights
  | lookup r hr hs holder _ begun timely =>
    cases started : r.started with
    | none => exact .inl (by simp [Core.flights, hr, hs, started])
    | some since =>
      rw [started] at begun timely
      exact .inr ⟨.refresh r.id, since, by simp [Core.flights, hr, hs, started], holder, begun,
        timely⟩
  | schedule next started hr hs holder _ begun timely =>
    exact .inr ⟨.schedule, started, by simp [Core.flights, hr, hs, Schedule.started?], holder,
      begun, timely⟩

/-- **Mutual exclusion, and no leaked guard.**  In every state that a run gets to, whatever lookups
were given up on the way and however fetches ended, at most one fetch is on the way; who fetches
holds the guard, and does so no longer than a fetch may last.  And where nobody is ready to run, the
guard is held only if a fetch is on the way. -/
theorem holder_iff_flight {as : List Action} {now : Instant} {events : List Event} {keys : KeySet}
    (run : Reaches p (.load p now events keys) as s) :
    s.flights.length ≤ 1 ∧
    (∀ f ∈ s.flights, s.holder = some f.1 ∧ f.2 ≤ s.now ∧
      s.now ≤ f.2 + p.options.timeout.nanos) ∧
    (s.woken = [] → (s.holder.isSome = true ↔ s.flights.length = 1)) := by
  have flights := run.sound.flights_cases
  rw [State.flights_core] at flights
  refine ⟨?_, ?_, fun idle => ⟨fun held => ?_, fun single => ?_⟩⟩
  · rcases flights with none | ⟨task, since, one, -⟩
    · simp [none]
    · simp [one]
  · rcases flights with none | ⟨task, since, one, holder, begun, timely⟩
    · simp [none]
    · intro f hf
      rw [one, List.mem_singleton] at hf
      subst hf
      exact ⟨holder, begun, timely⟩
  · -- nobody runs or is ready to run, so that its holder fetches
    obtain ⟨task, holds⟩ := Option.isSome_iff_exists.1 held
    rcases run.orderly.served task holds with running | ready | ⟨since, flying⟩
    · cases running
    · rw [idle] at ready
      cases ready
    · rcases flights with none | ⟨_, _, one, -⟩
      · rw [none] at flying
        cases flying
      · simp [one]
  · rcases flights with none | ⟨task, since, one, holder, -⟩
    · simp [none] at single
    · exact Option.isSome_iff_exists.2 ⟨task, holder⟩

/-- Two lookups miss their keys; the first is given up after it has begun a refresh, and that
refresh breaks down. -/
def brokenRun : List Action :=
  [.run .schedule false none, .call "a", .call "b", .run (.lookup 0) false none,
    .run (.lookup 1) false none, .run (.refresh 0) false none, .abort 0, .wake (.refresh 0),
    .run (.refresh 0) false (some ⟨[], .crashed⟩), .run (.lookup 1) false none,
    .run (.refresh 1) false none]

/-- The guard has gone on to the second lookup, whose refresh fetches. -/
theorem holder_iff_flight_brokenRun :
    ∃ s, Reaches samplePolicy (.load samplePolicy 0 [] .empty) brokenRun s ∧ s.woken = [] ∧
      s.holder = some (.refresh 1) ∧ s.flights.length = 1 := by
  obtain ⟨s, run, idle, holds⟩ : ∃ s,
      Reaches samplePolicy (.load samplePolicy 0 [] .empty) brokenRun s ∧ s.woken = [] ∧
        s.holder = some (.refresh 1) :=
    ⟨_, reaches_iff_after?.2 rfl, rfl, rfl⟩
  obtain ⟨-, -, held⟩ := holder_iff_flight run
  exact ⟨s, run, idle, holds, (held idle).1 (by rw [holds]; rfl)⟩

end BearerAuth.KeyCache
