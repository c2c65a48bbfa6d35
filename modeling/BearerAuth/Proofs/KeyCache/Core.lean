import BearerAuth.Proofs.KeyCache.Effects

/-!
# The core of a key cache

Most moves of the tasks in a cache only hand on the guard, wake somebody up or move a lookup to
another phase.  Fetches depend on a small part of the state, its `Core`; what each move does to
this part is said once, here, and nothing later opens a move for it.

* `State.core` is the core of a state, and `Core.flights` are the fetches on the way in it;
* `State.core_wake` and its like: the move leaves the core alone;
* `State.core_release`, `core_ask`, `core_rest`, `core_endSchedule`, `core_enter` : the change that
  the move makes to the core.
-/

namespace BearerAuth.KeyCache

/-- The part of a state that fetches depend on. -/
@[ext]
structure Core where
  /-- The present. -/
  now : Instant
  /-- The keys in use. -/
  keys : KeySet
  /-- The record of refreshes. -/
  ledger : Ledger
  /-- The number of fetches that have started. -/
  fetches : Nat
  /-- The failures that were reported. -/
  reports : List Failure
  /-- Who holds the guard. -/
  holder : Option Task
  /-- The refreshes that lookups have begun. -/
  refreshers : List Refresher
  /-- The schedule. -/
  schedule : Schedule

/-- When the fetch of the schedule started. -/
def Schedule.started? : Schedule → Option Instant
  | fetching _ started => some started
  | _ => none

namespace Core

/-- The fetches on the way: who fetches, and since when. -/
def flights (c : Core) : List (Task × Instant) :=
  (c.refreshers.filterMap fun r => r.started.map (Task.refresh r.id, ·)) ++
    (c.schedule.started?.map (Task.schedule, ·)).toList

/-- The core after the end of a fetch has been entered. -/
def enter (c : Core) : FetchEnd → Core
  | .keys keys => { c with keys, ledger := c.ledger.succeed c.now }
  | .failed why => { c with ledger := c.ledger.fail c.now, reports := c.reports ++ [why] }
  | .crashed => c

end Core

namespace State

/-- The core of a state. -/
def core (s : State) : Core where
  now := s.now
  keys := s.keys
  ledger := s.ledger
  fetches := s.fetches
  reports := s.reports
  holder := s.holder
  refreshers := s.refreshers
  schedule := s.schedule

variable (p : Policy) (s : State)

theorem flights_core : s.core.flights = s.flights := by
  simp only [Core.flights, flights, core]
  cases s.schedule <;> rfl

/-! ### Moves that leave the core alone -/

@[simp] theorem core_note (events : List Event) : (s.note events).core = s.core := rfl

@[simp] theorem core_setPhase (id : Nat) (phase : LookupPhase) :
    (s.setPhase id phase).core = s.core := rfl

@[simp] theorem core_disclose (id : Nat) : (s.disclose id).core = s.core := rfl

@[simp] theorem core_unwake (t : Task) : (s.unwake t).core = s.core := rfl

@[simp] theorem core_wake (t : Task) : (s.wake t).core = s.core := by
  unfold wake; split <;> rfl

@[simp] theorem core_cancel : s.cancel.core = s.core := by
  unfold cancel
  split
  · exact core_wake _ _
  · rfl

@[simp] theorem core_giveUp : s.giveUp.core = s.core := by
  unfold giveUp; split <;> simp

@[simp] theorem core_finish (id : Nat) (phase : LookupPhase) :
    (s.finish id phase).core = s.core := by simp [finish]

@[simp] theorem core_conclude (l : Lookup) : (s.conclude l).core = s.core := by
  unfold conclude; split <;> simp

@[simp] theorem core_join (id : Nat) (how : Ending) : (s.join id how).core = s.core := by
  unfold join
  split
  · split <;> simp
  · rfl

@[simp] theorem core_returnClosing (id : Nat) : (s.returnClosing id).core = s.core := by
  unfold returnClosing
  exact core_giveUp _

@[simp] theorem core_runClosing (c : Closing) : (s.runClosing c).core = s.core := by
  unfold runClosing; split <;> simp

@[simp] theorem core_call (kid : String) : (s.call kid).core = s.core := by
  unfold call
  exact core_wake _ _

@[simp] theorem core_watch : s.watch.core = s.core := by
  unfold watch
  exact core_wake _ _

@[simp] theorem core_close : s.close.core = s.core := by
  unfold close
  dsimp only
  split
  · exact (core_runClosing _ _).trans (core_cancel s)
  · exact core_cancel s

/-! ### Moves that change the core -/

@[simp] theorem core_ask (t : Task) :
    (s.ask t).core = { s.core with holder := s.holder.or (some t) } := by
  unfold ask
  cases h : s.holder <;> simp [core, h]

@[simp] theorem core_release : s.release.core = { s.core with holder := s.queue.head? } := by
  unfold release
  split
  · rename_i h; simp [core, h]
  · rename_i h; exact (core_wake _ _).trans (by simp [core, h])

@[simp] theorem core_rest (due : Instant) :
    (s.rest due).core = { s.core with schedule := .waiting due } := by
  unfold rest; split <;> rfl

theorem core_foldl_wake (closings : List Closing) :
    (closings.foldl (fun s c => s.wake (.closing c.id)) s).core = s.core := by
  induction closings generalizing s with
  | nil => rfl
  | cons c rest ih => rw [List.foldl_cons, ih, core_wake]

@[simp] theorem core_endSchedule (how : Schedule) :
    (s.endSchedule how).core = { s.core with schedule := how } := by
  rw [endSchedule, core_foldl_wake]; rfl

@[simp] theorem core_enter (trigger : Trigger) (how : FetchEnd) :
    (s.enter p trigger how).core = s.core.enter how := by
  cases how <;> rfl

end State

end BearerAuth.KeyCache
