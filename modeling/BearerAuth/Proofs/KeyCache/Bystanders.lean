import BearerAuth.Proofs.KeyCache.Effects

/-!
# What the schedule leaves alone

The schedule changes its own place, the guard, who is ready to run, and what the end of a fetch
changes.  Who else is there, and how far each has come, is none of its business; nor is the clock.

* `State.bystanders` is all that it leaves alone;
* `State.bystanders_wake` and its like : the moves that it has in common with others;
* `State.bystanders_runSchedule` : a turn of the schedule, from these moves.

That the schedule leaves some part of a state alone is read off from here.
-/

namespace BearerAuth.KeyCache

/-- The part of a state that the schedule leaves alone. -/
structure Bystanders where
  /-- The present. -/
  now : Instant
  /-- All lookups so far. -/
  lookups : List Lookup
  /-- The refreshes that lookups have begun. -/
  refreshers : List Refresher
  /-- The schedule shall stop. -/
  cancelled : Bool
  /-- The cache has an owner. -/
  owned : Bool
  /-- Somebody has begun to wait for the end of the schedule. -/
  awaited : Bool
  /-- All who asked for the record so far. -/
  watches : List Watch
  /-- All who stopped the schedule so far. -/
  closings : List Closing
  /-- The number that is given next. -/
  nextId : Nat

namespace State

/-- The part of a state that the schedule leaves alone. -/
def bystanders (s : State) : Bystanders where
  now := s.now
  lookups := s.lookups
  refreshers := s.refreshers
  cancelled := s.cancelled
  owned := s.owned
  awaited := s.awaited
  watches := s.watches
  closings := s.closings
  nextId := s.nextId

variable (p : Policy) (s : State)

@[simp] theorem bystanders_note (events : List Event) :
    (s.note events).bystanders = s.bystanders := rfl

@[simp] theorem bystanders_wake (t : Task) : (s.wake t).bystanders = s.bystanders := by
  unfold wake; split <;> rfl

@[simp] theorem bystanders_ask (t : Task) : (s.ask t).bystanders = s.bystanders := by
  unfold ask; split <;> rfl

@[simp] theorem bystanders_release : s.release.bystanders = s.bystanders := by
  unfold release
  split
  · rfl
  · exact bystanders_wake _ _

@[simp] theorem bystanders_enter (trigger : Trigger) (how : FetchEnd) :
    (s.enter p trigger how).bystanders = s.bystanders := by
  cases how <;> rfl

@[simp] theorem bystanders_rest (due : Instant) : (s.rest due).bystanders = s.bystanders := by
  unfold rest; split <;> rfl

theorem bystanders_foldl_wake (closings : List Closing) :
    (closings.foldl (fun s c => s.wake (.closing c.id)) s).bystanders = s.bystanders := by
  induction closings generalizing s with
  | nil => rfl
  | cons c rest ih => rw [List.foldl_cons, ih, bystanders_wake]

@[simp] theorem bystanders_endSchedule (how : Schedule) :
    (s.endSchedule how).bystanders = s.bystanders := by
  rw [endSchedule, bystanders_foldl_wake]; rfl

@[simp] theorem bystanders_endTick (next : Instant) (end_ : Answer) :
    (s.endTick p next end_).bystanders = s.bystanders := by
  unfold endTick
  dsimp only
  split <;> simp

@[simp] theorem bystanders_runFetch (next started : Instant) (answer : Option Answer) :
    (s.runFetch p next started answer).bystanders = s.bystanders := by
  unfold runFetch; split <;> simp

@[simp] theorem bystanders_handle (next : Instant) (answer : Option Answer) :
    (s.handle p next answer).bystanders = s.bystanders := by
  unfold handle
  split
  · simp
  · exact bystanders_runFetch p _ next s.now answer

@[simp] theorem bystanders_tick (due : Instant) (answer : Option Answer) :
    (s.tick p due answer).bystanders = s.bystanders := by
  unfold tick
  dsimp only
  split
  · rw [bystanders_handle, bystanders_ask]; rfl
  · rw [bystanders_ask]; rfl

/-- **The schedule leaves the bystanders alone.** -/
theorem bystanders_runSchedule (stops : Bool) (answer : Option Answer) :
    (s.runSchedule p stops answer).bystanders = s.bystanders := by
  unfold runSchedule
  split
  · simp
  · split
    · simp
    · split <;> simp
  · split <;> simp
  · simp
  · rfl

end State

end BearerAuth.KeyCache
