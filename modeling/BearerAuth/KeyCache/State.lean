import BearerAuth.Event
import BearerAuth.KeySet
import BearerAuth.Settings

/-!
# The state of a key cache

A key cache holds the keys of a source, and replaces them by what later fetches bring.  Whatever
waits in it is a task; one guard is handed from task to task, and only who holds it may refresh.

* `Task` lists the tasks;
* `Ledger` is the record of refreshes, `Ledger.limited` the rate limit;
* `State` is the whole state, `State.load` the one after the first keys have been loaded;
* `State.Settled` says that nothing can run before time passes.
-/

namespace BearerAuth.KeyCache

/-- A point in time, in nanoseconds, on a clock that never goes back. -/
abbrev Instant := Nat

/-! ### Sources -/

/-- How a fetch of keys ends. -/
inductive FetchEnd where
  /-- It brings keys. -/
  | keys (keys : KeySet)
  /-- It fails. -/
  | failed (why : Failure)
  /-- The source breaks down. -/
  | crashed
  deriving DecidableEq, Repr

/-- What a source answers to a fetch. -/
structure Answer where
  /-- What is logged on the way. -/
  events : List Event
  /-- The end of the fetch. -/
  outcome : FetchEnd
  deriving DecidableEq, Repr

/-- The answer that a text of keys is. -/
def Answer.ofDocument (doc : Json.Document) : Answer where
  events := KeySet.noticesOf doc
  outcome :=
    match KeySet.ofDocument doc with
    | .ok keys => .keys keys
    | .error f => .failed f

/-- What stays the same in the life of a cache. -/
structure Policy where
  /-- The source in words. -/
  source : String
  /-- The source can change, so it is worth a refresh. -/
  polling : Bool
  /-- When keys are refreshed. -/
  options : RefreshOptions
  /-- Failures of refreshes are logged. -/
  logsFailures : Bool := false
  deriving DecidableEq, Repr

namespace Policy

variable (p : Policy)

/-- Refreshes are scheduled. -/
def scheduled : Bool := p.polling && !p.options.interval.isZero

/-- The failure of a fetch that takes too long. -/
def timedOut : Failure :=
  .keySource ("Fetching keys from " ++ p.source ++ " timed out after " ++ p.options.timeout.text)

/-- The cache as it appears in logs. -/
def text : String :=
  "JwksCache \x7b source: " ++ Text.quoted p.source ++ ", options: " ++ p.options.text ++ " \x7d"

end Policy

/-! ### Tasks -/

/-- Something that runs, waits and runs on. -/
inductive Task where
  /-- The lookup of a key. -/
  | lookup (id : Nat)
  /-- The refresh that a lookup has begun, which goes on without it. -/
  | refresh (id : Nat)
  /-- The schedule of refreshes. -/
  | schedule
  /-- Somebody who asks for the record of refreshes. -/
  | watch (id : Nat)
  /-- Somebody who stops the schedule. -/
  | closing (id : Nat)
  deriving DecidableEq, Repr

/-- How a refresh ended, as far as the lookup that began it can tell. -/
inductive Ending where
  /-- It replaced the keys. -/
  | succeeded
  /-- It failed. -/
  | failed
  /-- It broke down. -/
  | crashed
  deriving DecidableEq, Repr

/-- How a refresh ended, given the end of its fetch. -/
def FetchEnd.ending : FetchEnd → Ending
  | keys _ => .succeeded
  | failed _ => .failed
  | crashed => .crashed

/-- How far a lookup has come. -/
inductive LookupPhase where
  /-- It is called and has not run. -/
  | called
  /-- It has asked for the guard. -/
  | queued
  /-- It waits for the refresh that it has begun. -/
  | refreshing
  /-- That refresh has ended. -/
  | joined (how : Ending)
  /-- It has found the key. -/
  | found (key : VerificationKey)
  /-- It has failed. -/
  | failed (why : Failure)
  /-- It was given up. -/
  | aborted
  deriving DecidableEq, Repr

namespace LookupPhase

/-- The lookup is over. -/
def isOver : LookupPhase → Bool
  | found _ | failed _ | aborted => true
  | _ => false

/-- The answer of the lookup, once it has one. -/
def answer? : LookupPhase → Option (Except Failure VerificationKey)
  | found key => some (.ok key)
  | failed why => some (.error why)
  | _ => none

end LookupPhase

/-- A lookup of a key. -/
structure Lookup where
  /-- Its number. -/
  id : Nat
  /-- The name of the key. -/
  kid : String
  /-- When it was called. -/
  calledAt : Instant
  /-- How far it has come. -/
  phase : LookupPhase := .called
  deriving DecidableEq, Repr

/-- A refresh that a lookup has begun. -/
structure Refresher where
  /-- The number of the lookup. -/
  id : Nat
  /-- When its fetch started. -/
  started : Option Instant := none
  deriving DecidableEq, Repr

/-- How far the schedule has come. -/
inductive Schedule where
  /-- There is none. -/
  | off
  /-- It has not run. -/
  | starting
  /-- It waits for its next tick. -/
  | waiting (due : Instant)
  /-- It handles a tick and has asked for the guard; `next` is the tick after. -/
  | queued (next : Instant)
  /-- It handles a tick and fetches. -/
  | fetching (next started : Instant)
  /-- It has stopped. -/
  | ended
  /-- It has broken down. -/
  | broken
  deriving DecidableEq, Repr

/-- The schedule is over, or there is none. -/
def Schedule.isOver : Schedule → Bool
  | off | ended | broken => true
  | _ => false

/-! ### The record of refreshes -/

/-- What is on record about refreshes.  The first load is no attempt. -/
structure Ledger where
  /-- When keys were last replaced, or loaded first. -/
  lastSuccess : Instant
  /-- When the last attempt was completed. -/
  lastAttempt : Option Instant := none
  /-- The number of completed attempts. -/
  attempts : Nat := 0
  /-- The number of attempts that failed. -/
  failures : Nat := 0
  deriving DecidableEq, Repr

namespace Ledger

/-- An attempt was completed less than the limit ago. -/
def limited (l : Ledger) (now : Instant) (limit : Duration) : Bool :=
  l.lastAttempt.any fun t => now - t < limit.nanos

/-- Enters an attempt that has replaced the keys. -/
def succeed (l : Ledger) (now : Instant) : Ledger :=
  { l with lastSuccess := now, lastAttempt := some now, attempts := l.attempts + 1 }

/-- Enters an attempt that has failed. -/
def fail (l : Ledger) (now : Instant) : Ledger :=
  { l with lastAttempt := some now, attempts := l.attempts + 1, failures := l.failures + 1 }

end Ledger

/-- Somebody who asks for the record of refreshes. -/
structure Watch where
  /-- Its number. -/
  id : Nat
  /-- The record, once it has been seen. -/
  seen : Option Ledger := none
  deriving DecidableEq, Repr

/-- Somebody who stops the schedule. -/
structure Closing where
  /-- Its number. -/
  id : Nat
  /-- It waits no longer. -/
  returned : Bool := false
  deriving DecidableEq, Repr

/-! ### The state -/

/-- The state of a cache with all tasks in it. -/
structure State where
  /-- The present. -/
  now : Instant
  /-- The keys in use. -/
  keys : KeySet
  /-- The record of refreshes. -/
  ledger : Ledger
  /-- Who holds the guard. -/
  holder : Option Task := none
  /-- Who waits for the guard, the first to get it in front. -/
  queue : List Task := []
  /-- All lookups so far. -/
  lookups : List Lookup := []
  /-- The refreshes that lookups have begun and that are not over. -/
  refreshers : List Refresher := []
  /-- The schedule of refreshes. -/
  schedule : Schedule := .off
  /-- The schedule shall stop. -/
  cancelled : Bool := false
  /-- The cache has an owner. -/
  owned : Bool := true
  /-- Somebody has begun to wait for the end of the schedule. -/
  awaited : Bool := false
  /-- All who asked for the record so far. -/
  watches : List Watch := []
  /-- All who stopped the schedule so far. -/
  closings : List Closing := []
  /-- The tasks that can run, in the order in which they became ready. -/
  woken : List Task := []
  /-- The number that the next lookup, watch or closing gets. -/
  nextId : Nat := 0
  /-- The number of fetches that have started. -/
  fetches : Nat := 1
  /-- The failures of refreshes that were reported, in order. -/
  reports : List Failure := []
  /-- What was logged, in order. -/
  log : List Event := []
  deriving DecidableEq, Repr

namespace State

/-- The state after the first keys have been loaded. -/
def load (p : Policy) (now : Instant) (events : List Event) (keys : KeySet) : State where
  now := now
  keys := keys
  ledger := { lastSuccess := now }
  schedule := if p.scheduled then .starting else .off
  woken := if p.scheduled then [.schedule] else []
  log := events ++ [.cacheLoaded p.source keys.size p.polling]

variable (p : Policy) (s : State)

/-- The lookup of a number. -/
def lookup? (id : Nat) : Option Lookup := s.lookups.find? (·.id == id)

/-- The refresh begun by the lookup of a number. -/
def refresher? (id : Nat) : Option Refresher := s.refreshers.find? (·.id == id)

/-- The watch of a number. -/
def watch? (id : Nat) : Option Watch := s.watches.find? (·.id == id)

/-- The closing of a number. -/
def closing? (id : Nat) : Option Closing := s.closings.find? (·.id == id)

/-- Somebody still uses the cache. -/
def inUse : Bool :=
  s.owned || s.lookups.any (!·.phase.isOver) || s.watches.any (·.seen.isNone) ||
    s.closings.any (!·.returned)

/-- The fetches on the way: who fetches, and since when. -/
def flights : List (Task × Instant) :=
  (s.refreshers.filterMap fun r => r.started.map (Task.refresh r.id, ·)) ++
    match s.schedule with
    | .fetching _ started => [(.schedule, started)]
    | _ => []

/-- The ticks awaited. -/
def ticks : List Instant :=
  match s.schedule with
  | .waiting due => [due]
  | _ => []

/-- The instants beyond which time cannot pass unless something runs: the awaited tick and the ends
of what fetches may last. -/
def deadlines : List Instant := s.ticks ++ s.flights.map fun f => f.2 + p.options.timeout.nanos

/-- Nothing can run before time passes. -/
def Settled : Prop := s.woken = [] ∧ ∀ t ∈ s.deadlines p, s.now < t

instance : Decidable (s.Settled p) := inferInstanceAs (Decidable (_ ∧ _))

end State

end BearerAuth.KeyCache
