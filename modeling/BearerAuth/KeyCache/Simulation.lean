import BearerAuth.KeyCache.Step

/-!
# A key cache in simulated time

A cache together with a source that behaves as told, on a clock that moves only when nothing can
run.  Here the order of things is fixed: ready tasks run in the order in which they became ready,
and of what falls due at one instant the schedule comes first.  A caller who waits for an answer
runs after all others that are ready.

* `Behaviour` is what a source does at present;
* `Creation.ofSource` loads the first keys, `Creation.simulation?` is the cache with them;
* `Simulation.lookup`, `spawn`, `join`, `abort`, `watch`, `close`, `drop` and `advance` are what can
  be done with a cache.  Each goes on until nothing can run.

Every function here acts through `step`, so whatever holds of all runs of a cache holds of these.
-/

namespace BearerAuth.KeyCache

/-- What a source does at present: how long a fetch takes, and how it ends. -/
structure Behaviour where
  /-- The duration of a fetch that starts now. -/
  delay : Duration
  /-- The answer to a fetch that ends now. -/
  answer : Answer
  deriving DecidableEq, Repr

/-- A cache with its source. -/
structure Simulation where
  /-- What stays the same. -/
  policy : Policy
  /-- The source. -/
  source : Behaviour
  /-- The cache. -/
  state : State
  /-- When the source answers the fetch on the way. -/
  ready : Option Instant := none
  deriving DecidableEq, Repr

namespace Simulation

variable (m : Simulation)

/-- Takes a step, if it is possible. -/
def act (a : Action) : Simulation :=
  match step m.policy m.state a with
  | some state => { m with state }
  | none => m

/-! ### One instant -/

/-- What the source answers to a task that runs now. -/
def answer? (t : Task) : Option Answer :=
  let answers :=
    if m.state.flights.any (·.1 == t) then m.ready.any (· ≤ m.state.now) else m.source.delay.isZero
  if answers then some m.source.answer else none

/-- Runs a task; if it starts a fetch, the duration of that is settled. -/
def runTask (t : Task) : Simulation :=
  let next := m.act (.run t true (m.answer? t))
  let ready :=
    if next.state.flights.isEmpty then none
    else if m.state.fetches < next.state.fetches then some (m.state.now + m.source.delay.nanos)
    else m.ready
  { next with ready }

/-- The task to run next: the first that became ready, save the caller's. -/
def next? (caller : Option Task) : Option Task :=
  match m.state.woken.filter (some · != caller) with
  | t :: _ => some t
  | [] => m.state.woken.head?

/-- Runs at most a number of tasks. -/
def runs (caller : Option Task) : Nat → Simulation → Simulation
  | 0, m => m
  | n + 1, m =>
    match m.next? caller with
    | some t => runs caller n (m.runTask t)
    | none => m

/-- Runs tasks until none can run.  At one instant a lookup, a watch or a closing runs a few times
at most, and the schedule for each tick within the tolerance. -/
def settle (caller : Option Task) : Simulation :=
  runs caller (8 * (m.state.nextId + tickTolerance + 4)) m

/-! ### Time -/

/-- The instants at which something falls due. -/
def events : List Instant :=
  m.state.deadlines m.policy ++ if m.state.flights.isEmpty then [] else m.ready.toList

/-- The tasks for which something has fallen due. -/
def dueTasks : List Task :=
  let due (t : Instant) : Bool := t ≤ m.state.now
  (if m.state.ticks.any due then [.schedule] else []) ++
    (m.state.flights.filter fun f =>
      m.ready.any due || due (f.2 + m.policy.options.timeout.nanos)).map (·.1)

/-- Lets time pass up to some instant, before which nothing falls due. -/
def passTo (caller : Option Task) (t : Instant) : Simulation :=
  let m := m.act (.advance t)
  (m.dueTasks.foldl (fun m t => m.act (.wake t)) m).settle caller

/-- Lets time pass up to some instant, through at most a number of events. -/
def passes (target : Instant) : Nat → Simulation → Simulation
  | 0, m => m
  | n + 1, m =>
    match m.events.min? with
    | some t => if t ≤ target then passes target n (m.passTo none t) else m.passTo none target
    | none => m.passTo none target

/-- Lets a span of time pass.  From one event to the next it is a nanosecond at least. -/
def advance (d : Duration) : Simulation := passes (m.state.now + d.nanos) (d.nanos + 1) m

/-- Lets time pass until something is done, through at most a number of events. -/
def awaits (isDone : State → Bool) (caller : Option Task) : Nat → Simulation → Simulation
  | 0, m => m
  | n + 1, m =>
    if isDone m.state then m
    else
      match m.events.min? with
      | some t => awaits isDone caller n (m.passTo caller t)
      | none => m

/-- Lets time pass until something is done.  Whatever waits for the guard waits for one fetch of
each task before it. -/
def await (isDone : State → Bool) (caller : Option Task) : Simulation :=
  awaits isDone caller
    ((m.state.nextId + 4) * (m.policy.options.timeout.nanos + 1)) (m.settle caller)

/-! ### What can be done with a cache -/

/-- Lets the source behave differently from now on. -/
def setSource (source : Behaviour) : Simulation := { m with source }

/-- A lookup is over. -/
def isOver (id : Nat) (s : State) : Bool := (s.lookup? id).all (·.phase.isOver)

/-- The answer of a lookup. -/
def result? (id : Nat) : Option (Except Failure VerificationKey) :=
  (m.state.lookup? id).bind (·.phase.answer?)

/-- Starts a lookup; also gives its number. -/
def spawn (kid : String) : Simulation × Nat :=
  ((m.act (.call kid)).settle none, m.state.nextId)

/-- Waits for a lookup. -/
def join (id : Nat) : Simulation := m.await (isOver id) none

/-- Looks a key up and waits for the answer. -/
def lookup (kid : String) : Simulation × Except Failure VerificationKey :=
  let id := m.state.nextId
  let m := (m.act (.call kid)).await (isOver id) (some (.lookup id))
  (m, (m.result? id).getD (.error (.unknownKey kid)))

/-- Starts lookups of some keys all at once, and waits for all; also gives their numbers. -/
def lookups (kids : List String) : Simulation × List Nat :=
  let ids := (List.range kids.length).map (m.state.nextId + ·)
  let m := kids.foldl (fun m kid => m.act (.call kid)) m
  (m.await (fun s => ids.all (isOver · s)) none, ids)

/-- Gives a lookup up. -/
def abort (id : Nat) : Simulation := (m.act (.abort id)).settle none

/-- Asks for the record of refreshes and waits for it. -/
def watch : Simulation × Option Ledger :=
  let id := m.state.nextId
  let seen (s : State) : Option Ledger := (s.watch? id).bind (·.seen)
  let m := (m.act .watch).await (fun s => (seen s).isSome) (some (.watch id))
  (m, seen m.state)

/-- Stops the schedule and waits for its end. -/
def close : Simulation :=
  let id := m.state.nextId
  (m.act .close).await (fun s => (s.closing? id).all (·.returned)) (some (.closing id))

/-- Lets the cache go. -/
def drop : Simulation := (m.act .drop).settle none

end Simulation

/-! ### The first fetch -/

/-- A fetch as a cache sees it, cut off at the timeout: its duration and its answer. -/
def Policy.bounded (p : Policy) (source : Behaviour) : Duration × Answer :=
  if source.delay.nanos ≤ p.options.timeout.nanos then (source.delay, source.answer)
  else (p.options.timeout, ⟨[], .failed p.timedOut⟩)

/-- The first fetch of a cache, once it has ended. -/
structure Creation where
  /-- What stays the same. -/
  policy : Policy
  /-- The source. -/
  source : Behaviour
  /-- When the fetch has ended. -/
  completed : Instant
  /-- Its answer. -/
  answer : Answer
  deriving DecidableEq, Repr

namespace Creation

/-- Loads the first keys from a source. -/
def ofSource (policy : Policy) (source : Behaviour) (now : Instant) : Creation :=
  let (delay, answer) := policy.bounded source
  { policy, source, completed := now + delay.nanos, answer }

/-- The cache with the first keys, if there are any. -/
def simulation? (c : Creation) : Option Simulation :=
  match c.answer.outcome with
  | .keys keys =>
    let state := State.load c.policy c.completed c.answer.events keys
    some (Simulation.settle { policy := c.policy, source := c.source, state } none)
  | _ => none

/-- Why there is no cache. -/
def failure? (c : Creation) : Option Failure :=
  match c.answer.outcome with
  | .failed why => some why
  | _ => none

/-- What has been reported once nothing can run.  Why there is no cache is not reported: it is told
to whoever wanted one. -/
def reports (c : Creation) : List Failure := (c.simulation?.map (·.state.reports)).getD []

end Creation

end BearerAuth.KeyCache
