import BearerAuth.KeyCache.State

/-!
# The steps of a key cache

What happens in a cache, one step at a time.  A task runs until it waits or ends; no two run at
once, but in which order the woken ones run is left open, as is what the source answers.

* `step` is the effect of an action, `none` where the action is not possible;
* `State.run` and the functions before it are the moves of the single tasks;
* `Reaches` says that some actions lead from one state to another.
-/

namespace BearerAuth.KeyCache

/-- How late a tick may be handled without a shift of the ticks after it, in nanoseconds. -/
def tickTolerance : Nat := 5000000

namespace State

/-! ### Guard and wake-ups -/

/-- Logs events. -/
def note (s : State) (events : List Event) : State := { s with log := s.log ++ events }

/-- Makes a task ready to run. -/
def wake (s : State) (t : Task) : State :=
  if s.woken.contains t then s else { s with woken := s.woken ++ [t] }

/-- Lets a task ask for the guard: it holds it at once if nobody else does, else it waits. -/
def ask (s : State) (t : Task) : State :=
  if s.holder.isNone then { s with holder := some t } else { s with queue := s.queue ++ [t] }

/-- Hands the guard to whoever has waited longest. -/
def release (s : State) : State :=
  match s.queue with
  | [] => { s with holder := none }
  | t :: rest => { s with holder := some t, queue := rest }.wake t

/-- Tells the schedule to stop. -/
def cancel (s : State) : State :=
  match s.schedule with
  | .waiting _ => { s with cancelled := true }.wake .schedule
  | _ => { s with cancelled := true }

/-- Gives the cache up once nobody uses it. -/
def giveUp (s : State) : State := if s.inUse then s else s.cancel

/-! ### Lookups -/

/-- Moves a lookup to another phase. -/
def setPhase (s : State) (id : Nat) (phase : LookupPhase) : State :=
  { s with lookups := s.lookups.map fun l => if l.id = id then { l with phase } else l }

/-- Ends a lookup. -/
def finish (s : State) (id : Nat) (phase : LookupPhase) : State := (s.setPhase id phase).giveUp

/-- Ends a lookup with what the keys in use say. -/
def conclude (s : State) (l : Lookup) : State :=
  match s.keys.get? l.kid with
  | some key => s.finish l.id (.found key)
  | none => s.finish l.id (.failed (.unknownKey l.kid))

variable (p : Policy)

/-- The attempts so far forbid a refresh. -/
def limited (s : State) : Bool := s.ledger.limited s.now p.options.rateLimit

/-- Lets a lookup that holds the guard look again, and begin a refresh if the rate limit allows it;
the guard goes over to the refresh. -/
def inspect (s : State) (l : Lookup) : State :=
  if (s.keys.get? l.kid).isSome then s.release.conclude l
  else if s.limited p then (s.note [.missLimited l.kid]).release.conclude l
  else
    let s := (s.note [.missRefreshing l.kid]).setPhase l.id .refreshing
    let s :=
      { s with
        holder := some (.refresh l.id)
        refreshers := s.refreshers ++ [(⟨l.id, none⟩ : Refresher)] }
    s.wake (.refresh l.id)

/-- Lets a lookup that misses its key ask for the guard. -/
def miss (s : State) (l : Lookup) : State :=
  let s := (s.setPhase l.id .queued).ask (.lookup l.id)
  if s.holder = some (.lookup l.id) then s.inspect p l else s

/-- What a lookup logs about the refresh that it has begun. -/
def endingEvents (kid : String) : Ending → List Event
  | .succeeded => []
  | .failed => [.missFailed kid]
  | .crashed => [.missBroken kid]

/-- Runs a lookup. -/
def runLookup (s : State) (l : Lookup) : State :=
  match l.phase with
  | .called =>
    if (s.keys.get? l.kid).isSome then s.conclude l
    else if p.polling then s.miss p l
    else (s.note [.missFixed l.kid]).conclude l
  | .queued => if s.holder = some (.lookup l.id) then s.inspect p l else s
  | .joined how => (s.note (endingEvents l.kid how)).conclude l
  | _ => s

/-! ### Fetches -/

/-- The end of a fetch, if it has come: what the source answers, or else the timeout. -/
def fetchEnd? (s : State) (started : Instant) (answer : Option Answer) : Option Answer :=
  match answer with
  | some a => some a
  | none =>
    if started + p.options.timeout.nanos ≤ s.now then some ⟨[], .failed p.timedOut⟩ else none

/-- Enters the end of a fetch.  Where the source breaks down, nothing is entered. -/
def enter (s : State) (trigger : Trigger) : FetchEnd → State
  | .keys keys =>
    { s with keys, ledger := s.ledger.succeed s.now }.note
      [.cacheRefreshed p.source keys.size trigger]
  | .failed why =>
    { s with ledger := s.ledger.fail s.now, reports := s.reports ++ [why] }.note
      (if p.logsFailures then [.refreshFailed] else [])
  | .crashed => s

/-- Tells a lookup that the refresh it has begun is over, if it still waits for it. -/
def join (s : State) (id : Nat) (how : Ending) : State :=
  match s.lookup? id with
  | some l =>
    if l.phase = .refreshing then (s.setPhase id (.joined how)).wake (.lookup id) else s
  | none => s

/-- Ends the refresh that a lookup has begun. -/
def endRefresh (s : State) (id : Nat) (a : Answer) : State :=
  let s := (s.note a.events).enter p .unknownKey a.outcome
  let s := { s with refreshers := s.refreshers.filter (·.id != id) }
  s.release.join id a.outcome.ending

/-- Runs the refresh that a lookup has begun: it starts its fetch, and ends with it. -/
def runRefresh (s : State) (r : Refresher) (answer : Option Answer) : State :=
  let started := r.started.getD s.now
  let s :=
    if r.started.isSome then s
    else
      { s with
        fetches := s.fetches + 1
        refreshers :=
          s.refreshers.map fun x => if x.id = r.id then { x with started := some s.now } else x }
  match s.fetchEnd? p started answer with
  | some a => s.endRefresh p r.id a
  | none => s

/-! ### The schedule -/

/-- Lets the schedule wait for a tick.  It runs on at once if the tick is due or it shall stop. -/
def rest (s : State) (due : Instant) : State :=
  if s.cancelled || due ≤ s.now then
    { s with schedule := .waiting due, woken := .schedule :: s.woken }
  else { s with schedule := .waiting due }

/-- Ends the schedule. -/
def endSchedule (s : State) (how : Schedule) : State :=
  (s.closings.filter (!·.returned)).foldl (fun s c => s.wake (.closing c.id))
    { s with schedule := how }

/-- Ends the fetch of the schedule. -/
def endTick (s : State) (next : Instant) (a : Answer) : State :=
  let s := (s.note a.events).enter p .scheduled a.outcome
  match a.outcome with
  | .keys _ => s.release.rest next
  | .failed _ => (s.note [.tickFailed]).release.rest next
  | .crashed => s.release.endSchedule .broken

/-- Runs the schedule while it fetches. -/
def runFetch (s : State) (next started : Instant) (answer : Option Answer) : State :=
  match s.fetchEnd? p started answer with
  | some a => s.endTick p next a
  | none => s

/-- Handles a tick with the guard in hand. -/
def handle (s : State) (next : Instant) (answer : Option Answer) : State :=
  if s.limited p then (s.note [.tickSkipped]).release.rest next
  else
    { s with fetches := s.fetches + 1, schedule := .fetching next s.now }.runFetch p next s.now
      answer

/-- The tick after one that was due at some instant and is handled now. -/
def nextTick (s : State) (due : Instant) : Instant :=
  (if due + tickTolerance < s.now then s.now else due) + p.options.interval.nanos

/-- Takes up a tick. -/
def tick (s : State) (due : Instant) (answer : Option Answer) : State :=
  let next := s.nextTick p due
  let s := { s with schedule := .queued next }.ask .schedule
  if s.holder = some .schedule then s.handle p next answer else s

/-- Runs the schedule.  Where it shall stop and a tick is due as well, `stops` decides. -/
def runSchedule (s : State) (stops : Bool) (answer : Option Answer) : State :=
  match s.schedule with
  | .starting => s.rest (s.now + p.options.interval.nanos)
  | .waiting due =>
    if s.cancelled && (stops || s.now < due) then (s.note [.scheduleStopped]).endSchedule .ended
    else if due ≤ s.now then s.tick p due answer
    else s
  | .queued next => if s.holder = some .schedule then s.handle p next answer else s
  | .fetching next started => s.runFetch p next started answer
  | _ => s

/-! ### Watches and closings -/

/-- Shows somebody the record of refreshes. -/
def disclose (s : State) (id : Nat) : State :=
  { s with watches := s.watches.map fun w => if w.id = id then { w with seen := s.ledger } else w }

/-- Runs a watch, which sees the record with the guard in hand. -/
def runWatch (s : State) (w : Watch) : State :=
  if w.seen.isSome then s
  else if s.holder = some (.watch w.id) then (s.disclose w.id).release.giveUp
  else if s.queue.contains (.watch w.id) then s
  else
    let s := s.ask (.watch w.id)
    if s.holder = some (.watch w.id) then (s.disclose w.id).release.giveUp else s

/-- Lets a closing return. -/
def returnClosing (s : State) (id : Nat) : State :=
  let closings := s.closings.map fun c => if c.id = id then { c with returned := true } else c
  { s with closings }.giveUp

/-- What a closing logs about the end of the schedule. -/
def closingEvents : Schedule → List Event
  | .broken => [.scheduleBroken]
  | _ => []

/-- Runs a closing that waits for the end of the schedule. -/
def runClosing (s : State) (c : Closing) : State :=
  if c.returned || !s.schedule.isOver then s
  else (s.note (closingEvents s.schedule)).returnClosing c.id

/-- Stops the schedule.  Only the first to do so waits for its end. -/
def close (s : State) : State :=
  let first := !s.awaited
  let c : Closing := ⟨s.nextId, !first⟩
  let s := { s.cancel with closings := s.closings ++ [c], nextId := s.nextId + 1, awaited := true }
  if first then s.runClosing c else s

/-! ### Tasks from outside -/

/-- Calls a lookup. -/
def call (s : State) (kid : String) : State :=
  let l : Lookup := { id := s.nextId, kid, calledAt := s.now }
  { s with lookups := s.lookups ++ [l], nextId := s.nextId + 1 }.wake (.lookup l.id)

/-- Asks for the record of refreshes. -/
def watch (s : State) : State :=
  let w : Watch := { id := s.nextId }
  { s with watches := s.watches ++ [w], nextId := s.nextId + 1 }.wake (.watch w.id)

/-- Gives a lookup up.  A refresh that it has begun goes on. -/
def abort (s : State) (id : Nat) : State :=
  let t := Task.lookup id
  let s := { s with woken := s.woken.filter (· != t), queue := s.queue.filter (· != t) }
  let s := if s.holder = some t then s.release else s
  s.finish id .aborted

/-- Runs a task. -/
def run (s : State) (t : Task) (stops : Bool) (answer : Option Answer) : State :=
  match t with
  | .lookup id => (s.lookup? id).elim s fun l => s.runLookup p l
  | .refresh id => (s.refresher? id).elim s fun r => s.runRefresh p r answer
  | .schedule => s.runSchedule p stops answer
  | .watch id => (s.watch? id).elim s fun w => s.runWatch w
  | .closing id => (s.closing? id).elim s fun c => s.runClosing c

/-- A task waits for something from outside: for a source, or for time to pass. -/
def waitsOutside (s : State) (t : Task) : Bool :=
  s.flights.any (·.1 == t) || (t == .schedule && s.ticks.any (· ≤ s.now))

end State

/-! ### Actions -/

/-- What can happen next. -/
inductive Action where
  /-- A key is looked up. -/
  | call (kid : String)
  /-- A lookup is given up. -/
  | abort (id : Nat)
  /-- Somebody asks for the record of refreshes. -/
  | watch
  /-- Somebody stops the schedule. -/
  | close
  /-- The owner lets the cache go. -/
  | drop
  /-- A task that waits for a source or for time becomes ready. -/
  | wake (t : Task)
  /-- A ready task runs; a fetch in it finds the source's answer, if there is one. -/
  | run (t : Task) (stops : Bool) (answer : Option Answer)
  /-- Time passes, while nothing can run. -/
  | advance (time : Instant)
  /-- Something is logged by others. -/
  | note (events : List Event)
  deriving DecidableEq, Repr

variable (p : Policy)

/-- The state after an action, if the action is possible. -/
def step (s : State) : Action → Option State
  | .call kid => if s.owned then some (s.call kid) else none
  | .abort id =>
    match s.lookup? id with
    | some l => if l.phase.isOver then none else some (s.abort id)
    | none => none
  | .watch => if s.owned then some s.watch else none
  | .close => if s.owned then some s.close else none
  | .drop => if s.owned then some { s with owned := false }.giveUp else none
  | .wake t => if s.waitsOutside t then some (s.wake t) else none
  | .run t stops answer =>
    if s.woken.contains t then
      some ({ s with woken := s.woken.filter (· != t) }.run p t stops answer)
    else none
  | .advance time =>
    if s.woken.isEmpty && s.now ≤ time && (s.deadlines p).all (time ≤ ·) then
      some { s with now := time }
    else none
  | .note events => some (s.note events)

/-- Some actions lead from one state to another. -/
inductive Reaches : State → List Action → State → Prop where
  /-- No action, no change. -/
  | refl (s : State) : Reaches s [] s
  /-- One action more. -/
  | tail {s t u : State} {as : List Action} {a : Action} (before : Reaches s as t)
    (last : step p t a = some u) : Reaches s (as ++ [a]) u

end BearerAuth.KeyCache
