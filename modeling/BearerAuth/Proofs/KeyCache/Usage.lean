import BearerAuth.Proofs.KeyCache.Waiting

/-!
# Who uses a cache, and whether its schedule shall stop

The schedule shall stop as soon as somebody says so, or as soon as nobody uses the cache.  Whoever
raises the flag wakes a schedule that waits for its next tick; one that handles a tick comes back to
the flag by itself.

* `State.usage` is the part of a state that tells who uses the cache; the schedule leaves it alone;
* `State.Touches` lists what an action does to the users, lookups apart;
* `heeds_step` : whoever else acts leaves the schedule alone, and wakes it when he raises the flag;
* `tended_step` : the flag is up as soon as nobody uses the cache.

The proof: the flag is raised in one move only, `cancel`, which wakes the schedule.  That move is
made by whoever stops the schedule, and by whoever leaves a cache that nobody else uses.
-/

namespace BearerAuth.KeyCache

variable {p : Policy} {s t u : State} {as : List Action} {a : Action} {id : Nat} {l : Lookup}
  {task : Task} {now : Instant} {events : List Event} {keys : KeySet} {stops : Bool}
  {answer : Option Answer}

/-! ### What the schedule leaves alone -/

/-- Who uses the cache, lookups apart. -/
structure Guests where
  /-- The cache has an owner. -/
  owned : Bool
  /-- All who asked for the record so far. -/
  watches : List Watch
  /-- All who stopped the schedule so far. -/
  closings : List Closing
  /-- Somebody has begun to wait for the end of the schedule. -/
  awaited : Bool

/-- Who uses the cache, and whether its schedule shall stop. -/
structure Usage where
  /-- Who uses it, lookups apart. -/
  guests : Guests
  /-- All lookups so far. -/
  lookups : List Lookup
  /-- The schedule shall stop. -/
  cancelled : Bool

/-- The schedule leaves it alone. -/
def Bystanders.usage (b : Bystanders) : Usage :=
  ⟨⟨b.owned, b.watches, b.closings, b.awaited⟩, b.lookups, b.cancelled⟩

namespace State

/-- Who uses the cache, lookups apart. -/
def guests (s : State) : Guests where
  owned := s.owned
  watches := s.watches
  closings := s.closings
  awaited := s.awaited

/-- Who uses the cache, and whether its schedule shall stop. -/
def usage (s : State) : Usage := ⟨s.guests, s.lookups, s.cancelled⟩

variable (p) (s)

theorem usage_wake (t : Task) : (s.wake t).usage = s.usage :=
  congrArg Bystanders.usage (bystanders_wake s t)

theorem usage_ask (t : Task) : (s.ask t).usage = s.usage :=
  congrArg Bystanders.usage (bystanders_ask s t)

theorem usage_release : s.release.usage = s.usage :=
  congrArg Bystanders.usage (bystanders_release s)

theorem usage_enter (trigger : Trigger) (how : FetchEnd) :
    (s.enter p trigger how).usage = s.usage :=
  congrArg Bystanders.usage (bystanders_enter p s trigger how)

theorem usage_runSchedule (stops : Bool) (answer : Option Answer) :
    (s.runSchedule p stops answer).usage = s.usage :=
  congrArg Bystanders.usage (bystanders_runSchedule p s stops answer)

end State

/-! ### What all others do to the schedule -/

/-- The schedule is left alone between the states, and woken from its waiting if the flag is
raised. -/
structure Spares (s u : State) : Prop where
  /-- The schedule is where it was. -/
  schedule : u.schedule = s.schedule
  /-- It stays ready to run. -/
  ready : .schedule ∈ s.woken → .schedule ∈ u.woken
  /-- The flag is as it was, or it is up and the schedule does not go on waiting. -/
  flag : u.cancelled = s.cancelled ∨
    u.cancelled = true ∧ ∀ due, u.schedule = .waiting due → .schedule ∈ u.woken

/-- Nor does anybody but a lookup come or go, and the flag is not raised while the cache has an
owner. -/
structure Heeds (s u : State) : Prop extends Spares s u where
  /-- Nobody else comes or goes. -/
  guests : u.guests = s.guests
  /-- The flag is not raised while the cache has an owner. -/
  patient : s.owned = true → u.cancelled = s.cancelled

namespace Spares

theorem trans (h : Spares s t) (h' : Spares t u) : Spares s u := by
  refine ⟨h'.schedule.trans h.schedule, fun ready => h'.ready (h.ready ready), ?_⟩
  rcases h'.flag with same | raised
  · rcases h.flag with same' | ⟨up, woken⟩
    · exact .inl (same.trans same')
    · exact .inr ⟨same.trans up, fun due waiting => h'.ready (woken due (h'.schedule ▸ waiting))⟩
  · exact .inr raised

theorem cancelled (h : Spares s u) (up : s.cancelled = true) : u.cancelled = true := by
  rcases h.flag with same | ⟨up', -⟩
  · exact same.trans up
  · exact up'

end Spares

namespace Heeds

theorem owned (h : Heeds s u) : u.owned = s.owned := congrArg Guests.owned h.guests

theorem watches (h : Heeds s u) : u.watches = s.watches := congrArg Guests.watches h.guests

theorem closings (h : Heeds s u) : u.closings = s.closings := congrArg Guests.closings h.guests

theorem of_eq (schedule : u.schedule = s.schedule) (woken : u.woken = s.woken)
    (guests : u.guests = s.guests) (cancelled : u.cancelled = s.cancelled) : Heeds s u :=
  ⟨⟨schedule, fun ready => woken ▸ ready, .inl cancelled⟩, guests, fun _ => cancelled⟩

theorem refl (s : State) : Heeds s s := .of_eq rfl rfl rfl rfl

theorem trans (h : Heeds s t) (h' : Heeds t u) : Heeds s u := by
  refine ⟨h.toSpares.trans h'.toSpares, h'.guests.trans h.guests, fun owned => ?_⟩
  exact (h'.patient (h.owned.trans owned)).trans (h.patient owned)

theorem of_remains (h : Remains s u) (usage : u.usage = s.usage) : Heeds s u :=
  have cancelled := congrArg Usage.cancelled usage
  ⟨⟨h.schedule, h.woken _, .inl cancelled⟩, congrArg Usage.guests usage, fun _ => cancelled⟩

end Heeds

namespace State

variable (p) (s)

theorem heeds_note (events : List Event) : Heeds s (s.note events) :=
  .of_remains (stays_note s events).toRemains rfl

theorem heeds_wake (t : Task) : Heeds s (s.wake t) :=
  .of_remains (stays_wake s t).toRemains (usage_wake s t)

theorem heeds_ask (t : Task) : Heeds s (s.ask t) := .of_remains (remains_ask s t) (usage_ask s t)

theorem heeds_release : Heeds s s.release := .of_remains (remains_release s) (usage_release s)

theorem heeds_enter (trigger : Trigger) (how : FetchEnd) : Heeds s (s.enter p trigger how) :=
  .of_remains (stays_enter s trigger how).toRemains (usage_enter p s trigger how)

theorem heeds_setPhase (id : Nat) (phase : LookupPhase) : Heeds s (s.setPhase id phase) :=
  .of_eq rfl rfl rfl rfl

/-- Whoever raises the flag wakes a schedule that waits for its next tick. -/
theorem spares_cancel : Spares s s.cancel := by
  unfold cancel
  split
  · have woken := (heeds_wake { s with cancelled := true } .schedule).toSpares
    exact ⟨woken.schedule, woken.ready, .inr ⟨woken.cancelled rfl, fun _ _ => mem_woken_wake _ _⟩⟩
  · rename_i apart
    exact ⟨rfl, fun ready => ready, .inr ⟨rfl, fun due waiting => absurd waiting (apart due)⟩⟩

theorem cancelled_cancel : s.cancel.cancelled = true := by
  unfold cancel
  split
  · exact (heeds_wake { s with cancelled := true } .schedule).cancelled rfl
  · rfl

theorem guests_cancel : s.cancel.guests = s.guests := by
  unfold cancel
  split
  · exact (heeds_wake { s with cancelled := true } .schedule).guests
  · rfl

theorem heeds_giveUp : Heeds s s.giveUp := by
  unfold giveUp
  split
  · exact .refl s
  · rename_i unused
    refine ⟨spares_cancel s, guests_cancel s, fun owned => ?_⟩
    simp [inUse, owned] at unused

theorem heeds_finish (id : Nat) (phase : LookupPhase) : Heeds s (s.finish id phase) :=
  (heeds_setPhase s id phase).trans (heeds_giveUp _)

theorem heeds_conclude (l : Lookup) : Heeds s (s.conclude l) := by
  unfold conclude
  split <;> exact heeds_finish s _ _

theorem heeds_inspect (l : Lookup) : Heeds s (s.inspect p l) := by
  unfold inspect
  split
  · exact (heeds_release s).trans (heeds_conclude _ l)
  split
  · exact ((heeds_note s _).trans (heeds_release _)).trans (heeds_conclude _ l)
  · have begun : Heeds s { (s.note [.missRefreshing l.kid]).setPhase l.id .refreshing with
        holder := some (.refresh l.id)
        refreshers := s.refreshers ++ [(⟨l.id, none⟩ : Refresher)] } :=
      .of_eq rfl rfl rfl rfl
    exact begun.trans (heeds_wake _ _)

theorem heeds_miss (l : Lookup) : Heeds s (s.miss p l) := by
  have asked := (heeds_setPhase s l.id .queued).trans (heeds_ask _ (.lookup l.id))
  unfold miss
  dsimp only
  split
  · exact asked.trans (heeds_inspect p _ l)
  · exact asked

theorem heeds_runLookup (l : Lookup) : Heeds s (s.runLookup p l) := by
  unfold runLookup
  split
  · split
    · exact heeds_conclude s l
    split
    · exact heeds_miss p s l
    · exact (heeds_note s _).trans (heeds_conclude _ l)
  · split
    · exact heeds_inspect p s l
    · exact .refl s
  · exact (heeds_note s _).trans (heeds_conclude _ l)
  · exact .refl s

theorem heeds_join (id : Nat) (how : Ending) : Heeds s (s.join id how) := by
  unfold join
  split
  · split
    · exact (heeds_setPhase s id _).trans (heeds_wake _ _)
    · exact .refl s
  · exact .refl s

theorem heeds_endRefresh (id : Nat) (end_ : Answer) : Heeds s (s.endRefresh p id end_) := by
  have entered := (heeds_note s end_.events).trans (heeds_enter p _ .unknownKey end_.outcome)
  unfold endRefresh
  dsimp only
  generalize (s.note end_.events).enter p .unknownKey end_.outcome = n at entered ⊢
  have left : Heeds n { n with refreshers := n.refreshers.filter (·.id != id) } :=
    .of_eq rfl rfl rfl rfl
  exact ((entered.trans left).trans (heeds_release _)).trans (heeds_join _ id _)

theorem heeds_runRefresh (r : Refresher) (answer : Option Answer) :
    Heeds s (s.runRefresh p r answer) := by
  have launched : Heeds s (s.launch r) := by
    unfold launch; split <;> exact .of_eq rfl rfl rfl rfl
  rcases s.runRefresh_cases p r answer with ⟨-, same⟩ | ⟨end_, -, same⟩ <;> rw [same]
  · exact launched
  · exact launched.trans (heeds_endRefresh p _ r.id end_)

theorem heeds_unwake {t : Task} (apart : t ≠ .schedule) : Heeds s (s.unwake t) :=
  ⟨⟨rfl, fun ready => mem_woken_unwake.2 ⟨ready, apart.symm⟩, .inl rfl⟩, rfl, fun _ => rfl⟩

theorem heeds_call (kid : String) : Heeds s (s.call kid) := by
  have called : Heeds s { s with
      lookups := s.lookups ++ [s.newLookup kid], nextId := s.nextId + 1 } :=
    .of_eq rfl rfl rfl rfl
  exact called.trans (heeds_wake _ _)

theorem heeds_abort (id : Nat) : Heeds s (s.abort id) := by
  have left : Heeds s (s.retire (.lookup id)) :=
    ⟨⟨rfl, fun ready => mem_woken_retire.2 ⟨ready, nofun⟩, .inl rfl⟩, rfl, fun _ => rfl⟩
  rw [abort_eq]
  split
  · exact (left.trans (heeds_release _)).trans (heeds_finish _ id .aborted)
  · exact left.trans (heeds_finish _ id .aborted)

end State

/-! ### Guests -/

namespace State

/-- The state in which a closing waits no longer. -/
def dismiss (s : State) (id : Nat) : State :=
  { s with
    closings := s.closings.map fun c => if c.id = id then { c with returned := true } else c }

/-- The state in which somebody has stopped the schedule, before he looks at it.  Only the first to
stop it waits for its end. -/
def enlist (s : State) : State :=
  { s.cancel with
    closings := s.closings ++ [⟨s.nextId, s.awaited⟩], nextId := s.nextId + 1, awaited := true }

variable (p) (s)

theorem heeds_runWatch (w : Watch) :
    Heeds s (s.runWatch w) ∨ Heeds (s.disclose w.id) (s.runWatch w) := by
  have glance (n : State) : Heeds (n.disclose w.id) (n.disclose w.id).release.giveUp :=
    (heeds_release _).trans (heeds_giveUp _)
  unfold runWatch
  split
  · exact .inl (.refl s)
  split
  · exact .inr (glance s)
  split
  · exact .inl (.refl s)
  dsimp only
  split
  · have asked : Heeds (s.disclose w.id) ((s.ask (.watch w.id)).disclose w.id) := by
      unfold ask
      split <;> exact .of_eq rfl rfl rfl rfl
    exact .inr (asked.trans (glance _))
  · exact .inl (heeds_ask s _)

theorem heeds_runClosing (c : Closing) :
    Heeds s (s.runClosing c) ∨
      s.schedule.isOver = true ∧ Heeds (s.dismiss c.id) (s.runClosing c) := by
  unfold runClosing
  split
  · exact .inl (.refl s)
  · rename_i going
    simp only [Bool.or_eq_true, Bool.not_eq_true', not_or, Bool.not_eq_false] at going
    exact .inr ⟨going.2, (heeds_note (s.dismiss c.id) _).trans (heeds_giveUp _)⟩

theorem close_eq : s.close =
    if s.awaited then s.enlist else s.enlist.runClosing ⟨s.nextId, false⟩ := by
  unfold close enlist
  cases s.awaited <;> rfl

theorem spares_enlist : Spares s s.enlist ∧ s.enlist.cancelled = true := by
  obtain ⟨schedule, ready, flag⟩ := spares_cancel s
  exact ⟨⟨schedule, ready, flag⟩, cancelled_cancel s⟩

theorem cancelled_close : s.close.cancelled = true := by
  have up := (spares_enlist s).2
  rw [close_eq]
  split
  · exact up
  · rcases heeds_runClosing s.enlist ⟨s.nextId, false⟩ with heeds | ⟨-, heeds⟩ <;>
      exact heeds.cancelled up

variable {s} in
/-- What an action does to the guests, before anything follows from it. -/
inductive Touches (s : State) : Action → State → Prop where
  /-- Nothing. -/
  | nothing (a : Action) : Touches s a s
  /-- Somebody asks for the record. -/
  | asks : Touches s .watch
      { s with watches := s.watches ++ [{ id := s.nextId }], nextId := s.nextId + 1 }
  /-- Somebody sees the record. -/
  | sees (id : Nat) (stops : Bool) (answer : Option Answer) :
    Touches s (.run (.watch id) stops answer) (s.disclose id)
  /-- The owner lets the cache go. -/
  | drops : Touches s .drop { s with owned := false }
  /-- Somebody stops the schedule. -/
  | stops : Touches s .close s.enlist
  /-- Somebody stops the schedule, and need not wait for its end. -/
  | stopsLate (ended : s.schedule.isOver = true) : Touches s .close (s.enlist.dismiss s.nextId)
  /-- Somebody has waited for the end of the schedule. -/
  | returns (id : Nat) (stops : Bool) (answer : Option Answer)
    (ended : s.schedule.isOver = true) : Touches s (.run (.closing id) stops answer) (s.dismiss id)

end State

theorem State.Touches.spares (h : s.Touches a t) : Spares s t := by
  cases h with
  | stops => exact s.spares_enlist.1
  | stopsLate =>
    obtain ⟨schedule, ready, flag⟩ := s.spares_enlist.1
    exact ⟨schedule, ready, flag⟩
  | _ => exact ⟨rfl, fun ready => ready, .inl rfl⟩

theorem State.touches_close (s : State) : ∃ t, s.Touches .close t ∧ Heeds t s.close := by
  rw [s.close_eq]
  split
  · exact ⟨_, .stops, .refl _⟩
  rcases s.enlist.heeds_runClosing ⟨s.nextId, false⟩ with heeds | ⟨ended, heeds⟩
  · exact ⟨_, .stops, heeds⟩
  · exact ⟨_, .stopsLate (s.spares_enlist.1.schedule ▸ ended), heeds⟩

theorem State.touches_runs (runs : s.Runs p stops answer task u) (apart : task ≠ .schedule) :
    ∃ t, s.Touches (.run task stops answer) t ∧ Heeds t u := by
  cases runs with
  | unknown => exact ⟨s, .nothing _, .refl s⟩
  | lookup l => exact ⟨s, .nothing _, heeds_runLookup p s l⟩
  | refresh r => exact ⟨s, .nothing _, heeds_runRefresh p s r answer⟩
  | schedule => exact absurd rfl apart
  | watch w =>
    rcases heeds_runWatch s w with heeds | heeds
    · exact ⟨s, .nothing _, heeds⟩
    · exact ⟨_, .sees w.id stops answer, heeds⟩
  | closing c =>
    rcases heeds_runClosing s c with heeds | ⟨ended, heeds⟩
    · exact ⟨s, .nothing _, heeds⟩
    · exact ⟨_, .returns c.id stops answer ended, heeds⟩

/-- It does not matter whether the task that runs is taken off the ready ones before or after. -/
theorem State.Touches.of_unwake (h : (s.unwake task).Touches (.run task stops answer) t)
    (apart : task ≠ .schedule) : ∃ n, s.Touches (.run task stops answer) n ∧ Heeds n t := by
  cases h with
  | nothing => exact ⟨s, .nothing _, s.heeds_unwake apart⟩
  | sees id => exact ⟨_, .sees id stops answer, (s.disclose id).heeds_unwake apart⟩
  | returns id _ _ ended =>
    exact ⟨_, .returns id stops answer ended, (s.dismiss id).heeds_unwake apart⟩

/-- **No step but a run of the schedule moves it**, and but for what the action does to the guests,
none of them comes or goes. -/
theorem heeds_step (hs : step p s a = some u)
    (other : ∀ stops answer, a ≠ .run .schedule stops answer) :
    ∃ t, s.Touches a t ∧ Heeds t u := by
  cases step_eq_some_iff.1 hs with
  | call kid => exact ⟨s, .nothing _, State.heeds_call s kid⟩
  | abort l => exact ⟨s, .nothing _, State.heeds_abort s l.id⟩
  | watch => exact ⟨_, .asks, State.heeds_wake _ _⟩
  | close => exact s.touches_close
  | drop => exact ⟨_, .drops, State.heeds_giveUp _⟩
  | wake task => exact ⟨s, .nothing _, State.heeds_wake s task⟩
  | advance time => exact ⟨s, .nothing _, .of_eq rfl rfl rfl rfl⟩
  | note events => exact ⟨s, .nothing _, State.heeds_note s events⟩
  | run task stops answer _ runs =>
    have apart : task ≠ .schedule := by
      rintro rfl
      exact other stops answer rfl
    obtain ⟨t, touches, heeds⟩ := State.touches_runs (s := s.unwake task) runs apart
    obtain ⟨n, touches, taken⟩ := touches.of_unwake apart
    exact ⟨n, touches, taken.trans heeds⟩

/-- Whoever else acts leaves the schedule alone, and wakes it from its waiting when he raises the
flag. -/
theorem spares_step (hs : step p s a = some u)
    (other : ∀ stops answer, a ≠ .run .schedule stops answer) : Spares s u := by
  obtain ⟨t, touches, heeds⟩ := heeds_step hs other
  exact touches.spares.trans heeds.toSpares

theorem usage_step_schedule (hs : step p s (.run .schedule stops answer) = some u) :
    u.usage = s.usage := by
  rw [eq_runSchedule_of_step hs]
  exact State.usage_runSchedule p _ stops answer

theorem cancelled_step (hs : step p s a = some u) (up : s.cancelled = true) :
    u.cancelled = true := by
  by_cases own : ∃ stops answer, a = .run .schedule stops answer
  · obtain ⟨stops, answer, rfl⟩ := own
    exact (congrArg Usage.cancelled (usage_step_schedule hs)).trans up
  · exact (spares_step hs fun stops answer same => own ⟨stops, answer, same⟩).cancelled up

/-- The flag is not raised while the cache has an owner and nobody stops the schedule. -/
theorem cancelled_step_of_owned (hs : step p s a = some u) (owned : u.owned = true)
    (open_ : a ≠ .close) : u.cancelled = s.cancelled := by
  obtain ⟨owned, kept⟩ := owned_step hs owned
  by_cases own : ∃ stops answer, a = .run .schedule stops answer
  · obtain ⟨stops, answer, rfl⟩ := own
    exact congrArg Usage.cancelled (usage_step_schedule hs)
  · obtain ⟨t, touches, heeds⟩ := heeds_step hs fun stops answer same => own ⟨stops, answer, same⟩
    cases touches with
    | drops => exact absurd rfl kept
    | stops | stopsLate => exact absurd rfl open_
    | nothing | asks | sees | returns => exact heeds.patient owned

/-! ### Users -/

/-- Somebody uses the cache, or the schedule shall stop. -/
def State.Tended (s : State) : Prop := s.inUse = true ∨ s.cancelled = true

namespace State

theorem Tended.of_usage (h : s.Tended) (same : u.usage = s.usage) : u.Tended := by
  have guests : u.guests = s.guests := congrArg Usage.guests same
  have owned : u.owned = s.owned := congrArg Guests.owned guests
  have lookups : u.lookups = s.lookups := congrArg Usage.lookups same
  have watches : u.watches = s.watches := congrArg Guests.watches guests
  have closings : u.closings = s.closings := congrArg Guests.closings guests
  have cancelled : u.cancelled = s.cancelled := congrArg Usage.cancelled same
  unfold Tended inUse at *
  rwa [owned, lookups, watches, closings, cancelled]

theorem tended_of_owned (owned : s.owned = true) : s.Tended := .inl (by simp [inUse, owned])

/-- Whoever lets go of the cache gives it up if nobody else uses it. -/
theorem tended_giveUp (s : State) : s.giveUp.Tended := by
  unfold giveUp
  split
  · rename_i used
    exact .inl used
  · exact .inr (cancelled_cancel s)

theorem Tended.setPhase (h : s.Tended) (id : Nat) (phase : LookupPhase)
    (going : phase.isOver = false) : (s.setPhase id phase).Tended := by
  refine h.imp_left fun used => ?_
  simp only [inUse, Bool.or_eq_true, List.any_eq_true] at used ⊢
  rcases used with ((owned | ⟨l, hl, busy⟩) | watched) | closing
  · exact .inl (.inl (.inl owned))
  · refine .inl (.inl (.inr ⟨_, List.mem_map_of_mem hl, ?_⟩))
    split
    · simp [going]
    · exact busy
  · exact .inl (.inr watched)
  · exact .inr closing

theorem tended_conclude (s : State) (l : Lookup) : (s.conclude l).Tended := by
  unfold conclude
  split <;> exact tended_giveUp _

theorem Tended.inspect (h : s.Tended) (l : Lookup) : (s.inspect p l).Tended := by
  unfold State.inspect
  split
  · exact tended_conclude _ l
  split
  · exact tended_conclude _ l
  · have noted : (s.note [.missRefreshing l.kid]).Tended := h
    have begun := noted.setPhase l.id .refreshing rfl
    exact Tended.of_usage begun (usage_wake _ _)

theorem Tended.miss (h : s.Tended) (l : Lookup) : (s.miss p l).Tended := by
  have asked : ((s.setPhase l.id .queued).ask (.lookup l.id)).Tended :=
    (h.setPhase l.id .queued rfl).of_usage (usage_ask _ _)
  unfold State.miss
  dsimp only
  split
  · exact asked.inspect l
  · exact asked

theorem Tended.runLookup (h : s.Tended) (l : Lookup) : (s.runLookup p l).Tended := by
  unfold State.runLookup
  split
  · split
    · exact tended_conclude s l
    split
    · exact h.miss l
    · exact tended_conclude _ l
  · split
    · exact h.inspect l
    · exact h
  · exact tended_conclude _ l
  · exact h

theorem Tended.join (h : s.Tended) (id : Nat) (how : Ending) : (s.join id how).Tended := by
  unfold State.join
  split
  · split
    · exact (h.setPhase id (.joined how) rfl).of_usage (usage_wake _ _)
    · exact h
  · exact h

theorem Tended.endRefresh (h : s.Tended) (id : Nat) (end_ : Answer) :
    (s.endRefresh p id end_).Tended := by
  have entered : ((s.note end_.events).enter p .unknownKey end_.outcome).Tended :=
    h.of_usage (usage_enter p _ _ _)
  unfold State.endRefresh
  dsimp only
  generalize (s.note end_.events).enter p .unknownKey end_.outcome = n at entered ⊢
  have left : ({ n with refreshers := n.refreshers.filter (·.id != id) } : State).Tended := entered
  exact (left.of_usage (usage_release _)).join id _

theorem Tended.runRefresh (h : s.Tended) (r : Refresher) (answer : Option Answer) :
    (s.runRefresh p r answer).Tended := by
  have launched : (s.launch r).Tended := h.of_usage (by unfold launch; split <;> rfl)
  rcases s.runRefresh_cases p r answer with ⟨-, same⟩ | ⟨end_, -, same⟩ <;> rw [same]
  · exact launched
  · exact launched.endRefresh r.id end_

theorem Tended.runWatch (h : s.Tended) (w : Watch) : (s.runWatch w).Tended := by
  unfold State.runWatch
  split
  · exact h
  split
  · exact tended_giveUp _
  split
  · exact h
  dsimp only
  split
  · exact tended_giveUp _
  · exact h.of_usage (usage_ask _ _)

theorem Tended.runClosing (h : s.Tended) (c : Closing) : (s.runClosing c).Tended := by
  unfold State.runClosing
  split
  · exact h
  · exact tended_giveUp _

theorem Tended.runs (h : s.Tended) (runs : s.Runs p stops answer task u) : u.Tended := by
  cases runs with
  | unknown => exact h
  | lookup l => exact h.runLookup l
  | refresh r => exact h.runRefresh r answer
  | schedule => exact h.of_usage (usage_runSchedule p s stops answer)
  | watch w => exact h.runWatch w
  | closing c => exact h.runClosing c

end State

theorem tended_step (h : s.Tended) (hs : step p s a = some u) : u.Tended := by
  cases step_eq_some_iff.1 hs with
  | call _ owned | watch owned | close owned =>
    -- only an owner can do so, and he stays
    exact State.tended_of_owned ((congrArg Front.owned (front_step hs)).trans owned)
  | abort | drop => exact State.tended_giveUp _
  | wake task => exact h.of_usage (State.usage_wake s task)
  | advance | note => exact h
  | run task _ _ _ runs => exact State.Tended.runs (s := s.unwake task) h runs

end BearerAuth.KeyCache
