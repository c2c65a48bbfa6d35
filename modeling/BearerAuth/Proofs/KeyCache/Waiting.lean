import BearerAuth.Proofs.KeyCache.Answers
import BearerAuth.Proofs.KeyCache.Lives

/-!
# No lookup waits longer than one fetch

A lookup waits only for a fetch that was on the way when it was called, or for its own.  Whoever
stands behind it in the line finds the rate limit at the instant at which the fetch ends, so that
all of them are answered at that instant and nobody fetches a second time in between.  A lookup
whose key is in use does not wait at all.

* `KeepsPlaces` : only the task that runs leaves the line;
* `State.Attended` : a lookup that is not over is ready to run, or it or its refresh stands in line;
* `State.Timely` : since a lookup was called, at most one fetch has been waited for;
* `waits_at_most_one_fetch` : the bound on waiting, and lookups whose key is in use.

The proof: time passes only while nobody is ready to run.  Then a lookup that is not over is in line
behind a fetch on the way, and no attempt has been completed at this instant.  When that fetch ends,
its end is the present until time passes again.
-/

namespace BearerAuth.KeyCache

open BearerAuth.KeyCache.Core

variable {p : Policy} {s t u : State} {as bs : List Action} {a : Action} {task : Task} {id : Nat}
  {l : Lookup} {phase : LookupPhase} {now : Instant} {events : List Event} {keys : KeySet}
  {stops : Bool} {answer : Option Answer}

/-! ### Places in line -/

/-- Only one task leaves the line between the states. -/
def KeepsPlaces (task : Task) (s u : State) : Prop := ∀ t ∈ s.line, t = task ∨ t ∈ u.line

namespace KeepsPlaces

theorem of_eq (line : u.line = s.line) : KeepsPlaces task s u := fun _ ht => .inr (line ▸ ht)

theorem refl (s : State) : KeepsPlaces task s s := of_eq rfl

theorem trans (h : KeepsPlaces task s t) (h' : KeepsPlaces task t u) : KeepsPlaces task s u := by
  intro x hx
  rcases h x hx with own | stays
  · exact .inl own
  · exact h' x stays

end KeepsPlaces

theorem Stays.line (h : Stays s u) : u.line = s.line := by
  simp only [State.line, h.holder, h.queue]

theorem Stays.places (h : Stays s u) : KeepsPlaces task s u := .of_eq h.line

namespace State

theorem line_finish (s : State) (id : Nat) (phase : LookupPhase) :
    (s.finish id phase).line = s.line := (stays_giveUp _).line

theorem line_conclude (s : State) (l : Lookup) : (s.conclude l).line = s.line := by
  unfold conclude
  split <;> exact line_finish s _ _

theorem line_rest (s : State) (due : Instant) : (s.rest due).line = s.line := by
  unfold rest
  split <;> rfl

theorem line_endSchedule (s : State) (how : Schedule) : (s.endSchedule how).line = s.line :=
  (stays_foldl_wake _ _).line

theorem places_ask (s : State) (t : Task) : KeepsPlaces task s (s.ask t) := by
  intro x hx
  right
  unfold ask
  split
  · rename_i free
    rw [Option.isNone_iff_eq_none] at free
    simp only [line, free, Option.toList_none, List.nil_append] at hx
    exact List.mem_append_right _ hx
  · simp only [line, ← List.append_assoc]
    exact List.mem_append_left _ hx

theorem places_release (holds : s.holder = some task) : KeepsPlaces task s s.release := by
  intro x hx
  rw [line_release]
  simpa [line, holds] using hx

theorem places_inspect (holds : s.holder = some (.lookup l.id)) :
    KeepsPlaces (.lookup l.id) s (s.inspect p l) := by
  have answered (n : State) (holds : n.holder = some (.lookup l.id)) :
      KeepsPlaces (.lookup l.id) n (n.release.conclude l) :=
    (places_release holds).trans (.of_eq (line_conclude _ l))
  unfold inspect
  split
  · exact answered s holds
  split
  · exact answered (s.note _) holds
  · -- its refresh takes its place
    intro x hx
    have queue : x = .lookup l.id ∨ x ∈ s.queue := by simpa [line, holds] using hx
    refine queue.imp_right fun behind => ?_
    rw [(stays_wake _ _).line]
    exact List.mem_cons_of_mem _ behind

theorem places_miss (s : State) (l : Lookup) : KeepsPlaces (.lookup l.id) s (s.miss p l) := by
  have asked : KeepsPlaces (.lookup l.id) s ((s.setPhase l.id .queued).ask (.lookup l.id)) :=
    places_ask (s.setPhase l.id .queued) (.lookup l.id)
  unfold miss
  dsimp only
  split
  · rename_i holds
    exact asked.trans (places_inspect holds)
  · exact asked

theorem places_runLookup (s : State) (l : Lookup) :
    KeepsPlaces (.lookup l.id) s (s.runLookup p l) := by
  unfold runLookup
  split
  · split
    · exact .of_eq (line_conclude s l)
    split
    · exact places_miss s l
    · exact .of_eq (line_conclude (s.note _) l)
  · split
    · rename_i holds
      exact places_inspect holds
    · exact .refl s
  · exact .of_eq (line_conclude (s.note _) l)
  · exact .refl s

theorem line_join (s : State) (id : Nat) (how : Ending) : (s.join id how).line = s.line := by
  unfold join
  split
  · split
    · exact (stays_wake _ _).line
    · rfl
  · rfl

theorem places_endRefresh (holds : s.holder = some (.refresh id)) (end_ : Answer) :
    KeepsPlaces (.refresh id) s (s.endRefresh p id end_) := by
  have entered := (stays_note s end_.events).trans
    (stays_enter (p := p) _ .unknownKey end_.outcome)
  unfold endRefresh
  dsimp only
  generalize (s.note end_.events).enter p .unknownKey end_.outcome = n at entered ⊢
  have handed : KeepsPlaces (.refresh id) n
      ({ n with refreshers := n.refreshers.filter (·.id != id) } : State).release :=
    places_release (s := { n with refreshers := n.refreshers.filter (·.id != id) })
      (entered.holder.trans holds)
  exact (entered.places.trans handed).trans (.of_eq (line_join _ _ _))

theorem places_runRefresh {r : Refresher} (holds : s.holder = some (.refresh r.id)) :
    KeepsPlaces (.refresh r.id) s (s.runRefresh p r answer) := by
  have line : (s.launch r).line = s.line := by unfold launch; split <;> rfl
  rcases s.runRefresh_cases p r answer with ⟨-, same⟩ | ⟨end_, -, same⟩ <;> rw [same]
  · exact .of_eq line
  · exact (KeepsPlaces.of_eq line).trans
      (places_endRefresh ((holder_launch s r).trans holds) end_)

theorem places_endTick (holds : s.holder = some .schedule) (next : Instant) (end_ : Answer) :
    KeepsPlaces .schedule s (s.endTick p next end_) := by
  have entered := (stays_note s end_.events).trans (stays_enter (p := p) _ .scheduled end_.outcome)
  unfold endTick
  dsimp only
  generalize (s.note end_.events).enter p .scheduled end_.outcome = n at entered ⊢
  have holds' : n.holder = some .schedule := entered.holder.trans holds
  have handed (m : State) (holds : m.holder = some .schedule) (line : m.line = s.line) :
      KeepsPlaces .schedule s m.release := (KeepsPlaces.of_eq line).trans (places_release holds)
  split
  · exact (handed n holds' entered.line).trans (.of_eq (line_rest _ next))
  · exact (handed (n.note _) holds' entered.line).trans (.of_eq (line_rest _ next))
  · exact (handed n holds' entered.line).trans (.of_eq (line_endSchedule _ .broken))

theorem places_runFetch (holds : s.holder = some .schedule) (next started : Instant) :
    KeepsPlaces .schedule s (s.runFetch p next started answer) := by
  unfold runFetch
  split
  · exact places_endTick holds next _
  · exact .refl s

theorem places_handle (holds : s.holder = some .schedule) (next : Instant) :
    KeepsPlaces .schedule s (s.handle p next answer) := by
  unfold handle
  split
  · exact (places_release (s := s.note _) holds).trans (.of_eq (line_rest _ next))
  · exact places_runFetch (s := { s with
      fetches := s.fetches + 1, schedule := .fetching next s.now }) holds next s.now

theorem places_tick (s : State) (due : Instant) :
    KeepsPlaces .schedule s (s.tick p due answer) := by
  have asked : KeepsPlaces .schedule s
      (({ s with schedule := .queued (s.nextTick p due) } : State).ask .schedule) :=
    places_ask { s with schedule := .queued (s.nextTick p due) } .schedule
  unfold tick
  dsimp only
  split
  · rename_i holds
    exact asked.trans (places_handle holds _)
  · exact asked

theorem places_runSchedule (sound : s.core.Sound p) :
    KeepsPlaces .schedule s (s.runSchedule p stops answer) := by
  unfold runSchedule
  split
  · exact .of_eq (line_rest s _)
  · rename_i due _
    split
    · exact .of_eq (line_endSchedule (s.note _) .ended)
    split
    · exact places_tick s due
    · exact .refl s
  · split
    · rename_i holds
      exact places_handle holds _
    · exact .refl s
  · rename_i fetching
    exact places_runFetch (holder_of_fetching sound fetching) _ _
  · exact .refl s

theorem places_runWatch (s : State) (w : Watch) :
    KeepsPlaces (.watch w.id) s (s.runWatch w) := by
  have glance (n : State) (holds : n.holder = some (.watch w.id)) :
      KeepsPlaces (.watch w.id) n (n.disclose w.id).release.giveUp :=
    (places_release (s := n.disclose w.id) holds).trans (stays_giveUp _).places
  unfold runWatch
  split
  · exact .refl s
  split
  · rename_i holds
    exact glance s holds
  split
  · exact .refl s
  dsimp only
  split
  · rename_i holds
    exact (places_ask s _).trans (glance _ holds)
  · exact places_ask s _

theorem places_runs (sound : s.core.Sound p) (runs : s.Runs p stops answer task u) :
    KeepsPlaces task s u := by
  cases runs with
  | unknown => exact .refl s
  | lookup l => exact places_runLookup s l
  | refresh r known =>
    obtain ⟨-, -, -, holds, -⟩ := seat_of_refresher? sound known
    exact places_runRefresh holds
  | schedule => exact places_runSchedule sound
  | watch w => exact places_runWatch s w
  | closing c => exact (stays_runClosing s c).places

theorem places_abort (s : State) (id : Nat) : KeepsPlaces (.lookup id) s (s.abort id) := by
  intro t ht
  rw [abort_eq, line_finish]
  rcases List.mem_append.1 ht with front | behind
  · have holds : s.holder = some t := by simpa using front
    split
    · rename_i own
      exact .inl (Option.some.inj (holds.symm.trans own))
    · exact .inr (List.mem_append_left _ front)
  · refine or_iff_not_imp_left.2 fun other => ?_
    have kept := mem_queue_retire.2 ⟨behind, other⟩
    split
    · rw [line_release]
      exact kept
    · exact List.mem_append_right _ kept

end State

/-! ### Whom a lookup waits for -/

namespace State

/-- A lookup that is not over will be heard of: it is ready to run, or it stands in line, or its
refresh does. -/
def Attends (s : State) (l : Lookup) : Prop :=
  match l.phase with
  | .called | .joined _ => .lookup l.id ∈ s.woken
  | .queued => .lookup l.id ∈ s.line
  | .refreshing => .refresh l.id ∈ s.line
  | _ => True

/-- All lookups that are not over will be heard of. -/
def Attended (s : State) : Prop := ∀ id l, s.lookup? id = some l → s.Attends l

theorem Awaits.attends (h : s.Awaits l.id phase) : s.Attends { l with phase } := by
  cases phase with
  | called | joined => exact h
  | queued => exact List.mem_append_right _ h
  | refreshing => exact List.mem_append_left _ (Option.mem_toList.2 h)
  | found | failed | aborted => trivial

theorem Attends.of_run (h : s.Attends l) (task : Task)
    (woken : ∀ t ∈ s.woken, t ≠ task → t ∈ u.woken) (places : KeepsPlaces task s u)
    (other : task ≠ .lookup l.id)
    (refresh : task = .refresh l.id → l.phase = .refreshing → .refresh l.id ∈ u.line) :
    u.Attends l := by
  unfold Attends at *
  generalize l.phase = phase at *
  cases phase with
  | called | joined => exact woken _ h (Ne.symm other)
  | queued => exact (places _ h).resolve_left (Ne.symm other)
  | refreshing =>
    rcases places _ h with own | stays
    · exact refresh own.symm rfl
    · exact stays
  | found | failed | aborted => trivial

theorem Attends.of_sits (h : s.Attends l) (sits : s.Sits l) (line : u.line = s.line) :
    u.Attends l := by
  unfold Attends at *
  rcases sits with ⟨queued, -⟩ | refreshing | done
  · simp only [queued] at h ⊢
    rwa [line]
  · simp only [refreshing] at h ⊢
    rwa [line]
  · generalize l.phase = phase at *
    cases phase <;> trivial

theorem Attends.keeps (h : s.Attends l) (woken : ∀ t ∈ s.woken, t ∈ u.woken)
    (line : u.line = s.line) : u.Attends l := by
  unfold Attends at *
  rw [line]
  generalize l.phase = phase at *
  cases phase with
  | called | joined => exact woken _ h
  | queued | refreshing => exact h
  | found | failed | aborted => trivial

theorem Attended.keeps (h : s.Attended) (kept : Keeps s u) (line : u.line = s.line) :
    u.Attended := by
  intro id l hl
  rw [kept.lookup?] at hl
  exact (h id l hl).keeps kept.woken line

theorem Attended.stays (h : s.Attended) (stays : Stays s u) : u.Attended :=
  h.keeps stays.toKeeps stays.line

/-- The refresh that a lookup waits for has the guard in hand. -/
theorem Attended.holds_of_refreshing (h : s.Attended) (sound : s.core.Sound p)
    (orderly : s.Orderly none) (hl : s.lookup? id = some l) (refreshing : l.phase = .refreshing) :
    s.holder = some (.refresh id) := by
  obtain rfl := id_of_lookup? hl
  have line : .refresh l.id ∈ s.line := by
    have attends := h _ l hl
    unfold Attends at attends
    rwa [refreshing] at attends
  obtain ⟨r, hr⟩ := orderly.wants _ line
  obtain ⟨own, -, -, holds, -⟩ := seat_of_refresher? sound hr
  exact own ▸ holds

theorem Attended.runs (h : s.Attended) (sound : s.core.Sound p) (orderly : s.Orderly none)
    (runs : (s.unwake task).Runs p stops answer task u) : u.Attended := by
  have places : KeepsPlaces task s u := places_runs (s := s.unwake task) sound runs
  -- a lookup that is not moved is heard of as before, unless its own turn it is
  have still {id : Nat} {l : Lookup} (hl : s.lookup? id = some l)
      (kept : ∀ t ∈ (s.unwake task).woken, t ∈ u.woken) (other : task ≠ .lookup id)
      (holder : task = .refresh id → l.phase = .refreshing → u.holder = s.holder) :
      u.Attends l := by
    obtain rfl := id_of_lookup? hl
    refine (h _ l hl).of_run task (fun t ht apart => kept t ?_) places other ?_
    · exact mem_woken_unwake.2 ⟨ht, apart⟩
    · intro own refreshing
      have holds := h.holds_of_refreshing sound orderly hl refreshing
      exact List.mem_append_left _ (Option.mem_toList.2 ((holder own refreshing).trans holds))
  intro id l hl
  cases serves_runs (s := s.unwake task) sound runs with
  | idle sits =>
    by_cases own : task = .lookup id
    · exact (h id l hl).of_sits (sits id l own hl) rfl
    · exact still hl (fun _ ht => ht) own fun _ _ => rfl
  | apart kept other holder =>
    rw [kept.lookup?] at hl
    exact still hl kept.woken (other id) (holder id l · hl)
  | passes l₀ phase known passes awaits kept =>
    rcases lookup?_setPhase_cases kept.lookups hl with ⟨apart, before⟩ | ⟨rfl, l', known', rfl⟩
    · exact still before kept.woken (fun own => apart (passes.own (.inl own)))
        fun own => absurd (passes.own (.inr own)) apart
    · cases known.symm.trans known'
      exact awaits.attends

theorem Attended.abort (h : s.Attended) (id : Nat) : (s.abort id).Attended := by
  have kept := s.keeps_abort id
  intro i l hl
  rcases lookup?_setPhase_cases kept.lookups hl with ⟨other, before⟩ | ⟨rfl, l', -, rfl⟩
  · obtain rfl := id_of_lookup? before
    refine (h _ l before).of_run (.lookup id) (fun t ht apart => ?_) (places_abort s id) ?_ nofun
    · exact kept.woken t (mem_woken_retire.2 ⟨ht, apart⟩)
    · rintro ⟨⟩
      exact other rfl
  · trivial

theorem Attended.call (h : s.Attended) (kid : String) : (s.call kid).Attended := by
  have kept : Keeps { s with lookups := s.lookups ++ [s.newLookup kid] } (s.call kid) :=
    (keeps_wake _ _).after rfl rfl
  have line : (s.call kid).line = s.line := (stays_wake _ _).line
  intro id l hl
  rw [kept.lookup?, lookup?, List.find?_append] at hl
  rcases Option.or_eq_some_iff.1 hl with before | ⟨-, new⟩
  · obtain rfl := id_of_lookup? before
    exact (h _ l before).keeps kept.woken line
  · obtain rfl : l = s.newLookup kid := by simpa using List.mem_of_find?_eq_some new
    exact mem_woken_wake _ _

end State

/-- **A lookup that is not over will be heard of**, after every step. -/
theorem attended_step (sound : s.core.Sound p) (orderly : s.Orderly none) (h : s.Attended)
    (hs : step p s a = some u) : u.Attended := by
  cases step_eq_some_iff.1 hs with
  | call kid => exact h.call kid
  | abort l => exact h.abort l.id
  | watch => exact h.keeps ((State.keeps_wake _ _).after rfl rfl) (State.stays_wake _ _).line
  | close => exact h.stays (State.stays_close s)
  | drop => exact h.stays s.stays_drop
  | wake task => exact h.stays (State.stays_wake s task)
  | run task _ _ _ runs => exact h.runs sound orderly runs
  | advance time => exact h.stays (s.stays_advance time)
  | note events => exact h.stays (State.stays_note s events)

theorem Reaches.attended (run : Reaches p (.load p now events keys) as s) : s.Attended := by
  induction run with
  | refl => nofun
  | tail before last ih => exact attended_step before.sound before.orderly ih last

/-! ### While nobody is ready to run -/

/-- What was on record when a fetch on the way started allowed it. -/
theorem Core.Sound.allows_of_mem_flights {c : Core} (sound : c.Sound p) {f : Task × Instant}
    (hf : f ∈ c.flights) : c.Allows p f.2 := by
  cases sound.seat with
  | nobody hr hs => simp [Core.flights, hr, hs] at hf
  | lookup r hr hs _ allowed =>
    cases started : r.started with
    | none => simp [Core.flights, hr, hs, started] at hf
    | some since =>
      obtain rfl : f = (.refresh r.id, since) := by
        simpa [Core.flights, hr, hs, started] using hf
      rwa [started] at allowed
  | schedule next started hr hs _ allowed =>
    obtain rfl : f = (.schedule, started) := by
      simpa [Core.flights, hr, hs, Schedule.started?] using hf
    exact allowed

theorem Core.Sound.le_now_of_mem_flights {c : Core} (sound : c.Sound p) {f : Task × Instant}
    (hf : f ∈ c.flights) : f.2 ≤ c.now := by
  rcases sound.flights_cases with none | ⟨_, since, one, -, begun, -⟩
  · rw [none] at hf
    cases hf
  · rw [one, List.mem_singleton] at hf
    rw [hf]
    exact begun

/-- Who stands in line while nobody is ready to run waits for a fetch, that of the task in front. -/
theorem State.Orderly.exists_flight (orderly : s.Orderly none) (idle : s.woken = [])
    (ht : task ∈ s.line) : ∃ front since, s.holder = some front ∧ (front, since) ∈ s.flights := by
  cases holder : s.holder with
  | none => simp [State.line, holder, orderly.free holder] at ht
  | some front =>
    rcases orderly.served front holder with running | ready | ⟨since, flying⟩
    · cases running
    · simp [idle] at ready
    · exact ⟨front, since, rfl, flying⟩

/-- **A lookup that waits while nobody is ready to run waits for a fetch**, which is on the way and
has not ended. -/
theorem exists_flight_of_idle (orderly : s.Orderly none) (attended : s.Attended)
    (idle : s.woken = []) (hl : s.lookup? id = some l) (going : l.phase.isOver = false) :
    ∃ f, f ∈ s.flights := by
  have attends := attended id l hl
  have waits : ∃ task, task ∈ s.line := by
    unfold State.Attends at attends
    generalize l.phase = phase at *
    cases phase with
    | called | joined => simp [idle] at attends
    | queued | refreshing => exact ⟨_, attends⟩
    | found | failed | aborted => cases going
  obtain ⟨task, stands⟩ := waits
  obtain ⟨_, _, -, flying⟩ := orderly.exists_flight idle stands
  exact ⟨_, flying⟩

theorem Core.Sound.lastAttempt_ne_now {c : Core} (sound : c.Sound p)
    (limit : 0 < p.options.rateLimit.nanos) {f : Task × Instant} (hf : f ∈ c.flights) :
    c.ledger.lastAttempt ≠ some c.now := by
  intro completed
  have begun := sound.le_now_of_mem_flights hf
  have late := sound.allows_of_mem_flights hf c.now completed
  unfold Instant at *
  omega

/-! ### One fetch -/

variable (p) in
/-- A lookup has waited for one fetch at most: it is called now, or an attempt is completed now, or
the fetch that is on the way was so when it was called. -/
structure State.Waited (s : State) (l : Lookup) : Prop where
  /-- It is not called in the future. -/
  past : l.calledAt ≤ s.now
  /-- It has waited no longer than a fetch may last. -/
  bounded : s.now ≤ l.calledAt + p.options.timeout.nanos
  /-- What it has waited for. -/
  cause : l.calledAt = s.now ∨ s.ledger.lastAttempt = some s.now ∨
    ∃ f ∈ s.flights, f.2 ≤ l.calledAt

variable (p) in
/-- All lookups that are not over have waited for one fetch at most. -/
def State.Timely (s : State) : Prop :=
  ∀ id l, s.lookup? id = some l → l.phase.isOver = false → s.Waited p l

/-- No turn makes a lookup wait for another fetch, unless a fetch breaks down in it. -/
theorem State.Waited.turn {how : FetchEnd} {marks : List Mark} (h : s.Waited p l)
    (turn : Turn p task how s.core marks u.core) (sane : ∀ m ∈ marks, m.isCrash = false) :
    u.Waited p l := by
  have now : u.now = s.now := turn.now_eq
  refine ⟨now ▸ h.past, now ▸ h.bounded, ?_⟩
  rcases h.cause with called | completed | ⟨f, hf, begun⟩
  · exact .inl (called.trans now.symm)
  · exact .inr (.inl (turn.lastAttempt_eq_now (.inl completed)))
  rw [← State.flights_core] at hf ⊢
  cases turn with
  | calm calm => exact .inr (.inr ⟨f, calm.flights ▸ hf, begun⟩)
  | start nobody | startFinish nobody => rw [nobody] at hf; cases hf
  | finish flying allowed started store landed =>
    -- the end of the fetch is the present
    have ended := List.mem_singleton_self (Mark.ended task s.core.now how)
    refine .inr (.inl (Turn.lastAttempt_eq_now (.finish flying allowed started store landed)
      (.inr ⟨_, ended, s.core.now, ?_⟩)))
    have sane := sane _ ended
    cases how with
    | keys | failed => rfl
    | crashed => cases sane

/-- A lookup that waits while time passes waits for a fetch that was on the way when it was called,
and time passes no further than that fetch may last. -/
theorem State.Waited.advance (h : s.Waited p l) (sound : s.core.Sound p)
    (orderly : s.Orderly none) (attended : s.Attended) (limit : 0 < p.options.rateLimit.nanos)
    (idle : s.woken = []) {time : Instant} (later : s.now ≤ time)
    (due : ∀ t ∈ s.deadlines p, time ≤ t) (hl : s.lookup? id = some l)
    (going : l.phase.isOver = false) : ({ s with now := time } : State).Waited p l := by
  have waited : ∃ f ∈ s.flights, f.2 ≤ l.calledAt := by
    obtain ⟨f, hf⟩ := exists_flight_of_idle orderly attended idle hl going
    have flying : f ∈ s.core.flights := State.flights_core s ▸ hf
    have begun : f.2 ≤ s.now := sound.le_now_of_mem_flights flying
    rcases h.cause with called | completed | before
    · exact ⟨f, hf, called ▸ begun⟩
    · exact absurd completed (sound.lastAttempt_ne_now limit flying)
    · exact before
  obtain ⟨f, hf, begun⟩ := waited
  refine ⟨Nat.le_trans h.past later, ?_, .inr (.inr ⟨f, hf, begun⟩)⟩
  have bound := due _ (List.mem_append_right _ (List.mem_map_of_mem hf))
  exact Nat.le_trans bound (Nat.add_le_add_right begun _)

/-- **A step makes no lookup wait for another fetch**, unless a fetch breaks down in it. -/
theorem timely_step (sound : s.core.Sound p) (orderly : s.Orderly none) (attended : s.Attended)
    (limit : 0 < p.options.rateLimit.nanos) (h : s.Timely p) (hs : step p s a = some u)
    (sane : ∀ m ∈ observe p s a u, m.isCrash = false) : u.Timely p := by
  intro id l hl going
  obtain ⟨-, ⟨time, rfl, later, idle, rfl⟩ | ⟨task, how, turned⟩⟩ := turn_step sound hs
  · obtain ⟨-, -, due, -⟩ := eq_advance_of_step hs
    exact (h id l hl going).advance sound orderly attended limit idle later due hl going
  have now : u.now = s.now := turned.now_eq
  rcases lookup?_origin sound hs hl with
    ⟨kid, rfl, -, rfl⟩ | ⟨l₀, hl₀, rfl | ⟨phase, passes, rfl⟩⟩
  · exact ⟨Nat.le_of_eq now.symm, by rw [now]; exact Nat.le_add_right .., .inl now.symm⟩
  · exact (h id l hl₀ going).turn turned sane
  · -- it is the same lookup in another phase
    obtain ⟨past, bounded, cause⟩ := (h id l₀ hl₀ passes.going).turn turned sane
    exact ⟨past, bounded, cause⟩

theorem Reaches.timely (run : Reaches p (.load p now events keys) as s)
    (limit : 0 < p.options.rateLimit.nanos)
    (sane : ∀ m ∈ history p (.load p now events keys) as, m.isCrash = false) : s.Timely p := by
  induction run with
  | refl => nofun
  | tail before last ih =>
    rw [history_snoc before last] at sane
    exact timely_step before.sound before.orderly before.attended limit
      (ih fun m hm => sane m (List.mem_append_left _ hm)) last
      fun m hm => sane m (List.mem_append_right _ hm)

/-! ### Lookups whose key is in use -/

/-- A lookup that waits for no fetch: it is called now, and as long as it has not run its key is in
use, unless an attempt is completed now. -/
structure State.Prompt (s : State) (l : Lookup) : Prop where
  /-- No time has passed since it was called. -/
  called : l.calledAt = s.now
  /-- It has begun no refresh. -/
  unguarded : l.phase = .called ∨ l.phase = .queued
  /-- It need not begin one. -/
  cause : l.phase = .called ∧ (s.keys.get? l.kid).isSome = true ∨
    s.ledger.lastAttempt = some s.now

theorem Mark.completed?_of_published? {m : Mark} {brought : KeySet × Instant}
    (h : m.published? = some brought) : m.completed? = some brought.2 := by
  unfold published? at h
  split at h <;> cases h
  rfl

theorem Turn.keys_cases {c d : Core} {how : FetchEnd} {marks : List Mark}
    (h : Turn p task how c marks d) :
    d.keys = c.keys ∨ d.ledger.lastAttempt = some d.now := by
  have told := h.published
  rcases lastPublished_cases c.published marks with first | ⟨m, hm, brought⟩
  · rw [first] at told
    exact .inl (congrArg Prod.fst told)
  · exact .inr (h.lastAttempt_eq_now (.inr ⟨m, hm, _, Mark.completed?_of_published? brought⟩))

theorem State.Prompt.turn {how : FetchEnd} {marks : List Mark} (h : s.Prompt l)
    (turn : Turn p task how s.core marks u.core) : u.Prompt l := by
  have now : u.now = s.now := turn.now_eq
  refine ⟨h.called.trans now.symm, h.unguarded, ?_⟩
  rcases h.cause with ⟨called, there⟩ | completed
  · rcases turn.keys_cases with same | completed
    · exact .inl ⟨called, by rwa [show u.keys = s.keys from same]⟩
    · exact .inr completed
  · exact .inr (turn.lastAttempt_eq_now (.inl completed))

/-- Where attempts are limited, such a lookup waits for the guard at most, and begins no refresh. -/
theorem State.Prompt.passage (h : s.Prompt l) (limit : 0 < p.options.rateLimit.nanos)
    (passes : Passage p s l a phase) (going : phase.isOver = false) :
    s.Prompt { l with phase } := by
  have completed (missing : s.keys.get? l.kid = none) : s.ledger.lastAttempt = some s.now := by
    rcases h.cause with ⟨-, there⟩ | completed
    · rw [missing] at there
      cases there
    · exact completed
  cases passes with
  | queued _ _ _ missing => exact ⟨h.called, .inr rfl, .inr (completed missing)⟩
  | begun _ _ _ _ missing _ allowed =>
    simp [State.limited, Ledger.limited, completed missing, Nat.pos_iff_ne_zero.1 limit] at allowed
  | answered => unfold State.conclusion at going; split at going <;> cases going
  | ended _ _ refreshing =>
    rcases h.unguarded with called | queued
    · rw [called] at refreshing; cases refreshing
    · rw [queued] at refreshing; cases refreshing
  | aborted => cases going

/-- Time does not pass while such a lookup is not over. -/
theorem State.Prompt.woken_ne_nil (h : s.Prompt l) (sound : s.core.Sound p)
    (orderly : s.Orderly none) (attended : s.Attended) (limit : 0 < p.options.rateLimit.nanos)
    (hl : s.lookup? id = some l) (going : l.phase.isOver = false) : s.woken ≠ [] := by
  intro idle
  rcases h.cause with ⟨called, -⟩ | completed
  · have attends := attended id l hl
    unfold State.Attends at attends
    simp [called, idle] at attends
  · obtain ⟨f, hf⟩ := exists_flight_of_idle orderly attended idle hl going
    have flying : f ∈ s.core.flights := State.flights_core s ▸ hf
    exact sound.lastAttempt_ne_now limit flying completed

theorem State.prompt_call {kid : String} (there : (s.keys.get? kid).isSome = true) :
    (s.call kid).Prompt (s.newLookup kid) := by
  have core := State.core_call s kid
  refine ⟨(congrArg Core.now core).symm, .inl rfl, .inl ⟨rfl, ?_⟩⟩
  rwa [show (s.call kid).keys = s.keys from congrArg Core.keys core]

theorem prompt_reaches (run : Reaches p (.load p now events keys) as s)
    (limit : 0 < p.options.rateLimit.nanos) (further : Reaches p s bs u)
    (hl : s.lookup? id = some l) (prompt : s.Prompt l) :
    ∃ phase, u.lookup? id = some { l with phase } ∧
      (phase.isOver = false → u.Prompt { l with phase }) := by
  induction further with
  | refl => exact ⟨l.phase, hl, fun _ => prompt⟩
  | tail before last ih =>
    obtain ⟨phase, found, prompt⟩ := ih
    have run := run.trans before
    obtain ⟨-, ⟨time, rfl, -, idle, rfl⟩ | ⟨task, how, turned⟩⟩ := turn_step run.sound last
    · -- no time passes before it is over
      refine ⟨phase, found, fun going => absurd idle ?_⟩
      exact (prompt going).woken_ne_nil run.sound run.orderly run.attended limit found going
    rcases lookup?_step run.sound last found with same | ⟨phase', passes, moved⟩
    · exact ⟨phase, same, fun going => (prompt going).turn turned⟩
    · refine ⟨phase', moved, fun going => ?_⟩
      exact ((prompt passes.going).passage limit passes going).turn turned

theorem State.answer?_conclude (hl : s.lookup? l.id = some l) :
    (s.conclude l).answer? l.id = (s.conclusion l).answer? := by
  have moved := (State.keeps_conclude s l).lookup? l.id
  rw [State.lookup?_setPhase, hl, Option.map_some, if_pos rfl] at moved
  rw [State.answer?, moved, Option.bind_some]

/-- A lookup whose key is in use when it runs is answered with it, and nothing but the lookup
changes. -/
theorem answered_of_there (hl : s.lookup? id = some l) (called : l.phase = .called)
    {key : VerificationKey} (there : s.keys.get? l.kid = some key) (ready : .lookup id ∈ s.woken)
    (stops : Bool) (answer : Option Answer) :
    ∃ v, step p s (.run (.lookup id) stops answer) = some v ∧ v.answer? id = some (.ok key) ∧
      v.core = s.core := by
  obtain rfl := State.id_of_lookup? hl
  have turn := (Effect.run (p := p) (.lookup l.id) stops answer ready (.lookup l hl)).step_eq
  have there' : (s.unwake (.lookup l.id)).keys.get? l.kid = some key := there
  rw [State.runLookup, called, there'] at turn
  refine ⟨_, turn, ?_, State.core_conclude _ l⟩
  exact (State.answer?_conclude (s := s.unwake _) hl).trans (by rw [State.conclusion, there']; rfl)

/-! ### The bound -/

/-- **No lookup waits longer than one fetch.**  Where attempts are limited and no fetch has broken
down, a lookup that is not over was called no longer ago than a fetch may last, whoever stood in
line before it.  A lookup whose key is in use when it is called is answered with it in its first
turn, whoever holds the guard, and nothing but the lookup changes.  Whatever else happens before
that turn, no time passes and somebody is ready to run until the lookup is over. -/
theorem waits_at_most_one_fetch (run : Reaches p (.load p now events keys) as s)
    (limit : 0 < p.options.rateLimit.nanos)
    (sane : ∀ m ∈ history p (.load p now events keys) as, m.isCrash = false) :
    (∀ l ∈ s.lookups, l.phase.isOver = false → s.now ≤ l.calledAt + p.options.timeout.nanos) ∧
    ∀ kid key, s.keys.get? kid = some key →
      (s.owned = true → ∀ stops answer,
        ∃ v, Reaches p s [.call kid, .run (.lookup s.nextId) stops answer] v ∧
          v.answer? s.nextId = some (.ok key) ∧ v.core = s.core) ∧
      ∀ bs u, Reaches p s (.call kid :: bs) u → ∃ l, u.lookup? s.nextId = some l ∧ l.kid = kid ∧
        (l.phase.isOver = false → u.now = s.now ∧ u.woken ≠ []) ∧
        (l.phase = .called → ∀ key', u.keys.get? kid = some key' → ∀ stops answer,
          ∃ v, step p u (.run (.lookup s.nextId) stops answer) = some v ∧
            v.answer? s.nextId = some (.ok key') ∧ v.core = u.core) := by
  refine ⟨fun l hl going => ?_, fun kid key there => ?_⟩
  · exact (run.timely limit sane l.id l (run.numbered.mem_lookups_iff.1 hl) going).bounded
  have core : (s.call kid).core = s.core := State.core_call s kid
  have found := run.numbered.lookup?_call kid
  refine ⟨fun owned stops answer => ?_, fun bs u further => ?_⟩
  · have first : step p s (.call kid) = some (s.call kid) := if_pos owned
    have there' : (s.call kid).keys.get? kid = some key := by
      rwa [show (s.call kid).keys = s.keys from congrArg Core.keys core]
    obtain ⟨v, second, answered, same⟩ := answered_of_there (p := p) found rfl there'
      (State.mem_woken_wake _ _) stops answer
    exact ⟨v, .tail (.tail (.refl s) first) second, answered, same.trans core⟩
  · obtain ⟨t, first, rest⟩ := further.uncons
    obtain rfl := eq_call_of_step first
    have run' : Reaches p (.load p now events keys) (as ++ [.call kid]) (s.call kid) :=
      .tail run first
    obtain ⟨phase, found', prompt'⟩ := prompt_reaches run' limit rest found
      (State.prompt_call (Option.isSome_of_eq_some there))
    have after := run'.trans rest
    refine ⟨_, found', rfl, fun going => ⟨(prompt' going).called.symm, ?_⟩, ?_⟩
    · exact (prompt' going).woken_ne_nil after.sound after.orderly after.attended limit found' going
    · intro called key' there' stops answer
      have attends := after.attended _ _ found'
      unfold State.Attends at attends
      rw [called] at attends
      obtain ⟨v, next, answered, same⟩ := answered_of_there (p := p) found' called there'
        (State.id_of_lookup? found' ▸ attends) stops answer
      exact ⟨v, next, answered, same⟩

/-- While the refresh of another lookup hangs, a lookup whose key is in use is answered. -/
theorem waits_at_most_one_fetch_rotationRun :
    ∃ s, Reaches samplePolicy (.load samplePolicy 0 [] (sampleKeys "a")) (rotationRun.take 5) s ∧
      s.holder = some (.refresh 0) ∧
      (∀ l ∈ s.lookups, l.phase.isOver = false → s.now ≤ l.calledAt + 3) ∧
      ∃ v, Reaches samplePolicy s [.call "a", .run (.lookup 1) false none] v ∧
        v.answer? 1 = some (.ok ⟨.secret [1, 0, 1], none⟩) ∧ v.core = s.core := by
  obtain ⟨s, run, holds, there, owned, next⟩ : ∃ s,
      Reaches samplePolicy (.load samplePolicy 0 [] (sampleKeys "a")) (rotationRun.take 5) s ∧
        s.holder = some (.refresh 0) ∧
        s.keys.get? "a" = some ⟨.secret [1, 0, 1], none⟩ ∧ s.owned = true ∧ s.nextId = 1 :=
    ⟨_, reaches_iff_after?.2 rfl, rfl, rfl, rfl, rfl⟩
  obtain ⟨bounded, prompt⟩ := waits_at_most_one_fetch run (by decide) (by decide +kernel)
  have answered := (prompt "a" _ there).1 owned false none
  rw [next] at answered
  exact ⟨s, run, holds, bounded, answered⟩

end BearerAuth.KeyCache
