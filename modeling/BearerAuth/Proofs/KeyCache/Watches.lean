import BearerAuth.Proofs.KeyCache.Schedules

/-!
# Who asks for the record is heard of

Whoever asks for the record of refreshes sees it with the guard in hand, and keeps the cache in use
until then.

* `watches_step` lists what a step does to those who ask;
* `State.Watched` is the invariant: whoever has not seen the record is ready to run or stands in
  line;
* `watched_step` : every step keeps it;
* `exists_flight_of_left` : a cache that was let go and is still in use waits for a fetch.

The proof: whoever asks is ready to run at first, and a run of his ends with the record or in line.
Nobody else puts him to sleep or takes his place.
-/

namespace BearerAuth.KeyCache

open BearerAuth.KeyCache.Core

variable {p : Policy} {s u : State} {as : List Action} {a : Action} {id : Nat} {now : Instant}
  {events : List Event} {keys : KeySet} {stops : Bool} {answer : Option Answer}

/-! ### What a step does to those who ask -/

theorem watches_step (hs : step p s a = some u) :
    u.watches = s.watches ∨
      a = .watch ∧ u.watches = s.watches ++ [{ id := s.nextId }] ∨
      ∃ id stops answer, a = .run (.watch id) stops answer ∧
        u.watches = (s.disclose id).watches := by
  by_cases own : ∃ stops answer, a = .run .schedule stops answer
  · obtain ⟨stops, answer, rfl⟩ := own
    have usage := usage_step_schedule hs
    exact .inl (congrArg Guests.watches (congrArg Usage.guests usage))
  · obtain ⟨t, touches, heeds⟩ := heeds_step hs fun stops answer same => own ⟨stops, answer, same⟩
    rw [heeds.watches]
    cases touches with
    | asks => exact .inr (.inl ⟨rfl, rfl⟩)
    | sees id stops answer => exact .inr (.inr ⟨id, stops, answer, rfl, rfl⟩)
    | nothing | drops | returns => exact .inl rfl
    | stops | stopsLate => exact .inl (congrArg Guests.watches s.guests_cancel)

theorem heard_runWatch (s : State) (w : Watch) (unseen : w.seen = none) :
    (s.runWatch w).watches = (s.disclose w.id).watches ∨ .watch w.id ∈ (s.runWatch w).line := by
  have glance (n : State) : (n.disclose w.id).release.giveUp.watches = (n.disclose w.id).watches :=
    ((State.heeds_release _).trans (State.heeds_giveUp _)).watches
  unfold State.runWatch
  rw [unseen]
  split
  · rename_i seen
    cases seen
  split
  · exact .inl (glance s)
  split
  · rename_i queued
    exact .inr (List.mem_append_right _ (by simpa using queued))
  dsimp only
  split
  · have same : (s.ask (.watch w.id)).watches = s.watches := (State.heeds_ask s _).watches
    have ledger : (s.ask (.watch w.id)).ledger = s.ledger :=
      congrArg Core.ledger (State.core_ask s _)
    refine .inl ((glance _).trans ?_)
    rw [State.disclose, State.disclose, same, ledger]
  · exact .inr (State.mem_line_ask s _)

/-! ### Nobody who asks is left behind -/

/-- Whoever asks for the record and has not seen it is ready to run or stands in line. -/
structure State.Watched (s : State) : Prop where
  /-- No two of them have the same number. -/
  once : (s.watches.map (·.id)).Nodup
  /-- Their numbers are used up. -/
  given : ∀ w ∈ s.watches, w.id < s.nextId
  /-- Who has not seen it will be heard of. -/
  heard : ∀ w ∈ s.watches, w.seen = none → .watch w.id ∈ s.woken ∨ .watch w.id ∈ s.line

theorem State.Watched.watch?_of_mem (h : s.Watched) {w : Watch} (hw : w ∈ s.watches) :
    s.watch? w.id = some w := by
  cases found : s.watch? w.id with
  | none => simpa using List.find?_eq_none.1 found w hw
  | some w' =>
    have mem := List.mem_of_find?_eq_some found
    have own : w'.id = w.id := by simpa using List.find?_some found
    exact congrArg some (List.inj_on_of_nodup_map h.once mem hw own)

theorem State.ids_disclose (s : State) (id : Nat) :
    (s.disclose id).watches.map (·.id) = s.watches.map (·.id) := by
  simp only [disclose, List.map_map]
  congr 1
  funext w
  by_cases own : w.id = id <;> simp [own]

theorem State.mem_disclose {w : Watch} (hw : w ∈ (s.disclose id).watches) (unseen : w.seen = none) :
    w ∈ s.watches ∧ w.id ≠ id := by
  obtain ⟨w₀, hw₀, rfl⟩ := List.mem_map.1 hw
  split at unseen
  · cases unseen
  · rename_i other
    rw [if_neg other]
    exact ⟨hw₀, other⟩

/-- Whoever runs and still has not seen the record is in line. -/
theorem State.Watched.mem_line_of_run (h : s.Watched) {w : Watch} (hw : w ∈ s.watches)
    (unseen : w.seen = none) (hs : step p s (.run (.watch w.id) stops answer) = some u)
    (still : w ∈ u.watches) : .watch w.id ∈ u.line := by
  have found : (s.unwake (.watch w.id)).watch? w.id = some w := h.watch?_of_mem hw
  obtain rfl := (runs_of_step hs).run_eq
  rw [State.run, found, Option.elim_some] at still ⊢
  rcases heard_runWatch (s.unwake _) w unseen with seen | stands
  · rw [seen] at still
    exact absurd rfl (State.mem_disclose still unseen).2
  · exact stands

theorem State.Watched.numbers (h : s.Watched) (hs : step p s a = some u) :
    (u.watches.map (·.id)).Nodup ∧ ∀ w ∈ u.watches, w.id < u.nextId := by
  have later := nextId_step hs
  have still (same : u.watches.map (·.id) = s.watches.map (·.id)) :
      (u.watches.map (·.id)).Nodup ∧ ∀ w ∈ u.watches, w.id < u.nextId := by
    refine ⟨same ▸ h.once, fun w hw => ?_⟩
    have mem : w.id ∈ s.watches.map (·.id) := same ▸ List.mem_map_of_mem hw
    obtain ⟨w', hw', own⟩ := List.mem_map.1 mem
    exact own ▸ Nat.lt_of_lt_of_le (h.given w' hw') later
  rcases watches_step hs with same | ⟨rfl, new⟩ | ⟨id, stops, answer, rfl, seen⟩
  · exact still (congrArg _ same)
  · have next : u.nextId = s.nextId + 1 := congrArg Front.nextId (front_step hs)
    rw [new, next]
    refine ⟨?_, fun w hw => ?_⟩
    · rw [List.map_append, List.nodup_append]
      refine ⟨h.once, List.pairwise_singleton .., ?_⟩
      rintro i hi _ hj rfl
      obtain ⟨w, hw, rfl⟩ := List.mem_map.1 hi
      have own : w.id = s.nextId := by simpa using hj
      exact absurd own (Nat.ne_of_lt (h.given w hw))
    · rcases List.mem_append.1 hw with hw | hw
      · exact Nat.lt_succ_of_lt (h.given w hw)
      · rw [List.mem_singleton.1 hw]
        exact Nat.lt_succ_self _
  · exact still ((congrArg _ seen).trans (s.ids_disclose id))

/-- Only who runs himself is put to sleep or leaves the line. -/
theorem State.Watched.heard_step (sound : s.core.Sound p) (h : s.Watched)
    (hs : step p s a = some u) {w : Watch} (hw : w ∈ s.watches) (unseen : w.seen = none)
    (other : a.subject? ≠ some (.watch w.id)) : .watch w.id ∈ u.woken ∨ .watch w.id ∈ u.line := by
  rcases h.heard w hw unseen with ready | stands
  · exact .inl (((stirs_step sound hs).rouses _ ready).resolve_right other)
  · exact .inr ((mem_line_step sound hs stands).resolve_right other)

/-- **Whoever asks for the record will be heard of**, after every step. -/
theorem watched_step (sound : s.core.Sound p) (h : s.Watched) (hs : step p s a = some u) :
    u.Watched := by
  obtain ⟨once, given⟩ := h.numbers hs
  refine ⟨once, given, fun w hw unseen => ?_⟩
  rcases watches_step hs with same | ⟨rfl, new⟩ | ⟨id, stops, answer, rfl, seen⟩
  · have hw' : w ∈ s.watches := same ▸ hw
    by_cases own : a.subject? = some (.watch w.id)
    · cases a with
      | run task stops answer =>
        cases own
        exact .inr (h.mem_line_of_run hw' unseen hs hw)
      | abort id => cases own
      | _ => cases own
    · exact h.heard_step sound hs hw' unseen own
  · rw [new] at hw
    rcases List.mem_append.1 hw with hw | hw
    · exact h.heard_step sound hs hw unseen nofun
    · obtain ⟨-, rfl⟩ := eq_watch_of_step hs
      rw [List.mem_singleton.1 hw]
      exact .inl (State.mem_woken_wake _ _)
  · rw [seen] at hw
    obtain ⟨hw, other⟩ := State.mem_disclose hw unseen
    refine h.heard_step sound hs hw unseen ?_
    rintro ⟨⟩
    exact other rfl

theorem Reaches.watched (run : Reaches p (.load p now events keys) as s) : s.Watched := by
  induction run with
  | refl => exact ⟨.nil, nofun, nofun⟩
  | tail before last ih => exact watched_step before.sound ih last

/-- While nobody is ready to run, whoever still uses a cache that was let go and not stopped waits
for a fetch. -/
theorem exists_flight_of_left (run : Reaches p (.load p now events keys) as s)
    (idle : s.woken = []) (left : s.owned = false) (going : s.cancelled = false) :
    ∃ f, f ∈ s.flights := by
  have poised := run.poised
  have used : s.inUse = true := poised.tended.resolve_right (by simp [going])
  simp only [State.inUse, left, poised.told going, Bool.false_or, List.any_nil, Bool.or_false,
    Bool.or_eq_true, List.any_eq_true] at used
  rcases used with ⟨l, hl, busy⟩ | ⟨w, hw, unseen⟩
  · have found := run.numbered.mem_lookups_iff.1 hl
    exact exists_flight_of_idle run.orderly run.attended idle found (by simpa using busy)
  · rcases run.watched.heard w hw (by simpa using unseen) with ready | stands
    · rw [idle] at ready
      cases ready
    · obtain ⟨_, _, -, flying⟩ := run.orderly.exists_flight idle stands
      exact ⟨_, flying⟩

end BearerAuth.KeyCache
