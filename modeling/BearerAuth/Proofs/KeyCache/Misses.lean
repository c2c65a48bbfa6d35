import BearerAuth.Proofs.KeyCache.Crashes
import BearerAuth.Proofs.KeyCache.Waiting

/-!
# Which lookups cost a fetch

A refresh is begun only by a lookup that has missed its key twice: when it first ran, and again with
the guard in hand.  Both can be found in the run before the refresh, and so can the record that
allowed it.

* `Visits` says that a run comes by a state and goes on from it with some action;
* `Missed` and `Earned` say what a run has to have come by before a lookup waits for the guard, and
  before it begins a refresh;
* `begun_step` : only a lookup that passes on with the guard in hand begins a refresh;
* `Traced` ties the phase of a lookup to what the run has come by, and `Reaches.traced` says that it
  always is: whoever has begun a refresh has earned it;
* `fetch_of_call` : what a run has come by between the call of a lookup and the fetch that it costs.

The proof: the phase of a lookup tells what the run has come by.  Who is queued has missed its key
once, and of whoever has begun a refresh the second miss is in the run as well, whatever becomes of
the lookup afterwards.
-/

namespace BearerAuth.KeyCache

open BearerAuth.KeyCache.Core

variable {p : Policy} {s u v : State} {as bs : List Action} {a b : Action} {task : Task} {id : Nat}
  {kid : String} {l : Lookup} {phase : LookupPhase} {now : Instant} {events : List Event}
  {keys : KeySet} {stops : Bool} {answer : Option Answer}

/-! ### Refreshes in progress -/

namespace State

variable (p) (s)

@[simp] theorem refreshers_wake (t : Task) : (s.wake t).refreshers = s.refreshers :=
  congrArg Core.refreshers (core_wake s t)

@[simp] theorem refreshers_ask (t : Task) : (s.ask t).refreshers = s.refreshers :=
  congrArg Core.refreshers (core_ask s t)

@[simp] theorem refreshers_release : s.release.refreshers = s.refreshers :=
  congrArg Core.refreshers (core_release s)

@[simp] theorem refreshers_giveUp : s.giveUp.refreshers = s.refreshers :=
  congrArg Core.refreshers (core_giveUp s)

@[simp] theorem refreshers_conclude (l : Lookup) : (s.conclude l).refreshers = s.refreshers :=
  congrArg Core.refreshers (core_conclude s l)

@[simp] theorem refreshers_join (id : Nat) (how : Ending) :
    (s.join id how).refreshers = s.refreshers :=
  congrArg Core.refreshers (core_join s id how)

@[simp] theorem refreshers_enter (trigger : Trigger) (how : FetchEnd) :
    (s.enter p trigger how).refreshers = s.refreshers := by
  cases how <;> rfl

theorem refreshers_runWatch (w : Watch) : (s.runWatch w).refreshers = s.refreshers := by
  unfold runWatch
  split
  · rfl
  split
  · simp [disclose]
  split
  · rfl
  dsimp only
  split <;> simp [disclose]

theorem refreshers_abort (id : Nat) : (s.abort id).refreshers = s.refreshers := by
  rw [abort_eq]
  split <;> simp [finish, setPhase, retire]

theorem id_of_mem_runRefresh {r r' : Refresher}
    (h : r' ∈ (s.runRefresh p r answer).refreshers) : ∃ r₀ ∈ s.refreshers, r₀.id = r'.id := by
  have launched (x : Refresher) (mem : x ∈ (s.launch r).refreshers) :
      ∃ r₀ ∈ s.refreshers, r₀.id = x.id := by
    unfold launch at mem
    split at mem
    · exact ⟨x, mem, rfl⟩
    · obtain ⟨r₀, hr₀, rfl⟩ := List.mem_map.1 mem
      refine ⟨r₀, hr₀, ?_⟩
      split <;> rfl
  rcases s.runRefresh_cases p r answer with ⟨-, same⟩ | ⟨end_, -, same⟩ <;> rw [same] at h
  · exact launched r' h
  · simp only [endRefresh, refreshers_join, refreshers_release, refreshers_enter] at h
    exact launched r' (List.mem_filter.1 h).1

theorem refreshers_inspect (l : Lookup) : (s.inspect p l).refreshers = s.refreshers ∨
    (s.inspect p l).refreshers = s.refreshers ++ [⟨l.id, none⟩] ∧
      Keeps (s.setPhase l.id .refreshing) (s.inspect p l) := by
  unfold inspect
  split
  · exact .inl (by simp)
  split
  · exact .inl (by simp [note])
  · exact .inr ⟨by simp [note, setPhase], (keeps_wake _ _).after rfl rfl⟩

/-- The refresh is new only if the lookup waits for it. -/
def Begins (s : State) (l : Lookup) (r : Refresher) : Prop :=
  r.id = l.id ∧ ∀ x, s.lookup? l.id = some x → x.phase = .refreshing

theorem begins_inspect {l : Lookup} {r : Refresher} (h : r ∈ (s.inspect p l).refreshers) :
    r ∈ s.refreshers ∨ (s.inspect p l).Begins l r := by
  rcases refreshers_inspect p s l with same | ⟨new, kept⟩
  · exact .inl (same ▸ h)
  · rw [new] at h
    refine (List.mem_append.1 h).imp_right fun own => ⟨?_, fun x hx => ?_⟩
    · rw [List.mem_singleton.1 own]
    · rw [kept.lookup?, lookup?_setPhase] at hx
      obtain ⟨l', -, rfl⟩ := Option.map_eq_some_iff.1 hx
      simp

theorem begins_miss {l : Lookup} {r : Refresher} (h : r ∈ (s.miss p l).refreshers) :
    r ∈ s.refreshers ∨ (s.miss p l).Begins l r := by
  have asked : ((s.setPhase l.id .queued).ask (.lookup l.id)).refreshers = s.refreshers :=
    refreshers_ask _ _
  unfold miss at h ⊢
  dsimp only at h ⊢
  split at h
  · rename_i holds
    rw [if_pos holds, ← asked]
    exact begins_inspect p _ h
  · exact .inl (asked ▸ h)

theorem begins_runLookup {l : Lookup} {r : Refresher} (h : r ∈ (s.runLookup p l).refreshers) :
    r ∈ s.refreshers ∨ (s.runLookup p l).Begins l r := by
  unfold runLookup at h ⊢
  split at h
  · split at h
    · exact .inl (by simpa using h)
    rename_i missing
    split at h
    · rename_i polling
      rw [if_neg missing, if_pos polling]
      exact begins_miss p s h
    · exact .inl (by simpa [note] using h)
  · split at h
    · rename_i holds
      rw [if_pos holds]
      exact begins_inspect p s h
    · exact .inl h
  · exact .inl (by simpa [note] using h)
  · exact .inl h

end State

/-- Where a lookup waits for its refresh, it has begun it with the guard in hand. -/
theorem Passage.begun_of_refreshing (h : Passage p s l a .refreshing) :
    (l.phase = .called ∨ l.phase = .queued) ∧
      (l.phase = .called ∧ s.holder = none ∨ s.holder = some (.lookup l.id)) ∧
      s.keys.get? l.kid = none ∧ (l.phase = .called → p.polling = true) ∧ s.limited p = false := by
  generalize arrived : LookupPhase.refreshing = phase at h
  cases h with
  | begun _ _ unguarded hand missing polling allowed =>
    exact ⟨unguarded, hand, missing, polling, allowed⟩
  | answered =>
    unfold State.conclusion at arrived
    split at arrived <;> cases arrived
  | queued | ended | aborted => cases arrived

/-- Where a lookup waits for the guard, it was just called and has missed its key. -/
theorem Passage.missed_of_queued (h : Passage p s l a .queued) :
    l.phase = .called ∧ s.keys.get? l.kid = none ∧ p.polling = true ∧
      ∃ stops answer, a = .run (.lookup l.id) stops answer := by
  generalize arrived : LookupPhase.queued = phase at h
  cases h with
  | queued stops answer called missing polling =>
    exact ⟨called, missing, polling, stops, answer, rfl⟩
  | answered =>
    unfold State.conclusion at arrived
    split at arrived <;> cases arrived
  | begun | ended | aborted => cases arrived

/-- A refresh that is in progress after a task has run was so before, or the task is a lookup that
begins it, and waits for it now. -/
theorem begun_runs (runs : s.Runs p stops answer task u) {r : Refresher} (hr : r ∈ u.refreshers) :
    (∃ r₀ ∈ s.refreshers, r₀.id = r.id) ∨
      ∃ l, task = .lookup r.id ∧ s.lookup? r.id = some l ∧
        Passage p s l (.run task stops answer) .refreshing ∧
        u.lookup? r.id = some { l with phase := .refreshing } := by
  have same (h : u.refreshers = s.refreshers) : ∃ r₀ ∈ s.refreshers, r₀.id = r.id :=
    ⟨r, h ▸ hr, rfl⟩
  cases runs with
  | unknown => exact .inl (same rfl)
  | lookup l known =>
    rcases State.begins_runLookup p s hr with before | ⟨own, waits⟩
    · exact .inl ⟨r, before, rfl⟩
    rcases State.passage_runLookup (p := p) s l stops answer with
      ⟨-, still⟩ | ⟨phase, passes, -, moved⟩
    · exact .inl (same (congrArg State.refreshers still))
    · -- it waits for the refresh, so that this is where it got to
      have found := moved.lookup? l.id
      rw [State.lookup?_setPhase, known, Option.map_some, if_pos rfl] at found
      obtain rfl : phase = .refreshing := waits _ found
      rw [own]
      exact .inr ⟨l, rfl, known, passes, found⟩
  | refresh => exact .inl (State.id_of_mem_runRefresh p s hr)
  | schedule =>
    exact .inl (same
      (congrArg Bystanders.refreshers (State.bystanders_runSchedule p s stops answer)))
  | watch w => exact .inl (same (State.refreshers_runWatch s w))
  | closing c => exact .inl (same (congrArg Core.refreshers (State.core_runClosing s c)))

/-- **Only a lookup that passes on with the guard in hand begins a refresh.** -/
theorem begun_step (hs : step p s a = some u) {r : Refresher}
    (hr : r ∈ u.refreshers) : (∃ r₀ ∈ s.refreshers, r₀.id = r.id) ∨
      ∃ l stops answer, a = .run (.lookup r.id) stops answer ∧ s.lookup? r.id = some l ∧
        Passage p s l a .refreshing ∧ u.lookup? r.id = some { l with phase := .refreshing } := by
  have same (h : u.refreshers = s.refreshers) : ∃ r₀ ∈ s.refreshers, r₀.id = r.id :=
    ⟨r, h ▸ hr, rfl⟩
  have still (h : u.core = s.core) : ∃ r₀ ∈ s.refreshers, r₀.id = r.id :=
    same (congrArg Core.refreshers h)
  cases step_eq_some_iff.1 hs with
  | call | watch | close | wake | note => exact .inl (still (by simp))
  | drop => exact .inl (still (State.core_giveUp _))
  | abort l => exact .inl (same (State.refreshers_abort s l.id))
  | advance => exact .inl (same rfl)
  | run task stops answer _ runs =>
    refine (begun_runs (s := s.unwake task) runs hr).imp_right ?_
    rintro ⟨l, rfl, known, passes, found⟩
    exact ⟨l, stops, answer, rfl, known, passes.congr rfl, found⟩

/-! ### Along a run -/

/-- A run comes by a state, and goes on from it with an action. -/
def Visits (p : Policy) (s : State) (as : List Action) (v : State) (a : Action) : Prop :=
  ∃ before after, as = before ++ a :: after ∧ Reaches p s before v

theorem Visits.append (h : Visits p s as v a) (bs : List Action) : Visits p s (as ++ bs) v a := by
  obtain ⟨before, after, rfl, reached⟩ := h
  exact ⟨before, after ++ bs, by simp, reached⟩

theorem Reaches.visits (h : Reaches p s as v) (a : Action) : Visits p s (as ++ [a]) v a :=
  ⟨as, [], rfl, h⟩

variable (p) in
/-- A lookup has missed its key in its first turn, and the source can change. -/
structure Missed (s : State) (as : List Action) (id : Nat) (kid : String) : Prop where
  /-- The source can change. -/
  polling : p.polling = true
  /-- Just called, it runs while its key is not in use. -/
  missed : ∃ v l stops answer, Visits p s as v (.run (.lookup id) stops answer) ∧
    v.lookup? id = some l ∧ l.kid = kid ∧ l.phase = .called ∧ v.keys.get? kid = none

variable (p) in
/-- A lookup has missed its key a second time, with the guard at hand, and the rate limit did not
hold it back. -/
structure Earned (s : State) (as : List Action) (id : Nat) (kid : String) : Prop
    extends Missed p s as id kid where
  /-- With the guard at hand it runs while its key is not in use and nothing is limited. -/
  allowed : ∃ v l stops answer, Visits p s as v (.run (.lookup id) stops answer) ∧
    v.lookup? id = some l ∧ l.kid = kid ∧ v.AtHand l ∧ v.keys.get? kid = none ∧
    v.limited p = false

theorem Missed.append (h : Missed p s as id kid) (bs : List Action) :
    Missed p s (as ++ bs) id kid := by
  obtain ⟨polling, v, l, stops, answer, visits, rest⟩ := h
  exact ⟨polling, v, l, stops, answer, visits.append bs, rest⟩

theorem Earned.append (h : Earned p s as id kid) (bs : List Action) :
    Earned p s (as ++ bs) id kid := by
  obtain ⟨missed, v, l, stops, answer, visits, rest⟩ := h
  exact ⟨missed.append bs, v, l, stops, answer, visits.append bs, rest⟩

/-- A lookup waits for the guard at most: it has begun no refresh, and it is not over. -/
def LookupPhase.isEarly : LookupPhase → Bool
  | called | queued => true
  | _ => false

theorem Passage.isEarly_eq_false (h : Passage p s l a phase) (past : l.phase.isEarly = false) :
    phase.isEarly = false := by
  cases h with
  | queued _ _ called => rw [called] at past; cases past
  | answered => unfold State.conclusion; split <;> rfl
  | begun | ended | aborted => rfl

/-- A lookup has begun a refresh, which is in progress or has been seen to fetch. -/
def State.HasBegun (s : State) (marks : List Mark) (id : Nat) : Prop :=
  (∃ r ∈ s.refreshers, r.id = id) ∨ ∃ time, .started (.refresh id) time ∈ marks

variable (p) in
/-- The phase of a lookup tells what a run has come by. -/
structure Traced (s₀ : State) (as : List Action) (s : State) (id : Nat) : Prop where
  /-- Who waits for the guard has missed its key. -/
  queued : ∀ l, s.lookup? id = some l → l.phase = .queued → Missed p s₀ as id l.kid
  /-- Who has begun a refresh has earned it, and is past the guard. -/
  begun : s.HasBegun (history p s₀ as) id →
    ∃ l, s.lookup? id = some l ∧ l.phase.isEarly = false ∧ Earned p s₀ as id l.kid

/-- Only a refresh in progress is seen to start a fetch. -/
theorem exists_refresher_of_started (hs : step p s a = some u) {time : Instant}
    (seen : .started (.refresh id) time ∈ observe p s a u) : ∃ r ∈ s.refreshers, r.id = id := by
  cases a with
  | run task stops answer =>
    have own : task = .refresh id := by
      rcases List.mem_append.1 seen with start | end_
      · cases (List.mem_replicate.1 start).2
        rfl
      · cases (List.mem_replicate.1 end_).2
    subst own
    cases runs_of_step hs with
    | refresh r known => exact ⟨r, List.mem_of_find?_eq_some known, rfl⟩
    | unknown =>
      have calm : Calm s.core (s.unwake (.refresh id)).core := .refl _
      rw [observe_of_calm calm] at seen
      cases seen
  | _ => cases seen

theorem missed_step {s₀ : State} (run : Reaches p s₀ as s) (h : Traced p s₀ as s id)
    (sound : s.core.Sound p) (hs : step p s a = some u) (hl : u.lookup? id = some l)
    (queued : l.phase = .queued) : Missed p s₀ (as ++ [a]) id l.kid := by
  rcases lookup?_origin sound hs hl with
    ⟨kid, -, -, rfl⟩ | ⟨l₀, hl₀, rfl | ⟨phase, passes, rfl⟩⟩
  · cases queued
  · exact (h.queued l hl₀ queued).append [a]
  · obtain rfl := State.id_of_lookup? hl₀
    rw [show phase = .queued from queued] at passes
    obtain ⟨called, missing, polling, stops, answer, rfl⟩ := passes.missed_of_queued
    exact ⟨polling, s, l₀, stops, answer, run.visits _, hl₀, rfl, called, missing⟩

theorem earned_of_passage {s₀ : State} (run : Reaches p s₀ as s) (h : Traced p s₀ as s l.id)
    (orderly : s.Orderly none) (hl : s.lookup? l.id = some l)
    (passes : Passage p s l (.run (.lookup l.id) stops answer) .refreshing) :
    Earned p s₀ (as ++ [.run (.lookup l.id) stops answer]) l.id l.kid := by
  obtain ⟨unguarded, hand, missing, polling, allowed⟩ := passes.begun_of_refreshing
  have visits := run.visits (.run (.lookup l.id) stops answer)
  have missed : Missed p s₀ (as ++ [.run (.lookup l.id) stops answer]) l.id l.kid := by
    rcases unguarded with called | queued
    · exact ⟨polling called, s, l, stops, answer, visits, hl, rfl, called, missing⟩
    · exact (h.queued l hl queued).append _
  have atHand : s.AtHand l := by
    refine hand.imp_right fun holds => ⟨?_, holds⟩
    exact (orderly.wants _ (List.mem_append_left _ (Option.mem_toList.2 holds))).queued hl
  exact ⟨missed, s, l, stops, answer, visits, hl, rfl, atHand, missing, allowed⟩

theorem traced_step {s₀ : State} (run : Reaches p s₀ as s) (h : Traced p s₀ as s id)
    (sound : s.core.Sound p) (orderly : s.Orderly none) (hs : step p s a = some u) :
    Traced p s₀ (as ++ [a]) u id := by
  refine ⟨fun l hl queued => missed_step run h sound hs hl queued, fun begun => ?_⟩
  -- who has begun a refresh before is still past the guard
  have before (begun : s.HasBegun (history p s₀ as) id) :
      ∃ l, u.lookup? id = some l ∧ l.phase.isEarly = false ∧
        Earned p s₀ (as ++ [a]) id l.kid := by
    obtain ⟨l, hl, past, earned⟩ := h.begun begun
    rcases lookup?_step sound hs hl with same | ⟨phase, passes, moved⟩
    · exact ⟨l, same, past, earned.append [a]⟩
    · exact ⟨_, moved, passes.isEarly_eq_false past, earned.append [a]⟩
  rcases begun with ⟨r, hr, rfl⟩ | ⟨time, seen⟩
  · rcases begun_step hs hr with old | ⟨l, stops, answer, rfl, hl, passes, moved⟩
    · exact before (.inl old)
    · obtain own := State.id_of_lookup? hl
      rw [← own] at h hl moved passes ⊢
      exact ⟨_, moved, rfl, earned_of_passage run h orderly hl passes⟩
  · rw [history_snoc run hs] at seen
    rcases List.mem_append.1 seen with old | new
    · exact before (.inr ⟨time, old⟩)
    · exact before (.inl (exists_refresher_of_started hs new))

theorem Traced.reaches (run : Reaches p (.load p now events keys) as s)
    (start : Traced p s [] s id) (further : Reaches p s bs u) : Traced p s bs u id := by
  induction further with
  | refl => exact start
  | tail before last ih =>
    have run := run.trans before
    exact traced_step before ih run.sound run.orderly last

theorem Reaches.traced (run : Reaches p (.load p now events keys) as s) (id : Nat) :
    Traced p (.load p now events keys) as s id := by
  refine Traced.reaches (.refl _) ⟨nofun, ?_⟩ run
  rintro (⟨r, hr, -⟩ | ⟨time, seen⟩)
  · cases hr
  · cases seen

theorem Reaches.traced_nextId (run : Reaches p (.load p now events keys) as s)
    (further : Reaches p s bs u) : Traced p s bs u s.nextId := by
  have new := run.numbered.lookup?_nextId
  refine Traced.reaches run ⟨fun l hl => ?_, ?_⟩ further
  · rw [new] at hl
    cases hl
  rintro (begun | ⟨time, seen⟩)
  · obtain ⟨l, hl, -⟩ := (run.traced s.nextId).begun (.inl begun)
    rw [new] at hl
    cases hl
  · cases seen

/-! ### Fetches -/

/-- Where attempts are limited, a lookup whose key was in use when it was called never has the guard
at hand without finding its key or the limit. -/
theorem State.Prompt.not_allowed (h : s.Prompt l) (limit : 0 < p.options.rateLimit.nanos)
    (missing : s.keys.get? l.kid = none) : s.limited p = true := by
  rcases h.cause with ⟨-, there⟩ | completed
  · rw [missing] at there
    cases there
  · simp [State.limited, Ledger.limited, completed, limit]

/-- Where attempts are limited, a lookup that has earned a fetch since its call was called for a key
that was not in use then. -/
theorem Earned.missing_of_call (run : Reaches p (.load p now events keys) as s)
    (limit : 0 < p.options.rateLimit.nanos)
    (earned : Earned p s (.call kid :: bs) s.nextId kid) : s.keys.get? kid = none := by
  obtain ⟨v, l, stops, answer, ⟨before, after, split, reached⟩, hl, -, hand, missing,
    allowed⟩ := earned.allowed
  cases there : s.keys.get? kid with
  | none => rfl
  | some key =>
    cases before with
    | nil =>
      cases reaches_iff_after?.1 reached
      rw [run.numbered.lookup?_nextId] at hl
      cases hl
    | cons b before =>
      obtain ⟨rfl, -⟩ := List.cons.inj split
      obtain ⟨t, first, rest⟩ := reached.uncons
      obtain rfl := eq_call_of_step first
      obtain ⟨phase, found, prompt⟩ := prompt_reaches (.tail run first) limit rest
        (run.numbered.lookup?_call kid) (State.prompt_call (Option.isSome_of_eq_some there))
      rw [hl] at found
      cases found
      have going : phase.isOver = false := by
        rcases hand with ⟨called, -⟩ | ⟨queued, -⟩
        · rw [show phase = _ from called]; rfl
        · rw [show phase = _ from queued]; rfl
      -- the guard at hand and no key: then the limit has held it back
      rw [(prompt going).not_allowed limit missing] at allowed
      cases allowed

/-- **Whatever fetch a lookup starts, it has earned.**  The source can change; the lookup has missed
its key when it first ran and again with the guard at hand, and then the rate limit did not hold it
back.  Where attempts are limited, the key was not in use when the lookup was called either.  And no
attempt was completed less than the limit before the fetch. -/
theorem fetch_of_call (run : Reaches p (.load p now events keys) as s)
    (further : Reaches p s (.call kid :: bs) u) {time : Instant}
    (started : .started (.refresh s.nextId) time ∈ history p s (.call kid :: bs)) :
    Earned p s (.call kid :: bs) s.nextId kid ∧
      (0 < p.options.rateLimit.nanos → s.keys.get? kid = none) ∧
      ∀ before after, history p (.load p now events keys) (as ++ .call kid :: bs) =
          before ++ .started (.refresh s.nextId) time :: after →
        ∀ m ∈ before, ∀ t, m.completed? = some t → t + p.options.rateLimit.nanos ≤ time := by
  obtain ⟨l, hl, -, earned⟩ := (run.traced_nextId further).begun (.inr ⟨time, started⟩)
  obtain ⟨t, first, rest⟩ := further.uncons
  obtain rfl := eq_call_of_step first
  obtain rfl : l.kid = kid := by
    obtain ⟨phase, same⟩ := lookup?_reaches (.tail run first) rest (run.numbered.lookup?_call kid)
    rw [hl] at same
    cases same
    rfl
  refine ⟨earned, earned.missing_of_call run, fun before after split m hm t ht => ?_⟩
  have spaced := history_spaced (run.trans further)
  rw [split] at spaced
  exact (List.pairwise_append.1 spaced).2.2 m hm _ (List.mem_cons_self ..) t ht

end BearerAuth.KeyCache
