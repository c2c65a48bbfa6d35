import BearerAuth.Proofs.KeyCache.Alone

/-!
# The simulated order is one of many

A simulated lookup fixes the order in which tasks run.  It is one of the runs in which no other
lookup is called and the source behaves as told, so all of these end with its answer.

* `Simulation.Timed` says that the end of the fetch on the way is settled, and `Simulation.Proceeds`
  that one simulated cache comes of another by such a run;
* `Simulation.undisturbed_lookup` : the simulated lookup is such a run;
* `Simulation.answer_eq_lookup` : every such run gives the simulated answer.
-/

namespace BearerAuth.KeyCache.Simulation

open BearerAuth.KeyCache.Core

variable {m n k : Simulation} {c : Option Task} {a : Action} {s u : State} {kid : String}
  {time : Instant}

/-- It is settled when the source answers the fetch on the way. -/
def Timed (m : Simulation) : Prop :=
  ∀ f ∈ m.state.flights, m.ready = some (f.2 + m.source.delay.nanos)

/-- Who refreshes holds the guard, and when the source answers is settled. -/
structure Steady (m : Simulation) : Prop where
  /-- Who refreshes holds the guard. -/
  sound : m.state.core.Sound m.policy
  /-- It is settled when the source answers. -/
  timed : m.Timed

/-- One simulated cache comes of another by a run in which no lookup is called or given up, while
the source behaves as told. -/
structure Proceeds (m n : Simulation) : Prop where
  /-- The policy stays. -/
  policy : n.policy = m.policy
  /-- The source behaves the same. -/
  source : n.source = m.source
  /-- It goes on as before. -/
  steady : n.Steady
  /-- The run. -/
  run : ∃ as, Undisturbed m.policy m.source m.state as n.state

theorem Proceeds.refl (steady : m.Steady) : Proceeds m m := ⟨rfl, rfl, steady, [], .refl _⟩

theorem Proceeds.trans (h : Proceeds m n) (h' : Proceeds n k) : Proceeds m k := by
  obtain ⟨policy, source, -, as, run⟩ := h
  obtain ⟨policy', source', steady, bs, run'⟩ := h'
  rw [policy, source] at run'
  exact ⟨policy'.trans policy, source'.trans source, steady, as ++ bs, run.trans run'⟩

theorem proceeds_act (steady : m.Steady) (apart : a.Apart) (tells : m.source.Tells m.state a)
    (calm : ∀ u, step m.policy m.state a = some u → u.flights = m.state.flights) :
    Proceeds m (m.act a) := by
  unfold act
  split
  · rename_i u next
    refine ⟨rfl, rfl, ⟨(turn_step steady.sound next).1, ?_⟩, [a], .single apart tells next⟩
    intro f hf
    exact steady.timed f (calm u next ▸ hf)
  · exact .refl steady

/-- What the source answers to a task that runs is what it has to say. -/
theorem tells_run (steady : m.Steady) (task : Task) :
    m.source.Tells m.state (.run task true (m.answer? task)) := by
  change m.answer? task = m.source.heard
    ((m.state.flights.find? (·.1 == task)).elim m.state.now (·.2)) m.state.now
  cases flying : m.state.flights.find? (·.1 == task) with
  | none =>
    refine answer?_grounded (List.any_eq_false.2 fun f hf => ?_)
    simpa using List.find?_eq_none.1 flying f hf
  | some f =>
    have mem : f ∈ m.state.flights := List.mem_of_find?_eq_some flying
    have ready := steady.timed f mem
    have own : m.state.flights.any (·.1 == task) = true := by
      refine List.any_eq_true.2 ⟨f, mem, ?_⟩
      simpa using List.find?_some flying
    by_cases answered : f.2 + m.source.delay.nanos ≤ m.state.now <;>
      simp [answer?, Behaviour.heard, own, ready, answered]

theorem proceeds_runTask (steady : m.Steady) (task : Task) : Proceeds m (m.runTask task) := by
  have tells := tells_run steady task
  unfold runTask act
  split
  · rename_i u next
    refine ⟨rfl, rfl, ⟨(turn_step steady.sound next).1, fun f hf => ?_⟩, _,
      .single (a := .run task true _) trivial tells next⟩
    change f ∈ u.flights at hf
    change (if u.flights.isEmpty then none
      else if m.state.fetches < u.fetches then some (m.state.now + m.source.delay.nanos)
      else m.ready) = _
    have turn := turn_step_run steady.sound next
    generalize observe _ _ _ _ = marks at turn
    have busy : u.flights.isEmpty = false := List.isEmpty_eq_false_iff_exists_mem.2 ⟨f, hf⟩
    rw [if_neg (by simp [busy])]
    rw [← State.flights_core] at hf
    cases turn with
    | calm calm =>
      have same : u.fetches = m.state.fetches := calm.fetches
      rw [if_neg (by rw [same]; exact Nat.lt_irrefl _)]
      exact steady.timed f (by rw [← State.flights_core, ← calm.flights]; exact hf)
    | start _ _ store flying =>
      have more : u.fetches = m.state.fetches + 1 := store.fetches
      rw [if_pos (by rw [more]; exact Nat.lt_succ_self _)]
      rw [flying, List.mem_singleton] at hf
      rw [hf]
      rfl
    | finish _ _ _ _ landed | startFinish _ _ _ landed => rw [landed] at hf; cases hf
  · refine ⟨rfl, rfl, ⟨steady.sound, fun f hf => ?_⟩, [], .refl _⟩
    change f ∈ m.state.flights at hf
    have busy : m.state.flights.isEmpty = false :=
      List.isEmpty_eq_false_iff_exists_mem.2 ⟨f, hf⟩
    simpa [busy] using steady.timed f hf

theorem proceeds_runs (c : Option Task) (bound : Nat) {m : Simulation} (steady : m.Steady) :
    Proceeds m (runs c bound m) := by
  induction bound generalizing m with
  | zero => exact .refl steady
  | succ bound ih =>
    unfold runs
    split
    · rename_i task _
      have first := proceeds_runTask steady task
      exact first.trans (ih first.steady)
    · exact .refl steady

theorem proceeds_settle (c : Option Task) (steady : m.Steady) : Proceeds m (m.settle c) :=
  proceeds_runs c _ steady

/-! ### Time -/

theorem proceeds_foldl_wake (tasks : List Task) {m : Simulation} (steady : m.Steady) :
    Proceeds m (tasks.foldl (fun m t => m.act (.wake t)) m) := by
  induction tasks generalizing m with
  | nil => exact .refl steady
  | cons task rest ih =>
    have first : Proceeds m (m.act (.wake task)) := by
      refine proceeds_act steady trivial trivial fun u next => ?_
      cases step_eq_some_iff.1 next
      rw [← State.flights_core, State.core_wake, State.flights_core]
    exact first.trans (ih first.steady)

/-- Time passes up to some instant, which is not past the source's answer. -/
theorem proceeds_passTo (c : Option Task) (steady : m.Steady)
    (within : ∀ f ∈ m.state.flights, time ≤ f.2 + m.source.delay.nanos) :
    Proceeds m (m.passTo c time) := by
  have passed : Proceeds m (m.act (.advance time)) := by
    refine proceeds_act steady trivial within fun u next => ?_
    obtain ⟨-, -, -, rfl⟩ := eq_advance_of_step next
    rfl
  have woken := passed.trans (proceeds_foldl_wake (m.act (.advance time)).dueTasks passed.steady)
  exact woken.trans (proceeds_settle c woken.steady)

theorem proceeds_awaits (isDone : State → Bool) (c : Option Task) (bound : Nat) {m : Simulation}
    (steady : m.Steady) : Proceeds m (awaits isDone c bound m) := by
  induction bound generalizing m with
  | zero => exact .refl steady
  | succ bound ih =>
    unfold awaits
    split
    · exact .refl steady
    split
    · rename_i time next
      have first : Proceeds m (m.passTo c time) := by
        refine proceeds_passTo c steady fun f hf => ?_
        -- the answer falls due as well, and no event comes before the first
        refine (List.min?_eq_some_iff.1 next).2 _ (List.mem_append_right _ ?_)
        have busy : m.state.flights.isEmpty = false :=
          List.isEmpty_eq_false_iff_exists_mem.2 ⟨f, hf⟩
        simp [busy, steady.timed f hf]
      exact first.trans (ih first.steady)
    · exact .refl steady

theorem proceeds_await (isDone : State → Bool) (c : Option Task) (steady : m.Steady) :
    Proceeds m (m.await isDone c) :=
  have first := proceeds_settle c steady
  first.trans (proceeds_awaits isDone c _ first.steady)

/-! ### The lookup -/

/-- **The simulated lookup is a run without company.** -/
theorem undisturbed_lookup (rest : m.state.AtRest m.policy) (sound : m.state.core.Sound m.policy)
    (kid : String) :
    ∃ as, Undisturbed m.policy m.source (m.state.call kid) as (m.lookup kid).1.state := by
  have core := State.core_call m.state kid
  have landed : (m.state.call kid).flights = [] := by
    rw [← State.flights_core, core, State.flights_core]
    exact State.flights_of_grounded rest.grounded rest.dozes.started?
  have steady : Steady { m with state := m.state.call kid } :=
    ⟨core ▸ sound, fun f hf => by rw [landed] at hf; cases hf⟩
  unfold lookup
  dsimp only
  rw [act_call rest.owned]
  exact (proceeds_await (isOver m.state.nextId) (some (.lookup m.state.nextId)) steady).run

theorem lookups_lookup (rest : m.state.AtRest m.policy)
    (limit : 0 < m.policy.options.rateLimit.nanos)
    (sound : (m.policy.bounded m.source).2.outcome ≠ .crashed) (kid : String) :
    ∃ answer, (m.lookup kid).1.state.lookups = m.state.inquiries kid (.ofAnswer answer) := by
  cases there : m.state.keys.get? kid with
  | some key =>
    rw [lookup_of_run (.ok key) [] rest fun heard =>
      (State.run_asked_known rest there).trans (State.note_nil _).symm]
    exact ⟨_, rfl⟩
  | none =>
    cases polling : m.policy.polling with
    | false =>
      rw [lookup_of_run (.error (.unknownKey kid)) _ rest fun heard =>
        State.run_asked_fixed there rest polling]
      exact ⟨_, rfl⟩
    | true =>
      cases limited : m.state.limited m.policy with
      | true =>
        rw [lookup_of_run (.error (.unknownKey kid)) _ rest fun heard =>
          State.run_asked_limited there rest polling limited]
        exact ⟨_, rfl⟩
      | false =>
        obtain ⟨schedule, skips, -, same⟩ := lookup_due rest limit sound there polling limited
        rw [same]
        exact ⟨_, congrArg (m.state.inquiries kid) (State.conclusion_eq_ofAnswer _)⟩

variable {p : Policy} {source : Behaviour} {as bs : List Action} {since : Instant}
  {events : List Event} {keys : KeySet} {r : Option Instant}

/-- **Every order gives the simulated answer.**  In a cache that has been reached in any way, in
which nothing can run and the guard is free, a key is looked up.  Whatever happens then, as long as
no lookup is called or given up and the source behaves as told, if there is an answer, it is the one
of the simulated lookup. -/
theorem answer_eq_lookup (run : Reaches p (.load p since events keys) as s) (settled : s.Settled p)
    (free : s.holder = none) (owned : s.owned = true) (limit : 0 < p.options.rateLimit.nanos)
    (sound : source.answer.outcome ≠ .crashed) (h : Undisturbed p source (s.call kid) bs u)
    {answer : Except Failure VerificationKey} (given : u.answer? s.nextId = some answer) :
    answer = (lookup ⟨p, source, s, r⟩ kid).2 := by
  have rest : s.AtRest p := State.atRest_of_reaches run settled free owned
  obtain ⟨cs, simulated⟩ := undisturbed_lookup (m := ⟨p, source, s, r⟩) rest run.sound kid
  obtain ⟨simulatedAnswer, ended⟩ := lookups_lookup (m := ⟨p, source, s, r⟩) rest limit
    (bounded_ne_crashed sound) kid
  have result := congrArg Prod.snd (lookup_eq (m := ⟨p, source, s, r⟩) rest rfl ended)
  have found : (lookup ⟨p, source, s, r⟩ kid).1.state.answer? s.nextId = some simulatedAnswer := by
    rw [State.answer?, State.lookup?_inquiries rest ended]
    exact LookupPhase.answer?_ofAnswer _
  obtain ⟨_, _, _, -, -, -, account⟩ :=
    (answer_undisturbed run settled free owned limit sound h).2 _ given
  obtain ⟨_, _, _, -, -, -, account'⟩ :=
    (answer_undisturbed run settled free owned limit sound simulated).2 _ found
  rw [result]
  exact account.unique account'

end BearerAuth.KeyCache.Simulation
