import BearerAuth.KeyCache.Simulation
import BearerAuth.Proofs.KeyCache.History

/-!
# Simulated caches

A simulated cache goes on until nothing can run, and fixes the order in which tasks run.  Whatever
it does, it does by steps, so that what holds of all runs of a cache holds of it at any time.

* `Simulation.Leads` says that steps lead from one simulated cache to another, and
  `Simulation.Pursues` that they do so while the source behaves the same;
* `Simulation.Operation` lists what can be done with a cache, and `Simulation.leads_apply` says that
  it is done by steps;
* `Creation.reaches_of_simulation?` : all of it begins where the first keys have been loaded.

The proof: the functions that run tasks and let time pass are recursions on a bound, so an
induction on the bound puts the steps of each round in front of those of the later ones.
-/

namespace BearerAuth.KeyCache

/-- If a fetch hears of its source in an action, it hears this answer. -/
def Action.Hears (answer : Answer) : Action → Prop
  | .run _ _ (some heard) => heard = answer
  | _ => True

namespace Simulation

/-- Steps lead from one simulated cache to another. -/
structure Leads (m n : Simulation) : Prop where
  /-- The policy stays. -/
  policy : n.policy = m.policy
  /-- The steps. -/
  reaches : ∃ as, Reaches m.policy m.state as n.state

/-- Steps lead from one simulated cache to another while its source behaves as it does. -/
structure Pursues (m n : Simulation) : Prop where
  /-- The policy stays. -/
  policy : n.policy = m.policy
  /-- The source behaves the same. -/
  source : n.source = m.source
  /-- The steps, in which every fetch hears the same. -/
  reaches : ∃ as, Reaches m.policy m.state as n.state ∧ ∀ a ∈ as, a.Hears m.source.answer

variable {m n k : Simulation}

theorem Leads.refl (m : Simulation) : Leads m m := ⟨rfl, [], .refl _⟩

theorem Leads.trans (h : Leads m n) (h' : Leads n k) : Leads m k := by
  obtain ⟨same, as, run⟩ := h
  obtain ⟨same', bs, run'⟩ := h'
  rw [same] at run'
  exact ⟨same'.trans same, as ++ bs, run.trans run'⟩

/-- What becomes of the source is no matter of the cache. -/
theorem Leads.of_eq (policy : n.policy = m.policy) (state : n.state = m.state) : Leads m n :=
  ⟨policy, [], state ▸ .refl _⟩

theorem Pursues.leads (h : Pursues m n) : Leads m n := by
  obtain ⟨policy, -, as, run, -⟩ := h
  exact ⟨policy, as, run⟩

theorem Pursues.refl (m : Simulation) : Pursues m m := ⟨rfl, rfl, [], .refl _, nofun⟩

theorem Pursues.trans (h : Pursues m n) (h' : Pursues n k) : Pursues m k := by
  obtain ⟨same, source, as, run, heard⟩ := h
  obtain ⟨same', source', bs, run', heard'⟩ := h'
  rw [same] at run'
  rw [source] at heard'
  refine ⟨same'.trans same, source'.trans source, as ++ bs, run.trans run', fun a ha => ?_⟩
  rcases List.mem_append.1 ha with ha | ha
  · exact heard a ha
  · exact heard' a ha

theorem Pursues.of_eq (policy : n.policy = m.policy) (source : n.source = m.source)
    (state : n.state = m.state) : Pursues m n := ⟨policy, source, [], state ▸ .refl _, nofun⟩

/-- An action is a step, or is not possible and changes nothing. -/
theorem pursues_act (m : Simulation) (a : Action) (hears : a.Hears m.source.answer) :
    Pursues m (m.act a) := by
  unfold act
  split
  · rename_i next
    exact ⟨rfl, rfl, [a], .tail (.refl _) next, List.forall_mem_singleton.2 hears⟩
  · exact .refl m

theorem pursues_foldl {α : Type} {f : Simulation → α → Simulation} (each : ∀ m x, Pursues m (f m x))
    (xs : List α) (m : Simulation) : Pursues m (xs.foldl f m) := by
  induction xs generalizing m with
  | nil => exact .refl m
  | cons x xs ih => exact (each m x).trans (ih _)

/-! ### One instant -/

theorem pursues_runTask (m : Simulation) (t : Task) : Pursues m (m.runTask t) := by
  have hears : (Action.run t true (m.answer? t)).Hears m.source.answer := by
    unfold answer?
    dsimp only
    split <;> split <;> trivial
  exact (pursues_act m _ hears).trans (.of_eq rfl rfl rfl)

theorem pursues_runs (caller : Option Task) (bound : Nat) (m : Simulation) :
    Pursues m (runs caller bound m) := by
  induction bound generalizing m with
  | zero => exact .refl m
  | succ bound ih =>
    unfold runs
    split
    · exact (pursues_runTask m _).trans (ih _)
    · exact .refl m

theorem pursues_settle (m : Simulation) (caller : Option Task) : Pursues m (m.settle caller) :=
  pursues_runs caller _ m

/-! ### Time -/

theorem pursues_passTo (m : Simulation) (caller : Option Task) (t : Instant) :
    Pursues m (m.passTo caller t) := by
  have woken := pursues_foldl (fun m t => pursues_act m (.wake t) trivial)
    (m.act (.advance t)).dueTasks (m.act (.advance t))
  exact ((pursues_act m (.advance t) trivial).trans woken).trans (pursues_settle _ caller)

theorem pursues_passes (target : Instant) (bound : Nat) (m : Simulation) :
    Pursues m (passes target bound m) := by
  induction bound generalizing m with
  | zero => exact .refl m
  | succ bound ih =>
    unfold passes
    split
    · split
      · exact (pursues_passTo m none _).trans (ih _)
      · exact pursues_passTo m none target
    · exact pursues_passTo m none target

theorem pursues_advance (m : Simulation) (d : Duration) : Pursues m (m.advance d) :=
  pursues_passes _ _ m

theorem pursues_awaits (isDone : State → Bool) (caller : Option Task) (bound : Nat)
    (m : Simulation) : Pursues m (awaits isDone caller bound m) := by
  induction bound generalizing m with
  | zero => exact .refl m
  | succ bound ih =>
    unfold awaits
    split
    · exact .refl m
    · split
      · exact (pursues_passTo m caller _).trans (ih _)
      · exact .refl m

theorem pursues_await (m : Simulation) (isDone : State → Bool) (caller : Option Task) :
    Pursues m (m.await isDone caller) :=
  (pursues_settle m caller).trans (pursues_awaits isDone caller _ _)

/-! ### What can be done with a cache -/

theorem act_call (owned : m.state.owned = true) (kid : String) :
    m.act (.call kid) = { m with state := m.state.call kid } := by
  simp only [act, step, owned, if_true]

theorem reaches_lookup (m : Simulation) (owned : m.state.owned = true) (kid : String) :
    ∃ as, Reaches m.policy m.state (.call kid :: as) (m.lookup kid).1.state ∧
      ∀ a ∈ as, a.Hears m.source.answer := by
  obtain ⟨-, -, as, rest, heard⟩ := pursues_await (m.act (.call kid)) (isOver m.state.nextId)
    (some (.lookup m.state.nextId))
  have first : Reaches m.policy m.state [.call kid] (m.state.call kid) :=
    .tail (.refl _) (if_pos owned)
  unfold lookup
  dsimp only
  rw [act_call owned] at rest heard ⊢
  exact ⟨as, first.trans rest, heard⟩

theorem pursues_lookup (m : Simulation) (kid : String) : Pursues m (m.lookup kid).1 :=
  (pursues_act m (.call kid) trivial).trans (pursues_await _ _ _)

theorem pursues_lookups (m : Simulation) (kids : List String) :
    Pursues m (m.lookups kids).1 := by
  have called := pursues_foldl (fun m kid => pursues_act m (.call kid) trivial) kids m
  unfold lookups
  dsimp only
  exact called.trans (pursues_await _ _ none)

theorem pursues_watch (m : Simulation) : Pursues m m.watch.1 := by
  unfold watch
  dsimp only
  exact (pursues_act m .watch trivial).trans (pursues_await _ _ _)

theorem pursues_close (m : Simulation) : Pursues m m.close :=
  (pursues_act m .close trivial).trans (pursues_await _ _ _)

/-- What can be done with a cache or its source. -/
inductive Operation where
  /-- The source behaves differently from now on. -/
  | setSource (source : Behaviour)
  /-- A lookup is started. -/
  | spawn (kid : String)
  /-- A lookup is waited for. -/
  | join (id : Nat)
  /-- A key is looked up. -/
  | lookup (kid : String)
  /-- Keys are looked up all at once. -/
  | lookups (kids : List String)
  /-- A lookup is given up. -/
  | abort (id : Nat)
  /-- The record of refreshes is asked for. -/
  | watch
  /-- The schedule is stopped. -/
  | close
  /-- The cache is let go. -/
  | drop
  /-- Time passes. -/
  | advance (d : Duration)

/-- The cache after an operation. -/
def apply (m : Simulation) : Operation → Simulation
  | .setSource source => m.setSource source
  | .spawn kid => (m.spawn kid).1
  | .join id => m.join id
  | .lookup kid => (m.lookup kid).1
  | .lookups kids => (m.lookups kids).1
  | .abort id => m.abort id
  | .watch => m.watch.1
  | .close => m.close
  | .drop => m.drop
  | .advance d => m.advance d

/-- Whatever is done with a cache is done by steps. -/
theorem leads_apply (m : Simulation) (o : Operation) : Leads m (m.apply o) := by
  cases o with
  | setSource source => exact .of_eq rfl rfl
  | spawn kid => exact ((pursues_act m (.call kid) trivial).trans (pursues_settle _ none)).leads
  | join id => exact (pursues_await m _ none).leads
  | lookup kid => exact (pursues_lookup m kid).leads
  | lookups kids => exact (pursues_lookups m kids).leads
  | abort id => exact ((pursues_act m (.abort id) trivial).trans (pursues_settle _ none)).leads
  | watch => exact (pursues_watch m).leads
  | close => exact (pursues_close m).leads
  | drop => exact ((pursues_act m .drop trivial).trans (pursues_settle _ none)).leads
  | advance d => exact (pursues_advance m d).leads

theorem leads_foldl_apply (operations : List Operation) (m : Simulation) :
    Leads m (operations.foldl apply m) := by
  induction operations generalizing m with
  | nil => exact .refl m
  | cons o operations ih => exact (leads_apply m o).trans (ih _)

end Simulation

open Simulation in
/-- **A simulated cache is reached by steps** from the state in which its first keys have been
loaded, whatever was done with it since. -/
theorem Creation.reaches_of_simulation? {c : Creation} {m : Simulation}
    (made : c.simulation? = some m) (operations : List Operation) :
    ∃ keys as, c.answer.outcome = .keys keys ∧
      Reaches c.policy (.load c.policy c.completed c.answer.events keys) as
        (operations.foldl apply m).state := by
  unfold simulation? at made
  split at made
  · rename_i keys outcome
    cases made
    -- the first instant goes on until nothing can run, and the operations follow
    let first : Simulation :=
      { policy := c.policy
        source := c.source
        state := .load c.policy c.completed c.answer.events keys }
    obtain ⟨-, as, run⟩ := (pursues_settle first none).leads.trans (leads_foldl_apply operations _)
    exact ⟨keys, as, outcome, run⟩
  · cases made

end BearerAuth.KeyCache
