import BearerAuth.Proofs.KeyCache.Misses
import BearerAuth.Proofs.KeyCache.Simulated

/-!
# What lookups can find

A lookup ends with a key that has been in use under its name since it was called, or it calls its
key unknown.  Whatever goes wrong in a fetch, the lookup is not told.

* `Meets` says that a run comes by a key in use;
* `answer_of_nextId`, `answer_of_call` : the answers that a lookup can get;
* `not_meets_of_absent` : what is neither in use nor brought is not met;
* `Simulation.lookup_cases`, `Simulation.lookup_of_absent` : the same for a simulated cache.

The proof: only the keys in use answer a lookup, in a step of its own, so that an induction on the
run finds that step.
-/

namespace BearerAuth.KeyCache

variable {p : Policy} {s u v : State} {as bs : List Action} {a b : Action} {id : Nat} {kid : String}
  {l : Lookup} {now : Instant} {events : List Event} {keys : KeySet} {key : VerificationKey}
  {r : Except Failure VerificationKey}

/-- A run comes by a state in which a key is in use under a name. -/
def Meets (p : Policy) (s : State) (as : List Action) (kid : String) (key : VerificationKey) :
    Prop :=
  ∃ v b, Visits p s as v b ∧ v.keys.get? kid = some key

theorem Meets.append (h : Meets p s as kid key) (bs : List Action) :
    Meets p s (as ++ bs) kid key := by
  obtain ⟨v, b, visits, there⟩ := h
  exact ⟨v, b, visits.append bs, there⟩

/-! ### Answers -/

/-- The answer of a lookup, if it has one, says that its key is unknown or is a key that the run has
come by. -/
def Resolved (p : Policy) (s₀ : State) (as : List Action) (s : State) (id : Nat) : Prop :=
  ∀ l r, s.lookup? id = some l → l.phase.answer? = some r →
    r = .error (.unknownKey l.kid) ∨ ∃ key, r = .ok key ∧ Meets p s₀ as l.kid key

theorem resolved_step {s₀ : State} (run : Reaches p s₀ as s) (h : Resolved p s₀ as s id)
    (sound : s.core.Sound p) (hs : step p s a = some u) : Resolved p s₀ (as ++ [a]) u id := by
  intro l r hl answered
  rcases lookup?_origin sound hs hl with
    ⟨kid, -, -, rfl⟩ | ⟨l₀, hl₀, rfl | ⟨phase, passes, rfl⟩⟩
  · cases answered
  · exact (h l r hl₀ answered).imp_right fun ⟨key, hr, meets⟩ => ⟨key, hr, meets.append [a]⟩
  · cases passes with
    | answered =>
      -- the keys in use answer it
      simp only [State.conclusion] at answered
      split at answered <;> cases answered
      · rename_i key there
        exact .inr ⟨key, rfl, s, _, run.visits _, there⟩
      · exact .inl rfl
    | queued | begun | ended | aborted => cases answered

theorem resolved_reaches (run : Reaches p (.load p now events keys) as s)
    (further : Reaches p s bs u) : Resolved p s bs u s.nextId := by
  induction further with
  | refl =>
    intro l r hl
    rw [run.numbered.lookup?_nextId] at hl
    cases hl
  | tail before last ih => exact resolved_step before ih (run.trans before).sound last

theorem answer_of_nextId (run : Reaches p (.load p now events keys) as s)
    (further : Reaches p s bs u) (answered : u.answer? s.nextId = some r) :
    ∃ l, u.lookup? s.nextId = some l ∧
      (r = .error (.unknownKey l.kid) ∨ ∃ key, r = .ok key ∧ Meets p s bs l.kid key) := by
  obtain ⟨l, hl, answered⟩ := Option.bind_eq_some_iff.1 answered
  exact ⟨l, hl, resolved_reaches run further l r hl answered⟩

/-- **A lookup finds a key that has been in use under its name since it was called**, or it calls
its key unknown. -/
theorem answer_of_call (run : Reaches p (.load p now events keys) as s)
    (further : Reaches p s (.call kid :: bs) u) (answered : u.answer? s.nextId = some r) :
    r = .error (.unknownKey kid) ∨ ∃ key, r = .ok key ∧ Meets p s (.call kid :: bs) kid key := by
  obtain ⟨l, hl, resolved⟩ := answer_of_nextId run further answered
  obtain ⟨t, first, rest⟩ := further.uncons
  obtain rfl := eq_call_of_step first
  obtain ⟨phase, same⟩ := lookup?_reaches (run.tail first) rest (run.numbered.lookup?_call kid)
  rw [hl] at same
  cases same
  exact resolved

/-! ### Keys in use -/

/-- The keys in use are those from the beginning, or the source answered with them. -/
theorem keys_cases_of_reaches (run : Reaches p (.load p now events keys) as s)
    (further : Reaches p s bs u) : u.keys = s.keys ∨ ∃ a ∈ bs, a.brings? = some u.keys := by
  induction further with
  | refl => exact .inl rfl
  | @tail t u bs a before last ih =>
    have told := published_step (run.trans before).sound last
    rcases lastPublished_cases t.core.published (observe p t a u) with first | ⟨m, hm, brought⟩
    · rw [first] at told
      rw [show u.keys = t.keys from congrArg Prod.fst told]
      exact ih.imp_right fun ⟨a, ha, brings⟩ => ⟨a, List.mem_append_left _ ha, brings⟩
    · rw [← told] at brought
      exact .inr ⟨a, List.mem_append_right _ (List.mem_singleton_self a),
        brings?_of_mem_observe hm brought⟩

theorem not_meets_of_absent (run : Reaches p (.load p now events keys) as s)
    (absent : s.keys.get? kid = none)
    (never : ∀ a ∈ bs, ∀ brought, a.brings? = some brought → brought.get? kid = none) :
    ¬ Meets p s bs kid key := by
  rintro ⟨v, b, ⟨before, after, rfl, reached⟩, there⟩
  have missing : v.keys.get? kid = none := by
    rcases keys_cases_of_reaches run reached with same | ⟨a, ha, brings⟩
    · rw [same]
      exact absent
    · exact never a (List.mem_append_left _ ha) _ brings
  rw [missing] at there
  cases there

/-! ### Simulated caches -/

theorem Action.Hears.outcome_of_brings? {answer : Answer} (h : a.Hears answer) {brought : KeySet}
    (brings : a.brings? = some brought) : answer.outcome = .keys brought := by
  unfold Action.brings? at brings
  split at brings <;> cases brings
  rw [← show _ = answer from h]

namespace Simulation

variable {m : Simulation}

/-- A lookup in a simulated cache finds a key, or says that a key is unknown. -/
theorem lookup_cases (run : Reaches m.policy (.load m.policy now events keys) as m.state)
    (kid : String) :
    (∃ kid', (m.lookup kid).2 = .error (.unknownKey kid')) ∨ ∃ key, (m.lookup kid).2 = .ok key := by
  obtain ⟨-, -, bs, further, -⟩ := pursues_lookup m kid
  have result : (m.lookup kid).2 =
      ((m.lookup kid).1.state.answer? m.state.nextId).getD (.error (.unknownKey kid)) := rfl
  rw [result]
  cases answered : (m.lookup kid).1.state.answer? m.state.nextId with
  | none => exact .inl ⟨kid, rfl⟩
  | some r =>
    obtain ⟨l, -, rfl | ⟨key, rfl, -⟩⟩ := answer_of_nextId run further answered
    · exact .inl ⟨l.kid, rfl⟩
    · exact .inr ⟨key, rfl⟩

/-- **A key that is neither in use nor to be had from the source is unknown**, whatever else the
source does. -/
theorem lookup_of_absent (run : Reaches m.policy (.load m.policy now events keys) as m.state)
    (owned : m.state.owned = true) (absent : m.state.keys.get? kid = none)
    (never : ∀ brought, m.source.answer.outcome = .keys brought → brought.get? kid = none) :
    (m.lookup kid).2 = .error (.unknownKey kid) := by
  obtain ⟨bs, further, hears⟩ := m.reaches_lookup owned kid
  have result : (m.lookup kid).2 =
      ((m.lookup kid).1.state.answer? m.state.nextId).getD (.error (.unknownKey kid)) := rfl
  rw [result]
  cases answered : (m.lookup kid).1.state.answer? m.state.nextId with
  | none => rfl
  | some r =>
    rcases answer_of_call run further answered with rfl | ⟨key, rfl, meets⟩
    · rfl
    · refine absurd meets (not_meets_of_absent run absent ?_)
      intro a ha brought brings
      rcases List.mem_cons.1 ha with rfl | ha
      · cases brings
      · -- whatever a fetch hears is what the source answers
        exact never brought ((hears a ha).outcome_of_brings? brings)

end Simulation

end BearerAuth.KeyCache
