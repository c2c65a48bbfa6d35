import BearerAuth.Proofs.KeyCache.Core

/-!
# The history of a run

What a source and its clock see of a run of a cache: which task starts a fetch and when, which
fetch ends, when and how.  It is read off the states before and after each step, from the number of
fetches that the source has counted and from the fetches on the way, and not from the record that
the cache keeps.

* `observe` is what can be seen of one step, `history` of a run;
* `Mark.completed?` is the instant at which a refresh attempt was completed;
* `lastPublished` are the keys that a fetch brought last, and when.
-/

namespace BearerAuth.KeyCache

/-- What can be seen of a fetch. -/
inductive Mark where
  /-- A task starts a fetch. -/
  | started (task : Task) (time : Instant)
  /-- The fetch of a task ends. -/
  | ended (task : Task) (time : Instant) (how : FetchEnd)
  deriving DecidableEq, Repr

namespace Mark

/-- When it is seen. -/
def time : Mark → Instant
  | started _ time | ended _ time _ => time

/-- When a refresh attempt was completed, with or without success.  A fetch that breaks down
completes none. -/
def completed? : Mark → Option Instant
  | ended _ time (.keys _) | ended _ time (.failed _) => some time
  | _ => none

/-- The keys that a fetch brought, and when. -/
def published? : Mark → Option (KeySet × Instant)
  | ended _ time (.keys keys) => some (keys, time)
  | _ => none

/-- A fetch broke down. -/
def isCrash : Mark → Bool
  | ended _ _ .crashed => true
  | _ => false

theorem time_of_completed? {m : Mark} {time : Instant} (h : m.completed? = some time) :
    m.time = time := by
  unfold completed? at h
  split at h <;> cases h <;> rfl

variable {task : Task} {time : Instant} {how : FetchEnd}

theorem isCrash_ended (h : how.ending = .crashed) : (ended task time how).isCrash = true := by
  cases how with
  | keys | failed => cases h
  | crashed => rfl

theorem completed?_ended (h : how.ending ≠ .crashed) :
    (ended task time how).completed? = some time := by
  cases how with
  | keys | failed => rfl
  | crashed => exact absurd rfl h

end Mark

variable (p : Policy)

/-- How a fetch that ends with some answer of its source ends: without one, by the timeout. -/
def Policy.outcome (answer : Option Answer) : FetchEnd :=
  (answer.map (·.outcome)).getD (.failed p.timedOut)

/-- What can be seen of the step from `s` to `u`. -/
def observe (s : State) (a : Action) (u : State) : List Mark :=
  match a with
  | .run task _ answer =>
    let starts := u.fetches - s.fetches
    let ends := s.flights.length + starts - u.flights.length
    List.replicate starts (.started task s.now) ++
      List.replicate ends (.ended task s.now (p.outcome answer))
  | _ => []

/-- What can be seen of a run from `s`. -/
def history (s : State) : List Action → List Mark
  | [] => []
  | a :: as =>
    match step p s a with
    | some u => observe p s a u ++ history u as
    | none => []

/-- The keys that were brought last, and when: those of `first` unless the marks tell of others. -/
def lastPublished (first : KeySet × Instant) (marks : List Mark) : KeySet × Instant :=
  (marks.filterMap Mark.published?).getLast?.getD first

/-- When the last attempt was completed. -/
def lastCompleted? (marks : List Mark) : Option Instant :=
  (marks.filterMap Mark.completed?).getLast?

/-- The state after some actions, if all of them are possible one after the other. -/
def after? (s : State) : List Action → Option State
  | [] => some s
  | a :: as => (step p s a).bind fun u => after? u as

variable {p} {s t u : State} {as bs : List Action} {a : Action}

theorem after?_append : after? p s (as ++ bs) = (after? p s as).bind fun t => after? p t bs := by
  induction as generalizing s with
  | nil => rfl
  | cons a as ih => simp only [List.cons_append, after?, ih, Option.bind_assoc]

theorem Reaches.trans (h : Reaches p s as t) (h' : Reaches p t bs u) :
    Reaches p s (as ++ bs) u := by
  induction h' with
  | refl => simpa using h
  | tail _ last ih => rw [← List.append_assoc]; exact .tail ih last

/-- Runs are computed: some actions lead to `u` exactly if `u` is what comes after them. -/
theorem reaches_iff_after? : Reaches p s as u ↔ after? p s as = some u := by
  constructor
  · intro h
    induction h with
    | refl => rfl
    | tail _ last ih => simp [after?_append, ih, after?, last]
  · intro h
    induction as generalizing s with
    | nil => cases h; exact .refl _
    | cons a as ih =>
      obtain ⟨t, first, rest⟩ := Option.bind_eq_some_iff.1 h
      exact (Reaches.tail (.refl s) first).trans (ih rest)

theorem Reaches.uncons (h : Reaches p s (a :: as) u) :
    ∃ t, step p s a = some t ∧ Reaches p t as u := by
  obtain ⟨t, first, rest⟩ := Option.bind_eq_some_iff.1 (reaches_iff_after?.1 h)
  exact ⟨t, first, reaches_iff_after?.2 rest⟩

theorem history_append (h : Reaches p s as t) :
    history p s (as ++ bs) = history p s as ++ history p t bs := by
  rw [reaches_iff_after?] at h
  induction as generalizing s with
  | nil => cases h; rfl
  | cons a as ih =>
    obtain ⟨v, first, rest⟩ := Option.bind_eq_some_iff.1 h
    simp only [List.cons_append, history, first, ih rest, List.append_assoc]

theorem history_snoc (h : Reaches p s as t) (last : step p t a = some u) :
    history p s (as ++ [a]) = history p s as ++ observe p t a u := by
  simp [history_append h, history, last]

end BearerAuth.KeyCache
