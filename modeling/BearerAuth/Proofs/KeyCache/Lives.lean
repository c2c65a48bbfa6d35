import Mathlib.Data.List.Nodup
import BearerAuth.Proofs.KeyCache.Bystanders
import BearerAuth.Proofs.KeyCache.Guard

/-!
# The life of a lookup

A lookup gets a number when it is called.  The number, the key that it asks for and the instant of
the call are its own for good; all that ever changes is its phase, and a lookup that is over changes
no more.

* `State.Front` is the part of a state that only callers change; `State.front_runs` says that no
  task does, and `front_step` what an action makes of it;
* `lookups_step` says all that a step does to the list of lookups;
* `State.Numbered` : no number is given twice, so that a lookup is found by its number;
* `lookup?_step`, `lookup?_reaches` : a lookup stays, but for its phase, which only a `Passage`
  changes;
* `lookup?_reaches_of_isOver` : a lookup that is over stays as it is.
-/

namespace BearerAuth.KeyCache

open BearerAuth.KeyCache.Core

variable {p : Policy} {s u : State} {as : List Action} {a : Action} {id : Nat} {l : Lookup}
  {now : Instant} {events : List Event} {keys : KeySet}

/-! ### What only callers change -/

/-- The part of a state that only callers change. -/
structure Front where
  /-- The number that is given next. -/
  nextId : Nat
  /-- The cache has an owner. -/
  owned : Bool

/-- The schedule leaves it alone as well. -/
def Bystanders.front (b : Bystanders) : Front := ⟨b.nextId, b.owned⟩

namespace State

/-- The part of a state that only callers change. -/
def front (s : State) : Front := ⟨s.nextId, s.owned⟩

variable (p) (s)

@[simp] theorem front_note (events : List Event) : (s.note events).front = s.front := rfl

@[simp] theorem front_setPhase (id : Nat) (phase : LookupPhase) :
    (s.setPhase id phase).front = s.front := rfl

@[simp] theorem front_disclose (id : Nat) : (s.disclose id).front = s.front := rfl

@[simp] theorem front_wake (t : Task) : (s.wake t).front = s.front :=
  congrArg Bystanders.front (bystanders_wake s t)

@[simp] theorem front_ask (t : Task) : (s.ask t).front = s.front :=
  congrArg Bystanders.front (bystanders_ask s t)

@[simp] theorem front_release : s.release.front = s.front :=
  congrArg Bystanders.front (bystanders_release s)

@[simp] theorem front_cancel : s.cancel.front = s.front := by
  unfold cancel
  split
  · exact front_wake _ _
  · rfl

@[simp] theorem front_giveUp : s.giveUp.front = s.front := by
  unfold giveUp; split <;> simp

@[simp] theorem front_conclude (l : Lookup) : (s.conclude l).front = s.front := by
  unfold conclude; split <;> simp [finish]

@[simp] theorem front_inspect (l : Lookup) : (s.inspect p l).front = s.front := by
  unfold inspect
  split
  · simp
  · split
    · simp
    · exact front_wake _ _

@[simp] theorem front_miss (l : Lookup) : (s.miss p l).front = s.front := by
  unfold miss
  dsimp only
  split <;> simp

@[simp] theorem front_runLookup (l : Lookup) : (s.runLookup p l).front = s.front := by
  unfold runLookup
  split
  · split
    · simp
    · split <;> simp
  · split <;> simp
  · simp
  · rfl

@[simp] theorem front_enter (trigger : Trigger) (how : FetchEnd) :
    (s.enter p trigger how).front = s.front :=
  congrArg Bystanders.front (bystanders_enter p s trigger how)

@[simp] theorem front_join (id : Nat) (how : Ending) : (s.join id how).front = s.front := by
  unfold join
  split
  · split <;> simp
  · rfl

@[simp] theorem front_endRefresh (id : Nat) (end_ : Answer) :
    (s.endRefresh p id end_).front = s.front := by
  unfold endRefresh
  rw [front_join, front_release]
  exact front_enter p (s.note end_.events) _ _

@[simp] theorem front_runRefresh (r : Refresher) (answer : Option Answer) :
    (s.runRefresh p r answer).front = s.front := by
  have launched : (s.launch r).front = s.front := by unfold launch; split <;> rfl
  rcases s.runRefresh_cases p r answer with ⟨-, same⟩ | ⟨end_, -, same⟩ <;> rw [same]
  · exact launched
  · exact (front_endRefresh p _ r.id end_).trans launched

@[simp] theorem front_runWatch (w : Watch) : (s.runWatch w).front = s.front := by
  unfold runWatch
  split
  · rfl
  split
  · simp
  split
  · rfl
  dsimp only
  split <;> simp

@[simp] theorem front_runClosing (c : Closing) : (s.runClosing c).front = s.front := by
  unfold runClosing
  split
  · rfl
  · exact front_giveUp _

theorem front_runs {p : Policy} {s u : State} {t : Task} {stops : Bool} {answer : Option Answer}
    (runs : s.Runs p stops answer t u) : u.front = s.front := by
  cases runs with
  | unknown => rfl
  | lookup l => exact front_runLookup p s l
  | refresh r => exact front_runRefresh p s r answer
  | schedule => exact congrArg Bystanders.front (bystanders_runSchedule p s stops answer)
  | watch w => exact front_runWatch s w
  | closing c => exact front_runClosing s c

@[simp] theorem front_abort (id : Nat) : (s.abort id).front = s.front := by
  rw [abort_eq]
  split
  · exact (front_giveUp _).trans (front_release _)
  · exact front_giveUp _

end State

/-! ### What a step does to the lookups -/

namespace State

/-- A lookup that is called gets the next number. -/
def newLookup (s : State) (kid : String) : Lookup := { id := s.nextId, kid, calledAt := s.now }

theorem lookups_call (s : State) (kid : String) :
    (s.call kid).lookups = s.lookups ++ [s.newLookup kid] := (keeps_wake _ _).lookups

end State

/-- **What a step does to the lookups**: one is called, or they stay as they are, or one of them
passes to another phase. -/
theorem lookups_step (sound : s.core.Sound p) (hs : step p s a = some u) :
    (∃ kid, a = .call kid ∧ u.lookups = s.lookups ++ [s.newLookup kid]) ∨
      u.lookups = s.lookups ∨
      ∃ l phase, s.lookup? l.id = some l ∧ Passage p s l a phase ∧
        u.lookups = (s.setPhase l.id phase).lookups := by
  have same (h : Keeps s u) : u.lookups = s.lookups := h.lookups
  cases step_eq_some_iff.1 hs with
  | call kid => exact .inl ⟨kid, rfl, s.lookups_call kid⟩
  | abort l known going =>
    exact .inr (.inr ⟨l, _, known, .aborted going, (s.keeps_abort l.id).lookups⟩)
  | watch => exact .inr (.inl (same ((State.keeps_wake _ _).after rfl rfl)))
  | close => exact .inr (.inl (same (State.keeps_close s)))
  | drop => exact .inr (.inl (same ((State.keeps_giveUp _).after rfl rfl)))
  | wake task => exact .inr (.inl (same (State.keeps_wake s task)))
  | advance time => exact .inr (.inl rfl)
  | note events => exact .inr (.inl rfl)
  | run task stops answer _ runs =>
    cases State.serves_runs (s := s.unwake task) sound runs with
    | idle => exact .inr (.inl rfl)
    | apart kept => exact .inr (.inl kept.lookups)
    | passes l phase known passes _ kept =>
      exact .inr (.inr ⟨l, phase, known, passes.congr rfl, kept.lookups⟩)

/-- What only callers change, after an action. -/
def Front.after (f : Front) : Action → Front
  | .call _ | .watch | .close => { f with nextId := f.nextId + 1 }
  | .drop => { f with owned := false }
  | _ => f

theorem front_step (hs : step p s a = some u) : u.front = s.front.after a := by
  cases step_eq_some_iff.1 hs with
  | call kid => exact State.front_wake _ _
  | watch => exact State.front_wake _ _
  | close =>
    have owned : s.cancel.owned = s.owned := congrArg Front.owned s.front_cancel
    unfold State.close
    dsimp only
    split
    · exact (State.front_runClosing _ _).trans (congrArg (Front.mk _) owned)
    · exact congrArg (Front.mk _) owned
  | drop => exact State.front_giveUp _
  | wake task => exact s.front_wake task
  | abort l => exact s.front_abort l.id
  | advance time => rfl
  | note events => rfl
  | run task _ _ _ runs => exact State.front_runs (s := s.unwake task) runs

theorem nextId_step (hs : step p s a = some u) : s.nextId ≤ u.nextId := by
  have given : u.nextId = (s.front.after a).nextId := congrArg Front.nextId (front_step hs)
  rw [given]
  cases a with
  | call | watch | close => exact Nat.le_succ _
  | _ => exact Nat.le_refl _

theorem owned_step (hs : step p s a = some u) (owned : u.owned = true) :
    s.owned = true ∧ a ≠ .drop := by
  have kept : u.owned = (s.front.after a).owned := congrArg Front.owned (front_step hs)
  rw [owned] at kept
  cases a with
  | drop => cases kept
  | _ => exact ⟨kept.symm, by simp⟩

theorem owned_of_reaches (further : Reaches p s as u) (owned : u.owned = true) :
    s.owned = true := by
  induction further with
  | refl => exact owned
  | tail _ last ih => exact ih (owned_step last owned).1

/-! ### Numbers -/

/-- No number is given twice. -/
structure State.Numbered (s : State) : Prop where
  /-- No two lookups have the same. -/
  once : (s.lookups.map (·.id)).Nodup
  /-- Those of the lookups are used up. -/
  given : ∀ l ∈ s.lookups, l.id < s.nextId

theorem State.ids_setPhase (s : State) (id : Nat) (phase : LookupPhase) :
    (s.setPhase id phase).lookups.map (·.id) = s.lookups.map (·.id) := by
  simp only [setPhase, List.map_map]
  congr 1
  funext l
  by_cases own : l.id = id <;> simp [own]

theorem numbered_step (sound : s.core.Sound p) (h : s.Numbered) (hs : step p s a = some u) :
    u.Numbered := by
  have later := nextId_step hs
  -- numbers that were used up stay so
  have kept (same : u.lookups.map (·.id) = s.lookups.map (·.id)) : u.Numbered := by
    refine ⟨same ▸ h.once, fun l hl => ?_⟩
    have mem : l.id ∈ s.lookups.map (·.id) := same ▸ List.mem_map_of_mem hl
    obtain ⟨l', hl', own⟩ := List.mem_map.1 mem
    have before := h.given l' hl'
    omega
  rcases lookups_step sound hs with ⟨kid, rfl, new⟩ | same | ⟨l, phase, -, -, moved⟩
  · have next : u.nextId = s.nextId + 1 := congrArg Front.nextId (front_step hs)
    refine ⟨?_, fun l hl => ?_⟩
    · rw [new, List.map_append, List.nodup_append]
      refine ⟨h.once, List.pairwise_singleton .., ?_⟩
      rintro i hi _ hj rfl
      obtain ⟨l, hl, rfl⟩ := List.mem_map.1 hi
      have own : l.id = s.nextId := by simpa [State.newLookup] using hj
      have before := h.given l hl
      omega
    · rw [new] at hl
      rcases List.mem_append.1 hl with hl | hl
      · have before := h.given l hl
        omega
      · rw [List.mem_singleton.1 hl, next]
        exact Nat.lt_succ_self _
  · exact kept (congrArg _ same)
  · exact kept ((congrArg _ moved).trans (s.ids_setPhase _ _))

theorem Reaches.numbered (run : Reaches p (.load p now events keys) as s) : s.Numbered := by
  induction run with
  | refl => exact ⟨.nil, nofun⟩
  | tail before last ih => exact numbered_step before.sound ih last

theorem State.Numbered.mem_lookups_iff (h : s.Numbered) :
    l ∈ s.lookups ↔ s.lookup? l.id = some l := by
  refine ⟨fun hl => ?_, List.mem_of_find?_eq_some⟩
  cases found : s.lookup? l.id with
  | none => simpa using List.find?_eq_none.1 found l hl
  | some l' =>
    have mem := List.mem_of_find?_eq_some found
    exact congrArg some (List.inj_on_of_nodup_map h.once mem hl (State.id_of_lookup? found))

theorem State.Numbered.lookup?_nextId (h : s.Numbered) : s.lookup? s.nextId = none := by
  cases found : s.lookup? s.nextId with
  | none => rfl
  | some l =>
    have given := h.given l (List.mem_of_find?_eq_some found)
    rw [State.id_of_lookup? found] at given
    exact absurd given (Nat.lt_irrefl _)

theorem State.Numbered.lookup?_call (h : s.Numbered) (kid : String) :
    (s.call kid).lookup? s.nextId = some (s.newLookup kid) := by
  rw [State.lookup?, State.lookups_call, List.find?_append,
    show s.lookups.find? (·.id == s.nextId) = none from h.lookup?_nextId]
  simp [State.newLookup]

/-! ### What a step does to one lookup -/

theorem Passage.going {phase : LookupPhase} (h : Passage p s l a phase) :
    l.phase.isOver = false := by
  cases h with
  | queued _ _ called => rw [called]; rfl
  | begun _ _ unguarded =>
    rcases unguarded with called | queued
    · rw [called]; rfl
    · rw [queued]; rfl
  | answered _ _ going => exact going
  | ended _ _ refreshing => rw [refreshing]; rfl
  | aborted going => exact going

/-- **A step leaves a lookup as it is, or takes it to another phase.** -/
theorem lookup?_step (sound : s.core.Sound p) (hs : step p s a = some u)
    (hl : s.lookup? id = some l) :
    u.lookup? id = some l ∨
      ∃ phase, Passage p s l a phase ∧ u.lookup? id = some { l with phase } := by
  rcases lookups_step sound hs with ⟨kid, -, new⟩ | same | ⟨l', phase, hl', passes, moved⟩
  · left
    rw [State.lookup?, new, List.find?_append]
    exact Option.or_eq_some_iff.2 (.inl hl)
  · left
    rw [State.lookup?, same]
    exact hl
  · have found : u.lookup? id = (s.setPhase l'.id phase).lookup? id := by
      rw [State.lookup?, moved]; rfl
    rw [found, State.lookup?_setPhase, hl]
    by_cases own : id = l'.id
    · subst own
      cases hl.symm.trans hl'
      exact .inr ⟨phase, passes, by simp⟩
    · exact .inl (by simp [own])

theorem lookup?_step_of_isOver (sound : s.core.Sound p) (hs : step p s a = some u)
    (hl : s.lookup? id = some l) (done : l.phase.isOver = true) : u.lookup? id = some l := by
  rcases lookup?_step sound hs hl with same | ⟨phase, passes, -⟩
  · exact same
  · rw [passes.going] at done
    cases done

/-- A lookup that is there after a step was just called or was there before. -/
theorem lookup?_origin (sound : s.core.Sound p) (hs : step p s a = some u)
    (hl : u.lookup? id = some l) :
    (∃ kid, a = .call kid ∧ id = s.nextId ∧ l = s.newLookup kid) ∨
      ∃ l₀, s.lookup? id = some l₀ ∧
        (l = l₀ ∨ ∃ phase, Passage p s l₀ a phase ∧ l = { l₀ with phase }) := by
  cases hl₀ : s.lookup? id with
  | some l₀ =>
    refine .inr ⟨l₀, rfl, ?_⟩
    rcases lookup?_step sound hs hl₀ with same | ⟨phase, passes, moved⟩
    · rw [hl] at same
      cases same
      exact .inl rfl
    · rw [hl] at moved
      cases moved
      exact .inr ⟨phase, passes, rfl⟩
  | none =>
    left
    rcases lookups_step sound hs with ⟨kid, called, new⟩ | same | ⟨l', phase, hl', -, moved⟩
    · rw [State.lookup?, new, List.find?_append, show s.lookups.find? (·.id == id) = none from hl₀,
        Option.none_or] at hl
      have own := List.mem_singleton.1 (List.mem_of_find?_eq_some hl)
      have number : l.id = id := by simpa using List.find?_some hl
      exact ⟨kid, called, by rw [← number, own]; rfl, own⟩
    · rw [State.lookup?, same] at hl
      cases hl₀.symm.trans hl
    · have found : u.lookup? id = (s.setPhase l'.id phase).lookup? id := by
        rw [State.lookup?, moved]; rfl
      rw [found, State.lookup?_setPhase, hl₀] at hl
      cases hl

/-- **A lookup stays, but for its phase.** -/
theorem lookup?_reaches {bs : List Action} (run : Reaches p (.load p now events keys) as s)
    (further : Reaches p s bs u) (hl : s.lookup? id = some l) :
    ∃ phase, u.lookup? id = some { l with phase } := by
  induction further with
  | refl => exact ⟨l.phase, hl⟩
  | tail before last ih =>
    obtain ⟨phase, found⟩ := ih
    rcases lookup?_step (run.trans before).sound last found with same | ⟨phase', -, moved⟩
    · exact ⟨phase, same⟩
    · exact ⟨phase', moved⟩

/-- **A lookup that is over stays as it is**, so its answer is final. -/
theorem lookup?_reaches_of_isOver {bs : List Action}
    (run : Reaches p (.load p now events keys) as s) (further : Reaches p s bs u)
    (hl : s.lookup? id = some l) (done : l.phase.isOver = true) : u.lookup? id = some l := by
  induction further with
  | refl => exact hl
  | tail before last ih => exact lookup?_step_of_isOver (run.trans before).sound last ih done

end BearerAuth.KeyCache
