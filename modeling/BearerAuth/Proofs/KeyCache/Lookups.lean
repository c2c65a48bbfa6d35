import BearerAuth.Proofs.KeyCache.Exclusion

/-!
# What becomes of lookups

A lookup moves when it runs, when it is given up, or when the refresh that it has begun ends.  All
other moves leave the lookups alone, and no move puts a task to sleep that was ready to run.

* `Keeps` is this frame condition, and `State.keeps_wake` and its like say which moves meet it;
* `Grounds` lists the reasons for which a lookup is answered, and `Passage` the ways in which an
  action takes a lookup from its phase to another;
* `Fate` lists all that a step can make of a lookup, and `stirs_step` says that a step does no more,
  and that who is ready to run stays so until it runs or is given up.
-/

namespace BearerAuth.KeyCache

variable {p : Policy} {s t u : State} {l : Lookup} {a : Action} {id : Nat} {phase : LookupPhase}

/-- No lookup moves between the states, and whatever is ready to run stays so. -/
structure Keeps (s u : State) : Prop where
  /-- The lookups are the same. -/
  lookups : u.lookups = s.lookups
  /-- Nobody is put to sleep. -/
  woken : ∀ t ∈ s.woken, t ∈ u.woken

namespace Keeps

theorem refl (s : State) : Keeps s s := ⟨rfl, fun _ ht => ht⟩

theorem trans (h : Keeps s t) (h' : Keeps t u) : Keeps s u :=
  ⟨h'.lookups.trans h.lookups, fun x hx => h'.woken x (h.woken x hx)⟩

theorem after (h : Keeps t u) (lookups : t.lookups = s.lookups) (woken : t.woken = s.woken) :
    Keeps s u :=
  ⟨h.lookups.trans lookups, fun x hx => h.woken x (woken ▸ hx)⟩

theorem of_eq (lookups : u.lookups = s.lookups) (woken : u.woken = s.woken) : Keeps s u :=
  ⟨lookups, fun _ ht => woken ▸ ht⟩

theorem lookup? (h : Keeps s u) (id : Nat) : u.lookup? id = s.lookup? id := by
  simp only [State.lookup?, h.lookups]

theorem setPhase (h : Keeps s u) (id : Nat) (phase : LookupPhase) :
    Keeps (s.setPhase id phase) (u.setPhase id phase) :=
  ⟨congrArg (List.map _) h.lookups, h.woken⟩

end Keeps

namespace State

/-! ### Moves that keep the lookups -/

variable (p) (s)

theorem keeps_note (events : List Event) : Keeps s (s.note events) := .of_eq rfl rfl

theorem keeps_wake (t : Task) : Keeps s (s.wake t) := by
  unfold wake
  split
  · exact .refl s
  · exact ⟨rfl, fun x hx => List.mem_append_left _ hx⟩

theorem mem_woken_wake (t : Task) : t ∈ (s.wake t).woken := by
  unfold wake
  split
  · rename_i ready; simpa using ready
  · exact List.mem_append_right _ (List.mem_singleton_self t)

theorem keeps_ask (t : Task) : Keeps s (s.ask t) := by
  unfold ask; split <;> exact .of_eq rfl rfl

theorem keeps_release : Keeps s s.release := by
  unfold release
  split
  · exact .of_eq rfl rfl
  · exact (keeps_wake _ _).after rfl rfl

theorem keeps_cancel : Keeps s s.cancel := by
  unfold cancel
  split
  · exact (keeps_wake _ _).after rfl rfl
  · exact .of_eq rfl rfl

theorem keeps_giveUp : Keeps s s.giveUp := by
  unfold giveUp
  split
  · exact .refl s
  · exact keeps_cancel s

theorem keeps_enter (trigger : Trigger) (how : FetchEnd) : Keeps s (s.enter p trigger how) := by
  cases how <;> exact .of_eq rfl rfl

theorem keeps_rest (due : Instant) : Keeps s (s.rest due) := by
  unfold rest
  split
  · exact ⟨rfl, fun x hx => List.mem_cons_of_mem _ hx⟩
  · exact .of_eq rfl rfl

theorem keeps_foldl_wake (closings : List Closing) :
    Keeps s (closings.foldl (fun s c => s.wake (.closing c.id)) s) := by
  induction closings generalizing s with
  | nil => exact .refl s
  | cons c rest ih => exact (keeps_wake s _).trans (ih _)

theorem keeps_endSchedule (how : Schedule) : Keeps s (s.endSchedule how) :=
  (keeps_foldl_wake { s with schedule := how } _).after rfl rfl

theorem keeps_endTick (next : Instant) (end_ : Answer) : Keeps s (s.endTick p next end_) := by
  have entered := (keeps_note s end_.events).trans (keeps_enter p _ .scheduled end_.outcome)
  unfold endTick
  dsimp only
  split
  · exact (entered.trans (keeps_release _)).trans (keeps_rest _ next)
  · exact ((entered.trans (keeps_note _ _)).trans (keeps_release _)).trans (keeps_rest _ next)
  · exact (entered.trans (keeps_release _)).trans (keeps_endSchedule _ .broken)

theorem keeps_runFetch (next started : Instant) (answer : Option Answer) :
    Keeps s (s.runFetch p next started answer) := by
  unfold runFetch
  split
  · exact keeps_endTick p s next _
  · exact .refl s

theorem keeps_handle (next : Instant) (answer : Option Answer) :
    Keeps s (s.handle p next answer) := by
  unfold handle
  split
  · exact ((keeps_note s _).trans (keeps_release _)).trans (keeps_rest _ next)
  · exact (keeps_runFetch p _ next s.now answer).after rfl rfl

theorem keeps_tick (due : Instant) (answer : Option Answer) : Keeps s (s.tick p due answer) := by
  have queued : Keeps s ({ s with schedule := .queued (s.nextTick p due) }.ask .schedule) :=
    (keeps_ask _ _).after rfl rfl
  unfold tick
  dsimp only
  split
  · exact queued.trans (keeps_handle p _ _ answer)
  · exact queued

theorem keeps_runSchedule (stops : Bool) (answer : Option Answer) :
    Keeps s (s.runSchedule p stops answer) := by
  unfold runSchedule
  split
  · exact keeps_rest s _
  · split
    · exact (keeps_note s _).trans (keeps_endSchedule _ _)
    · split
      · exact keeps_tick p s _ answer
      · exact .refl s
  · split
    · exact keeps_handle p s _ answer
    · exact .refl s
  · exact keeps_runFetch p s _ _ answer
  · exact .refl s

theorem keeps_runWatch (w : Watch) : Keeps s (s.runWatch w) := by
  have glance (s : State) : Keeps s (s.disclose w.id).release.giveUp :=
    ((keeps_release (s.disclose w.id)).trans (keeps_giveUp _)).after rfl rfl
  unfold runWatch
  split
  · exact .refl s
  split
  · exact glance s
  split
  · exact .refl s
  dsimp only
  split
  · exact (keeps_ask s _).trans (glance _)
  · exact keeps_ask s _

theorem keeps_runClosing (c : Closing) : Keeps s (s.runClosing c) := by
  unfold runClosing
  split
  · exact .refl s
  · exact (keeps_giveUp _).after rfl rfl

theorem keeps_close : Keeps s s.close := by
  unfold close
  dsimp only
  split
  · exact (keeps_cancel s).trans ((keeps_runClosing _ _).after rfl rfl)
  · exact (keeps_cancel s).trans (Keeps.of_eq rfl rfl)

/-! ### Lookups that run -/

theorem lookup?_setPhase (id i : Nat) (phase : LookupPhase) :
    (s.setPhase id phase).lookup? i =
      (s.lookup? i).map fun l => if i = id then { l with phase } else l := by
  simp only [setPhase, lookup?, List.find?_map]
  -- a lookup keeps its number, so that the search stops at the same place
  have same : ((fun l : Lookup => l.id == i) ∘ fun l => if l.id = id then { l with phase } else l) =
      fun l => l.id == i := by
    funext l
    by_cases h : l.id = id <;> simp [h]
  rw [same]
  cases found : s.lookups.find? (·.id == i) with
  | none => rfl
  | some l =>
    have : l.id = i := by simpa using List.find?_some found
    simp [this]

theorem setPhase_setPhase (id : Nat) (phase phase' : LookupPhase) :
    (s.setPhase id phase).setPhase id phase' = s.setPhase id phase' := by
  simp only [setPhase, List.map_map]
  congr 2
  funext l
  by_cases own : l.id = id <;> simp [own]

theorem id_of_lookup? {s : State} (h : s.lookup? id = some l) : l.id = id := by
  simpa using List.find?_some h

/-- A lookup found after another was moved is that one or was there before. -/
theorem lookup?_setPhase_cases {s u : State} {i : Nat}
    (moved : u.lookups = (s.setPhase id phase).lookups) (h : u.lookup? i = some l) :
    i ≠ id ∧ s.lookup? i = some l ∨
      i = id ∧ ∃ l', s.lookup? i = some l' ∧ l = { l' with phase } := by
  have found : u.lookup? i = (s.setPhase id phase).lookup? i := by simp only [lookup?, moved]
  rw [found, lookup?_setPhase] at h
  obtain ⟨l', hl', rfl⟩ := Option.map_eq_some_iff.1 h
  by_cases same : i = id
  · exact .inr ⟨same, l', hl', by simp [same]⟩
  · exact .inl ⟨same, by simpa [same] using hl'⟩

/-- What the keys in use say about the key of a lookup. -/
def conclusion (l : Lookup) : LookupPhase :=
  match s.keys.get? l.kid with
  | some key => .found key
  | none => .failed (.unknownKey l.kid)

end State

variable (p s) in
/-- Why a lookup can be answered. -/
inductive Grounds (l : Lookup) : Prop where
  /-- The key is there. -/
  | found (there : (s.keys.get? l.kid).isSome = true)
  /-- The source never changes. -/
  | fixed (polling : p.polling = false)
  /-- An attempt was completed so recently that there cannot be another. -/
  | limited (limited : s.limited p = true)
  /-- The refresh that it has begun is over. -/
  | joined (how : Ending) (joined : l.phase = .joined how)

/-- The grounds depend on the keys in use, the record and the clock. -/
theorem Grounds.congr (h : Grounds p t l) (keys : t.keys = s.keys) (ledger : t.ledger = s.ledger)
    (now : t.now = s.now) : Grounds p s l := by
  cases h with
  | found there => exact .found (keys ▸ there)
  | fixed polling => exact .fixed polling
  | limited limited => exact .limited (by rwa [State.limited, ledger, now] at limited)
  | joined how joined => exact .joined how joined

variable (p s) in
/-- Where a lookup gets to when it runs. -/
inductive Moves (l : Lookup) : LookupPhase → Prop where
  /-- It waits for the guard. -/
  | queued : Moves l .queued
  /-- It waits for the refresh that it has begun. -/
  | refreshing : Moves l .refreshing
  /-- It is answered with what the keys in use say. -/
  | answer (grounds : Grounds p s l) : Moves l (s.conclusion l)

variable (p s) in
/-- How an action takes a lookup from its phase to another. -/
inductive Passage (l : Lookup) : Action → LookupPhase → Prop where
  /-- Just called, it misses its key while the guard is in other hands. -/
  | queued (stops : Bool) (answer : Option Answer) (called : l.phase = .called)
    (missing : s.keys.get? l.kid = none) (polling : p.polling = true)
    (held : s.holder.isSome = true) : Passage l (.run (.lookup l.id) stops answer) .queued
  /-- It misses its key with the guard in hand, or called while the guard is free, and begins a
  refresh. -/
  | begun (stops : Bool) (answer : Option Answer)
    (unguarded : l.phase = .called ∨ l.phase = .queued)
    (hand : l.phase = .called ∧ s.holder = none ∨ s.holder = some (.lookup l.id))
    (missing : s.keys.get? l.kid = none) (polling : l.phase = .called → p.polling = true)
    (allowed : s.limited p = false) : Passage l (.run (.lookup l.id) stops answer) .refreshing
  /-- It is answered with what the keys in use say. -/
  | answered (stops : Bool) (answer : Option Answer) (going : l.phase.isOver = false)
    (grounds : Grounds p s l) : Passage l (.run (.lookup l.id) stops answer) (s.conclusion l)
  /-- The refresh that it has begun ends. -/
  | ended (stops : Bool) (answer : Option Answer) (refreshing : l.phase = .refreshing) :
    Passage l (.run (.refresh l.id) stops answer) (.joined (p.outcome answer).ending)
  /-- It is given up. -/
  | aborted (going : l.phase.isOver = false) : Passage l (.abort l.id) .aborted

/-- A lookup that gets nowhere by running: it waits for the guard or for its refresh, or it is
over. -/
def State.Sits (s : State) (l : Lookup) : Prop :=
  l.phase = .queued ∧ s.holder ≠ some (.lookup l.id) ∨ l.phase = .refreshing ∨
    l.phase.isOver = true

/-- A lookup that has just got to a phase will be heard of: it stands in the queue, or its refresh
has taken the guard over, or it is ready to run. -/
def State.Awaits (s : State) (id : Nat) : LookupPhase → Prop
  | .queued => .lookup id ∈ s.queue
  | .refreshing => s.holder = some (.refresh id)
  | .called | .joined _ => .lookup id ∈ s.woken
  | _ => True

theorem State.Sits.ne_joined (h : s.Sits l) (how : Ending) : l.phase ≠ .joined how := by
  rintro joined
  rcases h with ⟨queued, -⟩ | refreshing | done
  · rw [joined] at queued; cases queued
  · rw [joined] at refreshing; cases refreshing
  · rw [joined] at done; cases done

theorem Passage.congr (h : Passage p t l a phase) (core : t.core = s.core) :
    Passage p s l a phase := by
  have keys : t.keys = s.keys := congrArg Core.keys core
  have ledger : t.ledger = s.ledger := congrArg Core.ledger core
  have now : t.now = s.now := congrArg Core.now core
  have holder : t.holder = s.holder := congrArg Core.holder core
  cases h with
  | queued stops answer called missing polling held =>
    exact .queued stops answer called (keys ▸ missing) polling (holder ▸ held)
  | begun stops answer unguarded hand missing polling allowed =>
    rw [State.limited, ledger, now] at allowed
    exact .begun stops answer unguarded (holder ▸ hand) (keys ▸ missing) polling allowed
  | answered stops answer going grounds =>
    have same : t.conclusion l = s.conclusion l := by rw [State.conclusion, keys]; rfl
    rw [same]
    exact .answered stops answer going (grounds.congr keys ledger now)
  | ended stops answer refreshing => exact .ended stops answer refreshing
  | aborted going => exact .aborted going

/-- A lookup passes on by its own task or by the refresh that it has begun. -/
theorem Passage.own {task : Task} {stops : Bool} {answer : Option Answer}
    (h : Passage p s l (.run task stops answer) phase)
    (named : task = .lookup id ∨ task = .refresh id) : id = l.id := by
  rcases named with rfl | rfl <;> cases h <;> rfl

/-- A lookup passes on by running, or by the end of the refresh that it has begun. -/
theorem Passage.task_cases {task : Task} {stops : Bool} {answer : Option Answer}
    (h : Passage p s l (.run task stops answer) phase) :
    task = .lookup l.id ∨
      task = .refresh l.id ∧ phase = .joined (p.outcome answer).ending := by
  cases h with
  | queued | begun | answered => exact .inl rfl
  | ended => exact .inr ⟨rfl, rfl⟩

theorem Passage.moves {stops : Bool} {answer : Option Answer}
    (h : Passage p s l (.run (.lookup id) stops answer) phase) : Moves p s l phase := by
  cases h with
  | queued => exact .queued
  | begun => exact .refreshing
  | answered _ _ _ grounds => exact .answer grounds

namespace State

theorem keeps_conclude (s : State) (l : Lookup) :
    Keeps (s.setPhase l.id (s.conclusion l)) (s.conclude l) := by
  unfold conclude conclusion
  cases s.keys.get? l.kid <;> exact keeps_giveUp _

/-- A lookup that hands the guard on is answered as before. -/
theorem keeps_release_conclude (s : State) (l : Lookup) :
    Keeps (s.setPhase l.id (s.conclusion l)) (s.release.conclude l) := by
  have keys : s.release.keys = s.keys := congrArg Core.keys (core_release s)
  have same : s.release.conclusion l = s.conclusion l := by rw [conclusion, keys]; rfl
  exact same ▸ ((keeps_release s).setPhase _ _).trans (keeps_conclude _ l)

theorem awaits_conclusion (s u : State) (l : Lookup) : u.Awaits l.id (s.conclusion l) := by
  unfold conclusion
  split <;> trivial

theorem inspect_cases (p : Policy) (s : State) (l : Lookup) :
    (Grounds p s l ∧ Keeps (s.setPhase l.id (s.conclusion l)) (s.inspect p l)) ∨
      s.keys.get? l.kid = none ∧ s.limited p = false ∧
        (s.inspect p l).Awaits l.id .refreshing ∧
        Keeps (s.setPhase l.id .refreshing) (s.inspect p l) := by
  unfold inspect
  split
  · rename_i there
    exact .inl ⟨.found there, keeps_release_conclude s l⟩
  rename_i missing
  split
  · rename_i limited
    exact .inl ⟨.limited limited, (keeps_release_conclude (s.note _) l).after rfl rfl⟩
  · rename_i allowed
    exact .inr ⟨by simpa using missing, by simpa using allowed,
      congrArg Core.holder (core_wake _ _), (keeps_wake _ _).after rfl rfl⟩

theorem passage_inspect {n : State} (unguarded : l.phase = .called ∨ l.phase = .queued)
    (hand : l.phase = .called ∧ s.holder = none ∨ s.holder = some (.lookup l.id))
    (polling : l.phase = .called → p.polling = true)
    (core : n.core = { s.core with holder := some (.lookup l.id) }) (stops : Bool)
    (answer : Option Answer) :
    ∃ phase, Passage p s l (.run (.lookup l.id) stops answer) phase ∧
      (n.inspect p l).Awaits l.id phase ∧ Keeps (n.setPhase l.id phase) (n.inspect p l) := by
  have keys : n.keys = s.keys := congrArg Core.keys core
  have ledger : n.ledger = s.ledger := congrArg Core.ledger core
  have now : n.now = s.now := congrArg Core.now core
  rcases inspect_cases p n l with ⟨grounds, kept⟩ | ⟨missing, allowed, awaits, kept⟩
  · have same : n.conclusion l = s.conclusion l := by rw [conclusion, keys]; rfl
    have going : l.phase.isOver = false := by
      rcases unguarded with phase | phase <;> rw [phase] <;> rfl
    rw [same] at kept
    exact ⟨_, .answered stops answer going (grounds.congr keys ledger now),
      awaits_conclusion _ _ l, kept⟩
  · rw [limited, ledger, now] at allowed
    exact ⟨_, .begun stops answer unguarded hand (keys ▸ missing) polling allowed, awaits, kept⟩

theorem mem_queue_ask (s : State) (t : Task) (off : (s.ask t).holder ≠ some t) :
    t ∈ (s.ask t).queue := by
  unfold ask at off ⊢
  split at off
  · exact absurd rfl off
  · rename_i held
    rw [if_neg held]
    exact List.mem_append_right _ (List.mem_singleton_self _)

theorem passage_miss (s : State) (l : Lookup) (called : l.phase = .called)
    (missing : s.keys.get? l.kid = none) (polling : p.polling = true) (stops : Bool)
    (answer : Option Answer) :
    ∃ phase, Passage p s l (.run (.lookup l.id) stops answer) phase ∧
      (s.miss p l).Awaits l.id phase ∧ Keeps (s.setPhase l.id phase) (s.miss p l) := by
  have asked := keeps_ask (s.setPhase l.id .queued) (.lookup l.id)
  have waits := mem_queue_ask (s.setPhase l.id .queued) (.lookup l.id)
  have core := core_ask (s.setPhase l.id .queued) (.lookup l.id)
  unfold miss
  dsimp only
  generalize (s.setPhase l.id .queued).ask (.lookup l.id) = n at *
  have holder : n.holder = s.holder.or (some (.lookup l.id)) := congrArg Core.holder core
  split
  · rename_i holds
    rw [holds] at holder
    have hand : l.phase = .called ∧ s.holder = none ∨ s.holder = some (.lookup l.id) := by
      rcases Option.or_eq_some_iff.1 holder.symm with before | ⟨free, -⟩
      · exact .inr before
      · exact .inl ⟨called, free⟩
    have core : n.core = { s.core with holder := some (.lookup l.id) } := holder ▸ core
    obtain ⟨phase, passes, awaits, kept⟩ :=
      passage_inspect (.inl called) hand (fun _ => polling) core stops answer
    -- that the lookup was queued is forgotten when it moves on
    have moved := asked.setPhase l.id phase
    rw [setPhase_setPhase] at moved
    exact ⟨phase, passes, awaits, moved.trans kept⟩
  · rename_i off
    have held : s.holder.isSome = true := by
      cases free : s.holder with
      | none => rw [holder, free] at off; exact absurd rfl off
      | some => rfl
    exact ⟨_, .queued stops answer called missing polling held, waits off, asked⟩

theorem passage_runLookup (s : State) (l : Lookup) (stops : Bool) (answer : Option Answer) :
    (s.Sits l ∧ s.runLookup p l = s) ∨
      ∃ phase, Passage p s l (.run (.lookup l.id) stops answer) phase ∧
        (s.runLookup p l).Awaits l.id phase ∧
        Keeps (s.setPhase l.id phase) (s.runLookup p l) := by
  unfold runLookup
  split
  · rename_i called
    have going : l.phase.isOver = false := by rw [called]; rfl
    split
    · rename_i there
      exact .inr ⟨_, .answered stops answer going (.found there), awaits_conclusion _ _ l,
        keeps_conclude s l⟩
    rename_i missing
    split
    · rename_i polling
      exact .inr (passage_miss s l called (by simpa using missing) polling stops answer)
    · rename_i fixed
      exact .inr ⟨_, .answered stops answer going (.fixed (by simpa using fixed)),
        awaits_conclusion _ _ l, (keeps_conclude (s.note _) l).after rfl rfl⟩
  · rename_i queued
    split
    · rename_i holds
      refine .inr (passage_inspect (.inr queued) (.inr holds) ?_ ?_ stops answer)
      · rw [queued]
        nofun
      · rw [← holds]
        rfl
    · rename_i off
      exact .inl ⟨.inl ⟨queued, off⟩, rfl⟩
  · rename_i how joined
    have going : l.phase.isOver = false := by rw [joined]; rfl
    exact .inr ⟨_, .answered stops answer going (.joined how joined), awaits_conclusion _ _ l,
      (keeps_conclude (s.note _) l).after rfl rfl⟩
  · rename_i called queued joined
    refine .inl ⟨.inr ?_, rfl⟩
    cases phase : l.phase with
    | called => exact absurd phase called
    | queued => exact absurd phase queued
    | refreshing => exact .inl rfl
    | joined how => exact absurd phase (joined how)
    | found | failed | aborted => exact .inr rfl

/-! ### Refreshes that end -/

/-- A lookup is told of the end of its refresh exactly if it waits for it. -/
theorem keeps_join (s : State) (id : Nat) (how : Ending) :
    (∀ l, s.lookup? id = some l → l.phase ≠ .refreshing) ∧ Keeps s (s.join id how) ∨
      (∃ l, s.lookup? id = some l ∧ l.phase = .refreshing) ∧
        (s.join id how).Awaits id (.joined how) ∧
        Keeps (s.setPhase id (.joined how)) (s.join id how) := by
  unfold join
  split
  · rename_i l hl
    split
    · rename_i refreshing
      exact .inr ⟨⟨l, hl, refreshing⟩, mem_woken_wake _ _, keeps_wake _ _⟩
    · rename_i other
      refine .inl ⟨?_, .refl s⟩
      intro l' hl'
      cases hl.symm.trans hl'
      exact other
  · rename_i absent
    refine .inl ⟨?_, .refl s⟩
    intro l' hl'
    cases absent.symm.trans hl'

theorem keeps_launch (s : State) (r : Refresher) : Keeps s (s.launch r) := by
  unfold launch; split <;> exact .of_eq rfl rfl

theorem holder_launch (s : State) (r : Refresher) : (s.launch r).holder = s.holder := by
  unfold launch; split <;> rfl

theorem keeps_endRefresh (s : State) (id : Nat) (end_ : Answer) :
    (∀ l, s.lookup? id = some l → l.phase ≠ .refreshing) ∧ Keeps s (s.endRefresh p id end_) ∨
      (∃ l, s.lookup? id = some l ∧ l.phase = .refreshing) ∧
        (s.endRefresh p id end_).Awaits id (.joined end_.outcome.ending) ∧
        Keeps (s.setPhase id (.joined end_.outcome.ending)) (s.endRefresh p id end_) := by
  have entered := (keeps_note s end_.events).trans (keeps_enter p _ .unknownKey end_.outcome)
  have released {s' : State} (h : Keeps s s') (refreshers : List Refresher) :
      Keeps s { s' with refreshers }.release :=
    h.trans ((keeps_release _).after rfl rfl)
  unfold endRefresh
  dsimp only
  rcases keeps_join _ id end_.outcome.ending with ⟨other, same⟩ | ⟨waits, ready, moved⟩
  · rw [(released entered _).lookup?] at other
    exact .inl ⟨other, (released entered _).trans same⟩
  · rw [(released entered _).lookup?] at waits
    exact .inr ⟨waits, ready, ((released entered _).setPhase _ _).trans moved⟩

/-- A refresh that runs goes on with the guard in hand, or its fetch ends; then it moves the lookup
that has begun it, if that waits for it. -/
theorem keeps_runRefresh (s : State) (r : Refresher) (answer : Option Answer) :
    ((∀ l, s.lookup? r.id = some l → l.phase = .refreshing →
        (s.runRefresh p r answer).holder = s.holder) ∧ Keeps s (s.runRefresh p r answer)) ∨
      (s.fetchEnd? p (r.started.getD s.now) answer).isSome = true ∧
        (∃ l, s.lookup? r.id = some l ∧ l.phase = .refreshing) ∧
        (s.runRefresh p r answer).Awaits r.id (.joined (p.outcome answer).ending) ∧
        Keeps (s.setPhase r.id (.joined (p.outcome answer).ending)) (s.runRefresh p r answer) := by
  have launched := keeps_launch s r
  rcases s.runRefresh_cases p r answer with ⟨-, same⟩ | ⟨end_, found, same⟩ <;> rw [same]
  · exact .inl ⟨fun _ _ _ => holder_launch s r, launched⟩
  · rw [found, ← fetchEnd?_outcome found]
    rcases keeps_endRefresh (s.launch r) r.id end_ with ⟨other, kept⟩ | ⟨waits, ready, moved⟩
    · rw [launched.lookup?] at other
      exact .inl ⟨fun l hl refreshing => absurd refreshing (other l hl), launched.trans kept⟩
    · rw [launched.lookup?] at waits
      exact .inr ⟨rfl, waits, ready, (launched.setPhase _ _).trans moved⟩

variable (p s) in
/-- What a task that runs does for the lookups. -/
inductive Serves (stops : Bool) (answer : Option Answer) : Task → State → Prop where
  /-- It does nothing at all.  If it is a lookup, that sits where it is. -/
  | idle (t : Task) (sits : ∀ id l, t = .lookup id → s.lookup? id = some l → s.Sits l) :
    Serves stops answer t s
  /-- It leaves them as they are.  If it is the refresh that one of them waits for, the guard stays
  where it is. -/
  | apart {t : Task} {u : State} (kept : Keeps s u) (other : ∀ id, t ≠ .lookup id)
    (holder : ∀ id l, t = .refresh id → s.lookup? id = some l → l.phase = .refreshing →
      u.holder = s.holder) : Serves stops answer t u
  /-- One of them passes to another phase.  If it is a refresh, its end can be seen. -/
  | passes {t : Task} {u : State} (l : Lookup) (phase : LookupPhase)
    (known : s.lookup? l.id = some l) (passes : Passage p s l (.run t stops answer) phase)
    (awaits : u.Awaits l.id phase) (kept : Keeps (s.setPhase l.id phase) u)
    (seen : ∀ id, t = .refresh id →
      .ended t s.now (p.outcome answer) ∈ observe p s (.run t stops answer) u) :
    Serves stops answer t u

/-- **What a task that runs does for the lookups**: at most one of them passes on. -/
theorem serves_runs {task : Task} {stops : Bool} {answer : Option Answer} (sound : s.core.Sound p)
    (runs : s.Runs p stops answer task u) : s.Serves p stops answer task u := by
  cases runs with
  | unknown _ unknown =>
    refine .idle task ?_
    rintro id l rfl known
    exact absurd (Option.isSome_of_eq_some known) unknown
  | lookup l known =>
    rcases passage_runLookup (p := p) s l stops answer with
      ⟨sits, still⟩ | ⟨phase, passes, awaits, kept⟩
    · rw [still]
      refine .idle _ ?_
      rintro id l' ⟨⟩ known'
      cases known.symm.trans known'
      exact sits
    · exact .passes l phase known passes awaits kept nofun
  | refresh r known =>
    obtain ⟨-, marks, turn, seen⟩ := turn_runRefresh sound known
    rcases keeps_runRefresh (p := p) s r answer with
      ⟨holder, kept⟩ | ⟨ended, ⟨l, waits, refreshing⟩, awaits, kept⟩
    · refine .apart kept nofun ?_
      rintro id l ⟨⟩ waits
      exact holder l waits
    · have own := id_of_lookup? waits
      rw [← own] at waits awaits kept turn seen ⊢
      refine .passes l _ waits (.ended stops answer refreshing) awaits kept fun _ _ => ?_
      exact (turn.observe_run stops).symm ▸ seen ended
  | schedule => exact .apart (keeps_runSchedule p s stops answer) nofun nofun
  | watch w => exact .apart (keeps_runWatch s w) nofun nofun
  | closing c => exact .apart (keeps_runClosing s c) nofun nofun

/-! ### Lookups that are given up -/

theorem keeps_abort (s : State) (id : Nat) :
    Keeps ((s.retire (.lookup id)).setPhase id .aborted) (s.abort id) := by
  rw [abort_eq]
  split
  · exact ((keeps_release _).setPhase id _).trans (keeps_giveUp _)
  · exact keeps_giveUp _

end State

/-! ### Steps -/

/-- The task that an action runs or gives up. -/
def Action.subject? : Action → Option Task
  | .run task _ _ => some task
  | .abort id => some (.lookup id)
  | _ => none

variable (p s u a) in
/-- What a step can make of a lookup. -/
inductive Fate (id : Nat) (l : Lookup) : Prop where
  /-- Nothing; if it runs, its refresh is not over. -/
  | same (before : s.lookup? id = some l)
    (idle : a.subject? = some (.lookup id) → ∀ how, l.phase ≠ .joined how)
  /-- It is called. -/
  | called (called : l.phase = .called)
  /-- It is given up. -/
  | aborted (aborted : l.phase = .aborted)
  /-- The refresh that it has begun ends. -/
  | joined (stops : Bool) (answer : Option Answer) (run : a = .run (.refresh id) stops answer)
    (joined : l.phase = .joined (p.outcome answer).ending) (ready : .lookup id ∈ u.woken)
    (seen : .ended (.refresh id) s.now (p.outcome answer) ∈ observe p s a u)
  /-- It runs. -/
  | moved (stops : Bool) (answer : Option Answer) (run : a = .run (.lookup id) stops answer)
    (l' : Lookup) (before : s.lookup? id = some l') (phase : LookupPhase)
    (moves : Moves p s l' phase) (moved : l = { l' with phase })

variable (p s u a) in
/-- What a step does to the lookups and to those that are ready to run. -/
structure Stirs : Prop where
  /-- What it makes of a lookup. -/
  fate : ∀ {id l}, u.lookup? id = some l → Fate p s u a id l
  /-- Whatever is ready to run stays so, unless the action runs it or gives it up. -/
  rouses : ∀ t ∈ s.woken, t ∈ u.woken ∨ a.subject? = some t

theorem Keeps.stirs (h : Keeps s u) (nobody : a.subject? = none) : Stirs p s u a where
  fate := by
    intro id l hl
    have before : s.lookup? id = some l := by simpa only [State.lookup?, h.lookups] using hl
    exact .same before fun somebody => by rw [nobody] at somebody; cases somebody
  rouses := fun t ht => .inl (h.woken t ht)

/-- Who is left out is no longer ready, unless it is woken again. -/
theorem rouses_of_filter {task : Task} (subject : a.subject? = some task)
    (h : ∀ t ∈ s.woken.filter (· != task), t ∈ u.woken) :
    ∀ t ∈ s.woken, t ∈ u.woken ∨ a.subject? = some t := by
  intro t ht
  by_cases same : t = task
  · exact .inr (same ▸ subject)
  · exact .inl (h t (List.mem_filter.2 ⟨ht, by simpa using same⟩))

theorem Keeps.stirs_run {task : Task} {stops : Bool} {answer : Option Answer}
    (h : Keeps (s.unwake task) u)
    (idle : ∀ id l how, task = .lookup id → s.lookup? id = some l → l.phase ≠ .joined how) :
    Stirs p s u (.run task stops answer) where
  fate := by
    intro id l hl
    have before : s.lookup? id = some l := (h.lookup? id).symm.trans hl
    refine .same before ?_
    rintro ⟨⟩ how
    exact idle id l how rfl before
  rouses := rouses_of_filter rfl h.woken

theorem stirs_runs {task : Task} {stops : Bool} {answer : Option Answer} (sound : s.core.Sound p)
    (runs : (s.unwake task).Runs p stops answer task u) :
    Stirs p s u (.run task stops answer) := by
  cases State.serves_runs (s := s.unwake task) sound runs with
  | idle sits =>
    refine Keeps.stirs_run (.refl _) ?_
    rintro id l how rfl hl
    exact (sits id l rfl hl).ne_joined how
  | apart kept other =>
    refine kept.stirs_run ?_
    rintro id _ _ rfl
    exact absurd rfl (other id)
  | passes l phase known passes awaits kept seen =>
    refine ⟨fun {i l'} hl' => ?_, rouses_of_filter rfl kept.woken⟩
    rcases State.lookup?_setPhase_cases kept.lookups hl' with
      ⟨other, before⟩ | ⟨rfl, l₀, before, rfl⟩
    · refine .same before ?_
      rintro ⟨⟩
      exact absurd (passes.own (.inl rfl)) other
    · cases known.symm.trans before
      rcases passes.task_cases with rfl | ⟨rfl, rfl⟩
      · exact .moved stops answer rfl l known phase (passes.congr (s := s) rfl).moves rfl
      · exact .joined stops answer rfl rfl awaits (seen _ rfl)

theorem stirs_abort (s : State) (id : Nat) : Stirs p s (s.abort id) (.abort id) := by
  have kept := s.keeps_abort id
  constructor
  · intro i l hl
    rcases State.lookup?_setPhase_cases kept.lookups hl with ⟨other, before⟩ | ⟨-, -, -, rfl⟩
    · refine .same before ?_
      rintro ⟨⟩
      exact absurd rfl other
    · exact .aborted rfl
  · exact rouses_of_filter rfl kept.woken

theorem stirs_call (s : State) (kid : String) : Stirs p s (s.call kid) (.call kid) := by
  generalize hl' : (⟨s.nextId, kid, s.now, .called⟩ : Lookup) = l'
  have kept : Keeps { s with lookups := s.lookups ++ [l'] } (s.call kid) := by
    subst hl'
    exact (State.keeps_wake _ _).after rfl rfl
  refine ⟨fun {id l} hl => ?_, fun t ht => .inl (kept.woken t ht)⟩
  simp only [State.lookup?, kept.lookups, List.find?_append] at hl
  rcases Option.or_eq_some_iff.1 hl with before | ⟨-, new⟩
  · exact .same before fun subject => by cases subject
  · have : l = l' := by simpa using List.mem_of_find?_eq_some new
    rw [this, ← hl']
    exact .called rfl

/-- **A step does no more to the lookups**, and keeps ready whom it neither runs nor gives up. -/
theorem stirs_step (sound : s.core.Sound p) (hs : step p s a = some u) : Stirs p s u a := by
  cases step_eq_some_iff.1 hs with
  | call kid => exact stirs_call s kid
  | abort l => exact stirs_abort s l.id
  | watch => exact Keeps.stirs ((State.keeps_wake _ _).after rfl rfl) rfl
  | close => exact (State.keeps_close s).stirs rfl
  | drop => exact Keeps.stirs ((State.keeps_giveUp _).after rfl rfl) rfl
  | wake task => exact (State.keeps_wake s task).stirs rfl
  | advance time => exact Keeps.stirs (.of_eq rfl rfl) rfl
  | note events => exact (State.keeps_note s events).stirs rfl
  | run task stops answer _ runs => exact stirs_runs sound runs

end BearerAuth.KeyCache
