import BearerAuth.Proofs.KeyCache.Exclusion

/-!
# The rate limit over whole runs

Whatever is looked up, given up or scheduled, in whatever order, and whatever becomes of the
fetches: a fetch starts no sooner after the last completed attempt than the rate limit allows.

* `Reaches.chronicle` : what every turn keeps relates the history of a run to its last core;
* `lastCompleted?_history` : the last attempt on record is the last one that was seen;
* `countP_isStart_history` : the source counts the fetches that were seen;
* `starts_spaced` : the rate limit over whole runs.

The proof: whatever is seen in a turn was allowed by the record at its instant, or, for the end of
a fetch, at the earlier instant at which the fetch started.  Every completed attempt of the history
is bounded by the last one on record, so what is seen next is late enough for all of them.
-/

namespace BearerAuth.KeyCache

open BearerAuth.KeyCache.Core

variable {p : Policy} {s : State} {as : List Action} {now : Instant} {events : List Event}
  {keys : KeySet}

/-! ### Histories and cores -/

/-- Along a run from the first load the core stays sound, and whatever holds of nothing seen and is
kept while time passes and by every turn holds of all that was seen. -/
theorem Reaches.chronicle {P : List Mark → Core → Prop}
    (run : Reaches p (.load p now events keys) as s)
    (start : P [] (State.load p now events keys).core)
    (pass : ∀ {marks c} time, c.now ≤ time → P marks c → P marks { c with now := time })
    (turn : ∀ {marks new c d task how}, c.Sound p → Turn p task how c new d → P marks c →
      P (marks ++ new) d) :
    s.core.Sound p ∧ P (history p (.load p now events keys) as) s.core := by
  induction run with
  | refl => exact ⟨sound_load now events keys, start⟩
  | tail before last ih =>
    obtain ⟨sound, holds⟩ := ih
    rw [history_snoc before last]
    obtain ⟨sound', ⟨time, rfl, later, -, rfl⟩ | ⟨task, how, turned⟩⟩ := turn_step sound last
    · rw [show observe p _ (.advance time) _ = [] from rfl, List.append_nil]
      exact ⟨sound', pass time later holds⟩
    · exact ⟨sound', turn sound turned holds⟩

theorem Reaches.sound (run : Reaches p (.load p now events keys) as s) : s.core.Sound p :=
  (run.chronicle (P := fun _ _ => True) trivial (fun _ _ _ => trivial) fun _ _ _ => trivial).1

/-! ### Attempts -/

theorem lastCompleted?_append (marks new : List Mark) :
    lastCompleted? (marks ++ new) = (lastCompleted? new).or (lastCompleted? marks) := by
  simp only [lastCompleted?, List.filterMap_append, List.getLast?_append]

theorem lastCompleted?_started (task : Task) (time : Instant) (marks : List Mark) :
    lastCompleted? (.started task time :: marks) = lastCompleted? marks := rfl

theorem lastCompleted?_ended (task : Task) (time : Instant) (how : FetchEnd) :
    lastCompleted? [.ended task time how] = if how = .crashed then none else some time := by
  cases how <;> rfl

theorem mem_of_lastCompleted? {marks : List Mark} {t : Instant}
    (h : lastCompleted? marks = some t) : ∃ m ∈ marks, m.completed? = some t :=
  List.mem_filterMap.1 (List.mem_of_getLast? h)

theorem lastCompleted?_of_mem {marks : List Mark} {m : Mark} {t : Instant} (hm : m ∈ marks)
    (ht : m.completed? = some t) : ∃ u, lastCompleted? marks = some u := by
  have mem : t ∈ marks.filterMap Mark.completed? := List.mem_filterMap.2 ⟨m, hm, ht⟩
  exact ⟨_, List.getLast?_eq_some_getLast (List.ne_nil_of_mem mem)⟩

theorem Core.lastAttempt_enter (c : Core) (how : FetchEnd) :
    (c.enter how).ledger.lastAttempt =
      if how = .crashed then c.ledger.lastAttempt else some c.now := by
  cases how <;> rfl

theorem Turn.lastAttempt {c d : Core} {task : Task} {how : FetchEnd} {new : List Mark}
    (h : Turn p task how c new d) :
    d.ledger.lastAttempt = (lastCompleted? new).or c.ledger.lastAttempt := by
  cases h with
  | calm calm => rw [calm.ledger]; rfl
  | start _ _ store => rw [store.ledger]; rfl
  | finish _ _ _ store =>
    rw [store.ledger, lastAttempt_enter, lastCompleted?_ended]
    split <;> rfl
  | startFinish _ _ store =>
    rw [store.ledger, lastAttempt_enter, lastCompleted?_started, lastCompleted?_ended]
    split <;> rfl

/-- **The last attempt on record is the last one that was seen.** -/
theorem lastCompleted?_history (run : Reaches p (.load p now events keys) as s) :
    lastCompleted? (history p (.load p now events keys) as) = s.ledger.lastAttempt := by
  refine (run.chronicle (P := fun marks c => lastCompleted? marks = c.ledger.lastAttempt) rfl
    (fun _ _ told => told) fun _ turned told => ?_).2
  rw [lastCompleted?_append, turned.lastAttempt, told]

/-! ### Spacing -/

variable (p) in
/-- A mark comes late enough after another: if that one completes an attempt, the rate limit is
over. -/
def Mark.Spaced (m n : Mark) : Prop :=
  ∀ t, m.completed? = some t → t + p.options.rateLimit.nanos ≤ n.time

/-- What is seen in a turn happens now, and what was on record before allows it. -/
theorem Turn.allows {c d : Core} {task : Task} {how : FetchEnd} {new : List Mark} {n : Mark}
    (h : Turn p task how c new d) (hn : n ∈ new) : n.time = c.now ∧ c.Allows p c.now := by
  cases h with
  | calm => cases hn
  | start _ allowed =>
    cases List.mem_singleton.1 hn
    exact ⟨rfl, allowed⟩
  | finish _ allowed begun =>
    cases List.mem_singleton.1 hn
    exact ⟨rfl, fun last hl => Nat.le_trans (allowed last hl) begun⟩
  | startFinish _ allowed =>
    simp only [List.mem_cons, List.not_mem_nil, or_false] at hn
    rcases hn with rfl | rfl <;> exact ⟨rfl, allowed⟩

/-- In one turn at most one attempt is completed, and nothing is seen after it. -/
theorem Turn.pairwise {c d : Core} {task : Task} {how : FetchEnd} {new : List Mark}
    (h : Turn p task how c new d) : new.Pairwise (Mark.Spaced p) := by
  cases h with
  | calm => exact .nil
  | start | finish => exact List.pairwise_singleton ..
  | startFinish =>
    -- a start completes nothing, so that its end may follow at once
    refine List.pairwise_pair.2 fun t ht => ?_
    cases ht

/-- Every attempt seen so far was completed by the one on record. -/
def Core.Tells (c : Core) (marks : List Mark) : Prop :=
  ∀ m ∈ marks, ∀ t, m.completed? = some t → ∃ last, c.ledger.lastAttempt = some last ∧ t ≤ last

theorem Turn.tells {c d : Core} {task : Task} {how : FetchEnd} {marks new : List Mark}
    (h : Turn p task how c new d) (sound : c.Sound p) (told : c.Tells marks) :
    d.Tells (marks ++ new) := by
  intro m hm t ht
  rw [h.lastAttempt]
  have now {u : Instant} (hu : lastCompleted? new = some u) : u = c.now := by
    obtain ⟨n, hn, hu⟩ := mem_of_lastCompleted? hu
    rw [← Mark.time_of_completed? hu, (h.allows hn).1]
  -- what was seen before is covered by the old record, which is past, and the rest by the new one
  rcases List.mem_append.1 hm with hm | hm
  · obtain ⟨last, hl, le⟩ := told m hm t ht
    cases hu : lastCompleted? new with
    | none => exact ⟨last, hl, le⟩
    | some u => exact ⟨u, rfl, now hu ▸ Nat.le_trans le (sound.attempted last hl)⟩
  · obtain ⟨u, hu⟩ := lastCompleted?_of_mem hm ht
    have : t = c.now := by rw [← Mark.time_of_completed? ht, (h.allows hm).1]
    exact ⟨u, by rw [hu]; rfl, Nat.le_of_eq (this.trans (now hu).symm)⟩

/-- **Whatever is seen after an attempt is completed comes late enough.** -/
theorem history_spaced (run : Reaches p (.load p now events keys) as s) :
    (history p (.load p now events keys) as).Pairwise (Mark.Spaced p) := by
  refine (run.chronicle (P := fun marks c => c.Tells marks ∧ marks.Pairwise (Mark.Spaced p))
    ⟨fun _ hm => (nomatch hm), .nil⟩ (fun _ _ told => told) ?_).2.2
  rintro marks new c d task how sound turned ⟨told, spaced⟩
  refine ⟨turned.tells sound told, List.pairwise_append.2 ⟨spaced, turned.pairwise, ?_⟩⟩
  intro m hm n hn t ht
  obtain ⟨time, allowed⟩ := turned.allows hn
  obtain ⟨last, hl, le⟩ := told m hm t ht
  rw [time]
  exact Nat.le_trans (Nat.add_le_add_right le _) (allowed last hl)

/-! ### The source's count -/

/-- A fetch starts. -/
def Mark.isStart : Mark → Bool
  | .started _ _ => true
  | .ended _ _ _ => false

theorem Turn.fetches {c d : Core} {task : Task} {how : FetchEnd} {new : List Mark}
    (h : Turn p task how c new d) : d.fetches = c.fetches + new.countP Mark.isStart := by
  cases h with
  | calm calm => exact calm.fetches
  | start _ _ store => exact store.fetches
  | finish _ _ _ store => rw [store.fetches, enter_fetches]; rfl
  | startFinish _ _ store => rw [store.fetches, enter_fetches]; rfl

/-- No fetch is missed: the source has counted the first load and the fetches that were seen. -/
theorem countP_isStart_history (run : Reaches p (.load p now events keys) as s) :
    s.fetches = 1 + (history p (.load p now events keys) as).countP Mark.isStart := by
  refine (run.chronicle (P := fun marks c => c.fetches = 1 + marks.countP Mark.isStart) rfl
    (fun _ _ counted => counted) fun _ turned counted => ?_).2
  rw [turned.fetches, counted, List.countP_append, Nat.add_assoc]

/-! ### The limit -/

/-- **The rate limit over whole runs.**  Whatever task starts a fetch, it starts no sooner after
the attempt completed last before it than the rate limit allows.  So nothing that was queued
behind a refresh starts a fetch at the instant at which the refresh completes.  The first load is
no attempt: until one is completed, nothing is limited. -/
theorem starts_spaced (run : Reaches p (.load p now events keys) as s) :
    (∀ before task u after,
      history p (.load p now events keys) as = before ++ .started task u :: after →
        ∀ t, lastCompleted? before = some t → t + p.options.rateLimit.nanos ≤ u) ∧
    (0 < p.options.rateLimit.nanos → ∀ before m t after,
      history p (.load p now events keys) as = before ++ m :: after →
        m.completed? = some t → ∀ task u, .started task u ∈ after → u ≠ t) ∧
    (lastCompleted? (history p (.load p now events keys) as) = none → s.limited p = false) := by
  have spaced := history_spaced run
  refine ⟨?_, ?_, ?_⟩
  · intro before task u after split t ht
    rw [split] at spaced
    obtain ⟨m, hm, hmt⟩ := mem_of_lastCompleted? ht
    exact (List.pairwise_append.1 spaced).2.2 m hm _ (List.mem_cons_self ..) t hmt
  · intro positive before m t after split ht task u hu same
    rw [split] at spaced
    have late : t + p.options.rateLimit.nanos ≤ u :=
      (List.pairwise_cons.1 (List.pairwise_append.1 spaced).2.1).1 _ hu t ht
    unfold Instant at *
    omega
  · intro none
    rw [lastCompleted?_history run] at none
    simp [State.limited, Ledger.limited, none]

/-- A source that may be asked again 5 ns after it was asked, and is asked every 7 ns. -/
def samplePolicy : Policy where
  source := "keys"
  polling := true
  options := ⟨⟨7⟩, ⟨5⟩, ⟨3⟩⟩

/-- Two lookups miss their keys; the refresh of the first fails while the second is queued, and the
schedule fetches next. -/
def sampleRun : List Action :=
  [.run .schedule false none, .call "a", .call "b", .run (.lookup 0) false none,
    .run (.lookup 1) false none, .run (.refresh 0) false none, .advance 2, .wake (.refresh 0),
    .run (.refresh 0) false (some ⟨[], .failed (.keySource "down")⟩), .run (.lookup 1) false none,
    .run (.lookup 0) false none, .advance 7, .wake .schedule, .run .schedule false none]

/-- The schedule's fetch starts 5 ns after the refresh has failed, and the queued lookup starts
none. -/
theorem starts_spaced_sampleRun :
    history samplePolicy (.load samplePolicy 0 [] .empty) sampleRun =
        [.started (.refresh 0) 0, .ended (.refresh 0) 2 (.failed (.keySource "down")),
          .started .schedule 7] ∧
      2 + 5 ≤ 7 ∧ (7 : Instant) ≠ 2 := by
  obtain ⟨s, run⟩ : ∃ s, Reaches samplePolicy (.load samplePolicy 0 [] .empty) sampleRun s :=
    ⟨_, reaches_iff_after?.2 rfl⟩
  obtain ⟨late, apart, -⟩ := starts_spaced run
  refine ⟨rfl, ?_, ?_⟩
  · exact late [_, _] .schedule 7 [] rfl 2 rfl
  · exact apart (by decide) [_] _ 2 [_] rfl rfl .schedule 7 (List.mem_singleton_self _)

end BearerAuth.KeyCache
