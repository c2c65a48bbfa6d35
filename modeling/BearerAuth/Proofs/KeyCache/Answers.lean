import BearerAuth.Proofs.KeyCache.KeysInUse
import BearerAuth.Proofs.KeyCache.Lookups

/-!
# What lookups answer

A lookup is answered with what the keys in use say at that very instant.  It calls a key unknown
only if there is fresh evidence: an attempt inside the present window of the rate limit, or the end
of the refresh that it has begun, at which it runs before time passes.

* `State.Joins` is the invariant of the lookups whose refresh is over;
* `answer_step` : who is answered is answered by the keys in use, for one of the `Grounds`;
* `eq_of_ended_now` : what is brought at some instant is in use at that instant;
* `answers_fresh` : no lookup is answered out of date.

The proof: a lookup looks at the keys in use in the very step that answers it, so only the evidence
needs the past.  A refresh that ends makes its lookup ready to run, and time does not pass while
anybody is ready; so when the lookup runs, the end of the refresh is the present.
-/

namespace BearerAuth.KeyCache

open BearerAuth.KeyCache.Core

variable {p : Policy} {s u : State} {as : List Action} {a : Action} {now : Instant}
  {events : List Event} {keys : KeySet} {marks : List Mark} {id : Nat} {l : Lookup}
  {r : Except Failure VerificationKey}

/-- The answer of a lookup, once it has one. -/
def State.answer? (s : State) (id : Nat) : Option (Except Failure VerificationKey) :=
  (s.lookup? id).bind (·.phase.answer?)

/-! ### Refreshes that are over -/

/-- A lookup whose refresh is over is about to run, and the end of the refresh is the present: it
has completed an attempt, or it is known to have broken down. -/
def State.Joins (s : State) (marks : List Mark) : Prop :=
  ∀ id l how, s.lookup? id = some l → l.phase = .joined how →
    .lookup id ∈ s.woken ∧
      if how = .crashed then ∃ m ∈ marks, m.isCrash = true else s.ledger.lastAttempt = some s.now

theorem Moves.ne_joined {phase : LookupPhase} (h : Moves p s l phase) (how : Ending) :
    phase ≠ .joined how := by
  cases h with
  | queued => nofun
  | refreshing => nofun
  | answer => unfold State.conclusion; split <;> nofun

/-- A lookup whose refresh is over after a step either was so before it and has not run, or its
refresh ends with the step. -/
theorem joined_of_step (stirs : Stirs p s u a) {how : Ending} (hl : u.lookup? id = some l)
    (joined : l.phase = .joined how) (ready : s.lookup? id = some l → .lookup id ∈ s.woken) :
    .lookup id ∈ u.woken ∧
      (s.lookup? id = some l ∨
        ∃ task stops answer, a = .run task stops answer ∧ how = (p.outcome answer).ending ∧
          .ended task s.now (p.outcome answer) ∈ observe p s a u) := by
  cases stirs.fate hl with
  | same before idle =>
    refine ⟨?_, .inl before⟩
    rcases stirs.rouses _ (ready before) with woken | runs
    · exact woken
    · exact absurd joined (idle runs how)
  | called called => rw [called] at joined; cases joined
  | aborted aborted => rw [aborted] at joined; cases joined
  | joined stops answer run ended woken seen =>
    rw [ended] at joined
    cases joined
    exact ⟨woken, .inr ⟨_, stops, answer, run, rfl, seen⟩⟩
  | moved _ _ _ l' _ phase moves moved =>
    rw [moved] at joined
    exact absurd joined (moves.ne_joined how)

theorem Turn.lastAttempt_eq_now {c d : Core} {task : Task} {how : FetchEnd} {new : List Mark}
    (h : Turn p task how c new d)
    (completed : c.ledger.lastAttempt = some c.now ∨ ∃ m ∈ new, ∃ t, m.completed? = some t) :
    d.ledger.lastAttempt = some d.now := by
  rw [h.lastAttempt, h.now_eq]
  cases last : lastCompleted? new with
  | some t =>
    obtain ⟨m, hm, ht⟩ := mem_of_lastCompleted? last
    rw [Option.some_or, ← Mark.time_of_completed? ht, (h.allows hm).1]
  | none =>
    rcases completed with before | ⟨m, hm, t, ht⟩
    · exact before
    · obtain ⟨_, some⟩ := lastCompleted?_of_mem hm ht
      rw [last] at some; cases some

theorem joins_step (sound : s.core.Sound p) (hs : step p s a = some u) (joins : s.Joins marks) :
    u.Joins (marks ++ observe p s a u) := by
  intro id l how hl joined
  obtain ⟨ready, origin⟩ := joined_of_step (stirs_step sound hs) hl joined fun before =>
    (joins id l how before joined).1
  refine ⟨ready, ?_⟩
  obtain ⟨-, ⟨time, rfl, -, idle, rfl⟩ | ⟨task, end_, turned⟩⟩ := turn_step sound hs
  · -- time passes only while nobody is ready to run
    rw [show ({ s with now := time } : State).woken = [] from idle] at ready
    cases ready
  -- its refresh has ended in this step, or has before it and its lookup has not run since
  by_cases crashed : how = .crashed
  · rw [if_pos crashed]
    rcases origin with before | ⟨t, stops, answer, rfl, rfl, seen⟩
    · have known := (joins id l how before joined).2
      rw [if_pos crashed] at known
      obtain ⟨m, hm, crash⟩ := known
      exact ⟨m, List.mem_append_left _ hm, crash⟩
    · exact ⟨_, List.mem_append_right _ seen, Mark.isCrash_ended crashed⟩
  · rw [if_neg crashed]
    refine turned.lastAttempt_eq_now ?_
    rcases origin with before | ⟨t, stops, answer, rfl, rfl, seen⟩
    · have known := (joins id l how before joined).2
      rw [if_neg crashed] at known
      exact .inl known
    · exact .inr ⟨_, seen, s.now, Mark.completed?_ended crashed⟩

theorem Reaches.joins (run : Reaches p (.load p now events keys) as s) :
    s.Joins (history p (.load p now events keys) as) := by
  induction run with
  | refl => nofun
  | tail before last ih =>
    rw [history_snoc before last]
    exact joins_step before.sound last ih

/-! ### Answers -/

/-- Who is answered is answered with what the keys in use say, and there are grounds for it. -/
theorem answer_step (sound : s.core.Sound p) (hs : step p s a = some u)
    (before : s.answer? id = none) (after : u.answer? id = some r) :
    ∃ l, u.lookup? id = some { l with phase := s.conclusion l } ∧ s.lookup? id = some l ∧
      (s.conclusion l).answer? = some r ∧ Grounds p s l ∧ ∃ stops answer,
        a = .run (.lookup id) stops answer := by
  obtain ⟨l, hl, answered⟩ := Option.bind_eq_some_iff.1 after
  cases (stirs_step sound hs).fate hl with
  | same there =>
    rw [State.answer?, there, Option.bind_some, answered] at before
    cases before
  | called called => rw [called] at answered; cases answered
  | aborted aborted => rw [aborted] at answered; cases answered
  | joined _ _ _ joined => rw [joined] at answered; cases answered
  | moved stops answer run l' found phase moves moved =>
    subst moved
    cases moves with
    | queued => cases answered
    | refreshing => cases answered
    | answer grounds => exact ⟨l', hl, found, answered, grounds, stops, answer, run⟩

/-! ### The present -/

theorem time_le_of_mem_history (run : Reaches p (.load p now events keys) as s) {m : Mark}
    (hm : m ∈ history p (.load p now events keys) as) : m.time ≤ s.now := by
  refine (run.chronicle (P := fun marks c => ∀ m ∈ marks, m.time ≤ c.now) (fun _ h => nomatch h)
    (fun _ later past m hm => Nat.le_trans (past m hm) later) ?_).2 m hm
  intro marks new c d task how _ turned past m hm
  rw [turned.now_eq]
  rcases List.mem_append.1 hm with hm | hm
  · exact past m hm
  · exact Nat.le_of_eq (turned.allows hm).1

/-- Where attempts are limited, what is brought at some instant is in use at that instant. -/
theorem eq_of_ended_now (run : Reaches p (.load p now events keys) as s)
    (limit : 0 < p.options.rateLimit.nanos) {task : Task} {brought : KeySet}
    (seen : .ended task s.now (.keys brought) ∈ history p (.load p now events keys) as) :
    s.keys = brought := by
  obtain ⟨before, after, split⟩ := List.append_of_mem seen
  have spaced := history_spaced run
  have told := lastPublished_history run
  rw [split] at spaced told
  -- nothing can be seen after it without time passing
  have last : after = [] := by
    refine List.eq_nil_iff_forall_not_mem.2 fun m hm => ?_
    have late : s.now + p.options.rateLimit.nanos ≤ m.time :=
      (List.pairwise_cons.1 (List.pairwise_append.1 spaced).2.1).1 m hm s.now rfl
    have past := time_le_of_mem_history run
      (split ▸ List.mem_append_right before (List.mem_cons_of_mem _ hm))
    unfold Instant at *
    omega
  subst last
  rw [lastPublished_append] at told
  exact (congrArg Prod.fst told).symm

/-- The grounds to call a key unknown include an attempt inside the present window. -/
theorem exists_recent_attempt (run : Reaches p (.load p now events keys) as s)
    (hl : s.lookup? id = some l) (missing : s.keys.get? l.kid = none) (grounds : Grounds p s l)
    (polling : p.polling = true) (limit : 0 < p.options.rateLimit.nanos)
    (sane : ∀ m ∈ history p (.load p now events keys) as, m.isCrash = false) :
    ∃ m ∈ history p (.load p now events keys) as, ∃ t, m.completed? = some t ∧
      t ≤ s.now ∧ s.now < t + p.options.rateLimit.nanos := by
  have attempt {t : Instant} (ht : s.ledger.lastAttempt = some t)
      (recent : s.now < t + p.options.rateLimit.nanos) :
      ∃ m ∈ history p (.load p now events keys) as, ∃ t, m.completed? = some t ∧
        t ≤ s.now ∧ s.now < t + p.options.rateLimit.nanos := by
    have past : t ≤ s.now := run.sound.attempted t ht
    rw [← lastCompleted?_history run] at ht
    obtain ⟨m, hm, completed⟩ := mem_of_lastCompleted? ht
    exact ⟨m, hm, t, completed, past, recent⟩
  cases grounds with
  | found there => rw [missing] at there; cases there
  | fixed fixed => rw [polling] at fixed; cases fixed
  | limited limited =>
    cases ht : s.ledger.lastAttempt with
    | none => simp [State.limited, Ledger.limited, ht] at limited
    | some t =>
      have past : t ≤ s.now := run.sound.attempted t ht
      refine attempt ht ?_
      simp only [State.limited, Ledger.limited, ht, Option.any_some, decide_eq_true_eq] at limited
      unfold Instant at *
      omega
  | joined how joined =>
    have ended := (run.joins id l how hl joined).2
    split at ended
    · obtain ⟨m, hm, crash⟩ := ended
      rw [sane m hm] at crash
      cases crash
    · exact attempt ended (Nat.lt_add_of_pos_right limit)

/-! ### Freshness -/

/-- **No lookup is answered out of date.**  When a step answers a lookup, an answer with a key is
what the keys in use hold under its name, and an answer without one calls the key unknown and the
keys in use do not have it.  If the source can change, attempts are limited and no fetch has broken
down, then a key is called unknown only while an attempt is less than the limit ago, and never if it
was brought at this very instant. -/
theorem answers_fresh (run : Reaches p (.load p now events keys) as s)
    (hs : step p s a = some u) (id : Nat) (before : s.answer? id = none)
    (after : u.answer? id = some r) :
    ∃ l, u.lookup? id = some l ∧
      (∀ key, r = .ok key → u.keys.get? l.kid = some key) ∧
      ∀ why, r = .error why → why = .unknownKey l.kid ∧ u.keys.get? l.kid = none ∧
        (p.polling = true → 0 < p.options.rateLimit.nanos →
          (∀ m ∈ history p (.load p now events keys) as, m.isCrash = false) →
          (∃ m ∈ history p (.load p now events keys) as, ∃ t, m.completed? = some t ∧
            t ≤ u.now ∧ u.now < t + p.options.rateLimit.nanos) ∧
          ∀ task brought,
            .ended task u.now (.keys brought) ∈ history p (.load p now events keys) as →
              brought.get? l.kid = none) := by
  obtain ⟨l, hu, hl, answer, grounds, stops, brought, rfl⟩ := answer_step run.sound hs before after
  have calm := calm_of_run_lookup run.sound hs
  have keys' : u.keys = s.keys := calm.keys
  have now' : u.now = s.now := calm.now
  refine ⟨_, hu, ?_, ?_⟩
  · rintro key rfl
    rw [keys']
    unfold State.conclusion at answer
    split at answer <;> cases answer
    assumption
  · rintro why rfl
    rw [keys', now']
    unfold State.conclusion at answer
    split at answer <;> cases answer
    rename_i missing
    refine ⟨rfl, missing, fun polling limit sane => ⟨?_, fun task brought seen => ?_⟩⟩
    · exact exists_recent_attempt run hl missing grounds polling limit sane
    · rw [← eq_of_ended_now run limit seen]
      exact missing

/-- The second lookup of the sample run was queued behind a refresh that has just failed: its key is
unknown, on the evidence of that attempt. -/
theorem answers_fresh_sampleRun :
    ∃ s u, Reaches samplePolicy (.load samplePolicy 0 [] .empty) (sampleRun.take 9) s ∧
      step samplePolicy s (.run (.lookup 1) false none) = some u ∧
      u.answer? 1 = some (.error (.unknownKey "b")) ∧ u.keys.get? "b" = none ∧
      ∃ m ∈ history samplePolicy (.load samplePolicy 0 [] .empty) (sampleRun.take 9),
        ∃ t, m.completed? = some t ∧ t ≤ u.now ∧ u.now < t + 5 := by
  -- the run is computed once; the states are not looked into again
  have computed : ∃ s u, Reaches samplePolicy (.load samplePolicy 0 [] .empty) (sampleRun.take 9) s ∧
      step samplePolicy s (.run (.lookup 1) false none) = some u ∧ s.answer? 1 = none ∧
      u.answer? 1 = some (.error (.unknownKey "b")) ∧ ∃ l, u.lookup? 1 = some l ∧ l.kid = "b" :=
    ⟨_, _, reaches_iff_after?.2 rfl, rfl, rfl, rfl, _, rfl, rfl⟩
  obtain ⟨s, u, run, hs, before, after, l, hl, kid⟩ := computed
  refine ⟨s, u, run, hs, after, ?_⟩
  obtain ⟨l', hl', -, unknown⟩ := answers_fresh run hs 1 before after
  rw [hl] at hl'
  cases hl'
  rw [kid] at unknown
  obtain ⟨-, missing, evidence⟩ := unknown _ rfl
  exact ⟨missing, (evidence rfl (by decide) (by decide +kernel)).1⟩

end BearerAuth.KeyCache
