import BearerAuth.Proofs.Json.Reading
import BearerAuth.Proofs.KeyCache.RateLimit

/-!
# Where the keys in use come from

The keys in use are at any time the whole of what a single fetch brought, the last one that brought
any.  What fails, is given up or is skipped replaces nothing.

* `lastPublished_history` : the keys in use are those that were brought last;
* `KeySet.isEmpty_of_documented` : a document never makes an empty set of keys;
* `Fruitless` lists the actions that replace nothing;
* `keys_in_use` : provenance of the keys over whole runs.
-/

namespace BearerAuth

/-- The keys come from a document. -/
def KeySet.Documented (keys : KeySet) : Prop := ∃ doc, KeySet.ofDocument doc = .ok keys

theorem KeySet.isEmpty_of_documented {keys : KeySet} (h : keys.Documented) :
    keys.isEmpty = false := by
  obtain ⟨doc, made⟩ := h
  unfold ofDocument at made
  split at made
  · cases made
  · simp only [ofValues] at made
    split at made
    · cases made
    · rename_i some
      cases made
      simpa using some

theorem KeySet.documented_of_ofString {text : String} {keys : KeySet}
    (h : (ofString text).toOption = some keys) : keys.Documented :=
  ⟨.ofString text, Json.eq_ok_of_toOption h⟩

namespace KeyCache

open BearerAuth.KeyCache.Core

variable {p : Policy} {s u : State} {as : List Action} {a : Action} {now : Instant}
  {events : List Event} {keys : KeySet}

/-! ### What was brought last -/

theorem lastPublished_append (first : KeySet × Instant) (marks new : List Mark) :
    lastPublished first (marks ++ new) = lastPublished (lastPublished first marks) new := by
  simp only [lastPublished, List.filterMap_append, List.getLast?_append]
  cases (new.filterMap Mark.published?).getLast? <;> rfl

theorem lastPublished_of_none {first : KeySet × Instant} {marks : List Mark}
    (h : ∀ m ∈ marks, m.published? = none) : lastPublished first marks = first := by
  simp [lastPublished, List.filterMap_eq_nil_iff.2 h]

/-- The keys that were brought last are the first ones, or some fetch brought them. -/
theorem lastPublished_cases (first : KeySet × Instant) (marks : List Mark) :
    lastPublished first marks = first ∨
      ∃ m ∈ marks, m.published? = some (lastPublished first marks) := by
  unfold lastPublished
  cases last : (marks.filterMap Mark.published?).getLast? with
  | none => exact .inl rfl
  | some brought => exact .inr (List.mem_filterMap.1 (List.mem_of_getLast? last))

/-- The keys in use, and when they were brought. -/
def Core.published (c : Core) : KeySet × Instant := (c.keys, c.ledger.lastSuccess)

theorem Core.published_enter (c : Core) (task : Task) (how : FetchEnd) :
    (c.enter how).published = lastPublished c.published [.ended task c.now how] := by
  cases how <;> rfl

theorem Core.SameStore.published {c d : Core} (h : SameStore c d) : d.published = c.published := by
  rw [Core.published, h.keys, h.ledger]; rfl

theorem Turn.published {c d : Core} {task : Task} {how : FetchEnd} {new : List Mark}
    (h : Turn p task how c new d) : d.published = lastPublished c.published new := by
  cases h with
  | calm calm => exact calm.published
  | start _ _ store => exact store.published
  | finish _ _ _ store => exact store.published.trans (published_enter _ task how)
  | startFinish _ _ store => exact store.published.trans (published_enter _ task how)

theorem published_step (sound : s.core.Sound p) (hs : step p s a = some u) :
    u.core.published = lastPublished s.core.published (observe p s a u) := by
  obtain ⟨-, ⟨_, rfl, -, -, rfl⟩ | ⟨_, _, turned⟩⟩ := turn_step sound hs
  · rfl
  · exact turned.published

/-- **The keys in use are those that were brought last**, and the record tells when. -/
theorem lastPublished_history (run : Reaches p (.load p now events keys) as s) :
    lastPublished (keys, now) (history p (.load p now events keys) as) =
      (s.keys, s.ledger.lastSuccess) := by
  refine (run.chronicle (P := fun marks c => lastPublished (keys, now) marks = c.published) rfl
    (fun _ _ told => told) fun _ turned told => ?_).2
  rw [lastPublished_append, told, turned.published]

/-! ### What the source brought -/

/-- The keys that the source brings in an action. -/
def Action.brings? : Action → Option KeySet
  | .run _ _ (some ⟨_, .keys keys⟩) => some keys
  | _ => none

/-- Keys that are seen to be brought are what the source answers, all of it. -/
theorem brings?_of_mem_observe {m : Mark} {brought : KeySet × Instant} (hm : m ∈ observe p s a u)
    (h : m.published? = some brought) : a.brings? = some brought.1 := by
  unfold observe at hm
  split at hm
  · rename_i task stops answer
    rcases List.mem_append.1 hm with hm | hm <;> cases (List.mem_replicate.1 hm).2
    · cases h
    · rcases answer with _ | ⟨_, _ | _ | _⟩ <;> cases h
      rfl
  · cases hm

theorem mem_history {m : Mark} (hm : m ∈ history p s as) :
    ∃ a ∈ as, ∃ t u, m ∈ observe p t a u := by
  induction as generalizing s with
  | nil => cases hm
  | cons a as ih =>
    unfold history at hm
    split at hm
    · rename_i u _
      rcases List.mem_append.1 hm with hm | hm
      · exact ⟨a, List.mem_cons_self .., s, u, hm⟩
      · obtain ⟨b, hb, found⟩ := ih hm
        exact ⟨b, List.mem_cons_of_mem _ hb, found⟩
    · cases hm

/-- The keys in use are the first ones, or the source answered with them. -/
theorem keys_cases (run : Reaches p (.load p now events keys) as s) :
    s.keys = keys ∨ ∃ a ∈ as, a.brings? = some s.keys := by
  have told := lastPublished_history run
  rcases lastPublished_cases (keys, now) (history p (.load p now events keys) as) with
    first | ⟨m, hm, brought⟩
  · rw [told] at first
    exact .inl (congrArg Prod.fst first)
  · rw [told] at brought
    obtain ⟨a, ha, t, u, seen⟩ := mem_history hm
    exact .inr ⟨a, ha, brings?_of_mem_observe seen brought⟩

/-! ### What replaces nothing -/

/-- The actions that replace nothing. -/
inductive Fruitless (p : Policy) (s : State) : Action → Prop where
  /-- A fetch that ends now fails, takes too long or breaks down. -/
  | barren (task : Task) (stops : Bool) (answer : Option Answer)
    (barren : ∀ keys, p.outcome answer ≠ .keys keys) : Fruitless p s (.run task stops answer)
  /-- The rate limit is not over, whatever the source would answer. -/
  | limited (task : Task) (stops : Bool) (answer : Option Answer) (limited : s.limited p = true) :
    Fruitless p s (.run task stops answer)
  /-- A lookup is given up. -/
  | abort (id : Nat) : Fruitless p s (.abort id)
  /-- The schedule is stopped. -/
  | close : Fruitless p s .close
  /-- The schedule ends because it shall stop. -/
  | stop (due : Instant) (answer : Option Answer) (waiting : s.schedule = .waiting due)
    (cancelled : s.cancelled = true) : Fruitless p s (.run .schedule true answer)
  /-- Somebody waits for the end of the schedule. -/
  | closing (id : Nat) (stops : Bool) (answer : Option Answer) :
    Fruitless p s (.run (.closing id) stops answer)
  /-- The cache is let go. -/
  | drop : Fruitless p s .drop

theorem not_allows_of_limited (h : s.limited p = true) : ¬ s.core.Allows p s.core.now := by
  intro allowed
  cases hl : s.ledger.lastAttempt with
  | none => simp [State.limited, Ledger.limited, hl] at h
  | some last =>
    simp only [State.limited, Ledger.limited, hl, Option.any_some, decide_eq_true_eq] at h
    have late : last + p.options.rateLimit.nanos ≤ s.now := allowed last hl
    unfold Instant at *
    omega

/-- Nothing is seen of a step that keeps the fetches on the way and their count. -/
theorem observe_of_calm (h : Calm s.core u.core) : observe p s a u = [] := by
  cases a with
  | run task stops answer => exact (Turn.calm h).observe_run stops
  | _ => rfl

theorem Fruitless.published?_eq_none (h : Fruitless p s a) (sound : s.core.Sound p)
    (hs : step p s a = some u) {m : Mark} (hm : m ∈ observe p s a u) : m.published? = none := by
  cases h with
  | barren task stops answer barren =>
    refine Option.eq_none_iff_forall_ne_some.2 fun brought hb => ?_
    have answered := brings?_of_mem_observe hm hb
    rcases answer with _ | ⟨_, _ | _ | _⟩ <;> cases answered
    exact barren _ rfl
  | limited task stops answer limited =>
    -- whatever can be seen was allowed
    obtain ⟨-, ⟨_, passes, -⟩ | ⟨_, _, turned⟩⟩ := turn_step sound hs
    · cases passes
    · exact absurd (turned.allows hm).2 (not_allows_of_limited limited)
  | stop due answer waiting cancelled =>
    have waits : (s.unwake .schedule).schedule = .waiting due := waiting
    have told : (s.unwake .schedule).cancelled = true := cancelled
    obtain rfl := eq_runSchedule_of_step hs
    rw [observe_of_calm] at hm
    · cases hm
    · simp only [State.runSchedule, waits, told, Bool.true_or, Bool.and_self, if_true,
        State.core_endSchedule, State.core_note, State.core_unwake]
      exact (sound.reschedule (by simp [State.core, waiting, Schedule.started?]) .ended rfl).toCalm
  | closing id stops answer =>
    rw [observe_of_calm] at hm
    · cases hm
    · cases runs_of_step hs with
      | unknown => exact .refl _
      | closing c =>
        rw [State.core_runClosing]
        exact .refl _
  | abort | close | drop => cases hm

/-! ### Provenance -/

/-- **Provenance of the keys over whole runs.**  The keys in use are the whole of what the last
fetch to bring any brought, the first load included, and the record tells when that fetch ended.
They are not empty if the source makes its keys from documents.  A fruitless action leaves both as
they are. -/
theorem keys_in_use (run : Reaches p (.load p now events keys) as s) :
    (s.keys, s.ledger.lastSuccess) =
        lastPublished (keys, now) (history p (.load p now events keys) as) ∧
      (keys.Documented → (∀ a ∈ as, ∀ brought, a.brings? = some brought → brought.Documented) →
        s.keys.isEmpty = false) ∧
      ∀ a u, step p s a = some u → Fruitless p s a →
        u.keys = s.keys ∧ u.ledger.lastSuccess = s.ledger.lastSuccess := by
  refine ⟨(lastPublished_history run).symm, ?_, ?_⟩
  · intro first later
    apply KeySet.isEmpty_of_documented
    rcases keys_cases run with same | ⟨a, ha, brought⟩
    · rw [same]; exact first
    · exact later a ha _ brought
  · -- the marks of one step tell what it does to keys and record
    intro a u hs fruitless
    have kept : u.core.published = s.core.published := by
      rw [published_step run.sound hs]
      exact lastPublished_of_none fun m => fruitless.published?_eq_none run.sound hs
    exact ⟨congrArg Prod.fst kept, congrArg Prod.snd kept⟩

/-- A set with one key. -/
def sampleKeys (kid : String) : KeySet := ⟨[(kid, ⟨.secret [1, 0, 1], none⟩)]⟩

/-- A lookup misses its key, and its refresh brings it. -/
def rotationRun : List Action :=
  [.run .schedule false none, .call "b", .run (.lookup 0) false none, .run (.refresh 0) false none,
    .advance 2, .wake (.refresh 0), .run (.refresh 0) false (some ⟨[], .keys (sampleKeys "b")⟩),
    .run (.lookup 0) false none]

/-- A text that makes a set with one key. -/
def sampleText (kid : String) : String :=
  "\x7b\"keys\":[\x7b\"kty\":\"oct\",\"kid\":\"" ++ kid ++ "\",\"k\":\"AQAB\"\x7d]\x7d"

theorem documented_sampleKeys : (sampleKeys "a").Documented ∧ (sampleKeys "b").Documented := by
  have a : (KeySet.ofString (sampleText "a")).toOption = some (sampleKeys "a") := by decide +kernel
  have b : (KeySet.ofString (sampleText "b")).toOption = some (sampleKeys "b") := by decide +kernel
  exact ⟨KeySet.documented_of_ofString a, KeySet.documented_of_ofString b⟩

/-- The refresh replaces the first keys as a whole, and a lookup that is given up later replaces
nothing. -/
theorem keys_in_use_rotationRun :
    ∃ s, Reaches samplePolicy (.load samplePolicy 0 [] (sampleKeys "a")) rotationRun s ∧
      (s.keys, s.ledger.lastSuccess) = (sampleKeys "b", 2) ∧ s.keys.isEmpty = false ∧
      ∃ u, step samplePolicy s .drop = some u ∧ u.keys = s.keys := by
  have run : Reaches samplePolicy (.load samplePolicy 0 [] (sampleKeys "a")) rotationRun _ :=
    reaches_iff_after?.2 rfl
  obtain ⟨origin, filled, kept⟩ := keys_in_use run
  obtain ⟨first, later⟩ := documented_sampleKeys
  refine ⟨_, run, origin, filled first ?_, _, rfl, (kept .drop _ rfl .drop).1⟩
  intro a ha brought hb
  simp only [rotationRun, List.mem_cons, List.not_mem_nil, or_false] at ha
  rcases ha with rfl | rfl | rfl | rfl | rfl | rfl | rfl | rfl <;> cases hb
  exact later

end KeyCache

end BearerAuth
