import BearerAuth.Proofs.Installation.Setup
import BearerAuth.Proofs.KeyCache.Stops

/-!
# Answers that are refused

An answer over the network is refused for its status if the status reports an error.  Any other
answer is read, and that is more than the answers of success: one that sends a client elsewhere
without saying where is read too, and may bring keys.

* `KeySource.fetch_eq_ok_iff`, `Discovery.discover_eq_ok_iff` : what an answer brings that is no
  error;
* `KeyCache.booked_of_answered` : a fetch that finds an answer ends with it, and that is entered;
* `only_errors_refused` : errors are refused whatever they bring, all other answers are read;
* `not_refused_elsewhere` : an answer without success may be taken.

The proof: the status decides whether an exchange brings a document, and nothing later looks at it.
A task that fetches and finds an answer does not go on fetching, so that its turn is one of those in
which a fetch ends.
-/

namespace BearerAuth

open Json

/-- The answer is one of success. -/
def Response.isSuccess (r : Response) : Bool := 200 ≤ r.status && r.status < 300

/-- The failure of a fetch that has brought no document of keys. -/
def KeySource.unfetched : Failure := .keySource "Failed to fetch JWKS"

/-- The failure to find a provider that has published nothing. -/
def Discovery.unfound : Failure := .discovery "Failed to fetch OpenID config"

/-! ### What answers bring -/

section

variable {net : Network} {url issuer : String} {r : Response} {keys : KeySet} {m : Metadata}

theorem KeySource.fetch_of_isError (answered : (net.get url).answer = some r)
    (bad : r.isError = true) : ((http url).fetch net).result = .error unfetched := by
  change keysOf (net.get url) = _
  rw [keysOf, Exchange.document?_eq_none answered bad]
  rfl

/-- Any other answer brings the keys of its body. -/
theorem KeySource.fetch_eq_ok_iff (answered : (net.get url).answer = some r)
    (fine : r.isError = false) : ((http url).fetch net).result = .ok keys ↔
      KeySet.ofDocument (.ofOctets r.body) = .ok keys :=
  keysOf_eq_ok_iff (Exchange.document?_eq answered fine)

theorem Discovery.discover_of_isError (answered : (net.get (Discovery.url issuer)).answer = some r)
    (bad : r.isError = true) : (discover net issuer).result = .error unfound := by
  change judge _ (net.get (Discovery.url issuer)).document? = _
  rw [Exchange.document?_eq_none answered bad]
  rfl

theorem Discovery.discover_eq_ok_iff (answered : (net.get (Discovery.url issuer)).answer = some r)
    (fine : r.isError = false) : (discover net issuer).result = .ok m ↔
      (Document.ofOctets r.body).read Metadata.reader = .ok m ∧ m.jwksUri ≠ "" := by
  change judge _ (net.get (Discovery.url issuer)).document? = _ ↔ _
  rw [Exchange.document?_eq answered fine]
  exact judge_eq_ok_iff

end

namespace KeyCache

open BearerAuth.KeyCache.Core

variable {p : Policy} {s u : State} {as : List Action} {task : Task} {stops : Bool}
  {answer : Answer} {now : Instant} {events : List Event} {keys : KeySet}

/-! ### Fetches that find an answer -/

namespace State

theorem started?_endTick (s : State) (next : Instant) (end_ : Answer) :
    (s.endTick p next end_).schedule.started? = none := by
  rw [(s.schedule_endTick next end_).1]
  cases end_.outcome <;> rfl

theorem started?_handle (s : State) (next : Instant) (answer : Answer) :
    (s.handle p next (some answer)).schedule.started? = none := by
  unfold handle
  split
  · exact congrArg (fun c : Core => c.schedule.started?) (core_rest _ next)
  · exact started?_endTick _ next answer

theorem started?_runSchedule (s : State) (stops : Bool) (answer : Answer) :
    (s.runSchedule p stops (some answer)).schedule.started? = none := by
  cases schedule : s.schedule with
  | starting =>
    simp only [runSchedule, schedule]
    exact congrArg (fun c : Core => c.schedule.started?) (core_rest s _)
  | waiting due =>
    simp only [runSchedule, schedule]
    split
    · exact congrArg (fun c : Core => c.schedule.started?) (core_endSchedule _ .ended)
    · split
      · unfold tick
        dsimp only
        split
        · exact started?_handle _ _ answer
        · exact congrArg (fun c : Core => c.schedule.started?) (core_ask _ .schedule)
      · rw [schedule]
        rfl
  | queued next =>
    simp only [runSchedule, schedule]
    split
    · exact started?_handle s next answer
    · rw [schedule]
      rfl
  | fetching next started =>
    simp only [runSchedule, schedule]
    exact started?_endTick s next answer
  | off | ended | broken =>
    simp only [runSchedule, schedule]
    rfl

end State

/-- A task that runs and finds an answer does not go on fetching. -/
theorem not_flying_of_answered (sound : s.core.Sound p)
    (hs : step p s (.run task stops (some answer)) = some u) (since : Instant) :
    (task, since) ∉ u.flights := by
  intro flies
  cases runs_of_step hs with
  | schedule =>
    obtain ⟨next, fetching⟩ := State.mem_flights_schedule.1 flies
    have landed := State.started?_runSchedule (p := p) (s.unwake .schedule) stops answer
    rw [fetching] at landed
    cases landed
  | refresh r known =>
    obtain ⟨-, marks, turn, seen⟩ :=
      State.turn_runRefresh (s := s.unwake _) sound known
    have ended := seen (rfl : ((s.unwake _).fetchEnd? p _ (some answer)).isSome = true)
    rw [← State.flights_core] at flies
    cases turn with
    | calm | start => simp at ended
    | finish _ _ _ _ landed | startFinish _ _ _ landed =>
      rw [landed] at flies
      cases flies
  | unknown _ unknown =>
    rcases State.mem_flights.1 flies with ⟨r, mem, -, rfl⟩ | ⟨rfl, -⟩
    · exact unknown (List.find?_isSome.2 ⟨r, mem, beq_self_eq_true r.id⟩)
    · exact unknown trivial
  | lookup | watch | closing =>
    rcases State.mem_flights.1 flies with ⟨r, -, -, own⟩ | ⟨other, -⟩
    · cases own
    · cases other

/-- **A fetch that finds an answer ends with it**, and nothing but its end is entered. -/
theorem booked_of_answered (sound : s.core.Sound p)
    (hs : step p s (.run task stops (some answer)) = some u)
    (fetches : (∃ since, (task, since) ∈ s.flights) ∨ s.fetches < u.fetches) :
    u.keys = (s.core.enter answer.outcome).keys ∧
      u.ledger = (s.core.enter answer.outcome).ledger ∧
      u.reports = (s.core.enter answer.outcome).reports := by
  have turn := turn_step_run sound hs
  have landed := not_flying_of_answered sound hs
  simp only [← State.flights_core] at fetches landed
  generalize observe p s (.run task stops (some answer)) u = marks at turn
  cases turn with
  | calm calm =>
    exfalso
    rcases fetches with ⟨since, flies⟩ | more
    · exact landed since (calm.flights ▸ flies)
    · exact absurd calm.fetches (Nat.ne_of_gt more)
  | start _ _ _ flying =>
    refine (landed s.core.now ?_).elim
    rw [flying]
    exact List.mem_singleton_self _
  | finish _ _ _ store => exact ⟨store.keys, store.ledger, store.reports⟩
  | startFinish _ _ store =>
    -- that it has started as well does not show in what its end enters
    have same : SameStore ({ s.core with fetches := s.core.fetches + 1 }.enter answer.outcome)
        u.core := store
    cases outcome : answer.outcome <;> rw [outcome] at same <;>
      exact ⟨same.keys, same.ledger, same.reports⟩

end KeyCache

open KeyCache

/-- A task of a cache of the source fetches, or begins to, and finds what the source answers at
present. -/
inductive KeySource.Refetches (source : KeySource) (net : Network) : State → State → Prop where
  | intro {options : RefreshOptions} {logsFailures : Bool} {now : Instant} {events : List Event}
    {keys : KeySet} {as : List Action} {task : Task} {stops : Bool} {s u : State}
    (run : Reaches (source.policy options logsFailures)
      (.load (source.policy options logsFailures) now events keys) as s)
    (last : step (source.policy options logsFailures) s
      (.run task stops (some (source.behaviour net).answer)) = some u)
    (fetches : (∃ since, (task, since) ∈ s.flights) ∨ s.fetches < u.fetches) :
    Refetches source net s u

section

variable {source : KeySource} {net : Network} {s u : State}

/-- A refresh that fails is on record as a failure and is reported, and the keys stay. -/
theorem KeySource.Refetches.failed {f : Failure} (h : source.Refetches net s u)
    (failed : (source.fetch net).result = .error f) :
    u.keys = s.keys ∧ u.ledger = s.ledger.fail s.now ∧ u.reports = s.reports ++ [f] := by
  obtain ⟨run, last, fetches⟩ := h
  have booked := booked_of_answered run.sound last fetches
  simp only [behaviour, failed] at booked
  exact booked

theorem KeySource.Refetches.brought {keys : KeySet} (h : source.Refetches net s u)
    (brought : (source.fetch net).result = .ok keys) :
    u.keys = keys ∧ u.ledger = s.ledger.succeed s.now ∧ u.reports = s.reports := by
  obtain ⟨run, last, fetches⟩ := h
  have booked := booked_of_answered run.sound last fetches
  simp only [behaviour, brought] at booked
  exact booked

end

/-- **Only errors are refused for their status.**  An answer that reports an error is refused
whatever it brings, keys or the record of a provider included: the fetch fails, nothing is
discovered, and a refresh that finds the answer is on record as a failure, is reported, and leaves
the keys in use.  Any other answer, of success or not, is refused only for what it brings: its keys
are fetched and used from then on, and its record is discovered if it has a place for keys. -/
theorem only_errors_refused (net : Network) (r : Response) :
    (r.isError = true →
      (∀ url, (net.get url).answer = some r →
        ((KeySource.http url).fetch net).result = .error KeySource.unfetched ∧
        ∀ s u, (KeySource.http url).Refetches net s u →
          u.keys = s.keys ∧ u.ledger = s.ledger.fail s.now ∧
            u.reports = s.reports ++ [KeySource.unfetched]) ∧
      ∀ issuer, (net.get (Discovery.url issuer)).answer = some r →
        (Discovery.discover net issuer).result = .error Discovery.unfound) ∧
    (r.isError = false →
      (∀ url, (net.get url).answer = some r → ∀ keys,
        (((KeySource.http url).fetch net).result = .ok keys ↔
          KeySet.ofDocument (.ofOctets r.body) = .ok keys) ∧
        (KeySet.ofDocument (.ofOctets r.body) = .ok keys →
          ∀ s u, (KeySource.http url).Refetches net s u →
            u.keys = keys ∧ u.ledger = s.ledger.succeed s.now ∧ u.reports = s.reports)) ∧
      ∀ issuer, (net.get (Discovery.url issuer)).answer = some r → ∀ m,
        ((Discovery.discover net issuer).result = .ok m ↔
          (Document.ofOctets r.body).read Metadata.reader = .ok m ∧ m.jwksUri ≠ "")) := by
  refine ⟨fun bad => ⟨fun url answered => ?_, fun issuer answered => ?_⟩,
    fun fine => ⟨fun url answered keys => ?_, fun issuer answered m => ?_⟩⟩
  · have refused := KeySource.fetch_of_isError answered bad
    exact ⟨refused, fun s u refetches => refetches.failed refused⟩
  · exact Discovery.discover_of_isError answered bad
  · have read : ((KeySource.http url).fetch net).result = .ok keys ↔ _ :=
      KeySource.fetch_eq_ok_iff answered fine
    exact ⟨read, fun brought s u refetches => refetches.brought (read.2 brought)⟩
  · exact Discovery.discover_eq_ok_iff answered fine

/-- A document that is both a list of keys and the record of a provider. -/
def sampleDocument : String :=
  "\x7b\"issuer\":\"http://i\",\"jwks_uri\":\"http://i/keys\"," ++
    "\"keys\":[\x7b\"kty\":\"oct\",\"kid\":\"b\",\"k\":\"AQAB\"\x7d]\x7d"

/-- An answer of some status with the document. -/
def sampleResponse (status : Nat) : Response := { status, body := Text.Utf8.octets sampleDocument }

/-- A network that gives this answer to every request. -/
def statusNetwork (status : Nat) : Network :=
  fun _ : String => Reply.answered (sampleResponse status)

theorem ofDocument_sampleResponse (status : Nat) : ∃ keys,
    KeySet.ofDocument (.ofOctets (sampleResponse status).body) = .ok keys ∧
      keys.keyIds = ["b"] := by
  have read : ((KeySet.ofString sampleDocument).toOption.map KeySet.keyIds) = some ["b"] := by
    decide +kernel
  obtain ⟨keys, made, named⟩ := Option.map_eq_some_iff.1 read
  refine ⟨keys, ?_, named⟩
  rw [sampleResponse, Document.ofOctets_octets]
  exact eq_ok_of_toOption made

theorem read_sampleResponse (status : Nat) : ∃ m,
    (Document.ofOctets (sampleResponse status).body).read Metadata.reader = .ok m ∧
      m.jwksUri ≠ "" := by
  have read : ((Document.ofString sampleDocument).read Metadata.reader).toOption =
      some ⟨"http://i", "http://i/keys", none, none⟩ := by
    decide +kernel
  refine ⟨⟨"http://i", "http://i/keys", none, none⟩, ?_, by decide⟩
  rw [sampleResponse, Document.ofOctets_octets]
  exact eq_ok_of_toOption read

/-- A refresh of a cache without keys, whatever the network answers. -/
theorem exists_refetches (url : String) (net : Network) :
    ∃ s u, (KeySource.http url).Refetches net s u ∧ s.keys = .empty := by
  obtain ⟨s, run, empty, refreshes⟩ : ∃ s,
      Reaches ((KeySource.http url).policy ⟨⟨0⟩, ⟨5⟩, ⟨3⟩⟩ false)
        (.load ((KeySource.http url).policy ⟨⟨0⟩, ⟨5⟩, ⟨3⟩⟩ false) 0 [] .empty)
        [.call "b", .run (.lookup 0) false none] s ∧ s.keys = .empty ∧
      ∀ answer, ∃ u, step ((KeySource.http url).policy ⟨⟨0⟩, ⟨5⟩, ⟨3⟩⟩ false) s
        (.run (.refresh 0) false (some answer)) = some u ∧ s.fetches < u.fetches := by
    refine ⟨_, reaches_iff_after?.2 rfl, rfl, ?_⟩
    rintro ⟨events, keys | why | _⟩ <;> exact ⟨_, rfl, Nat.lt_succ_self 1⟩
  obtain ⟨u, last, more⟩ := refreshes ((KeySource.http url).behaviour net).answer
  exact ⟨s, u, .intro run last (.inr more), empty⟩

theorem get_statusNetwork {status : Nat} (stays : (sampleResponse status).redirection? = none)
    (url : String) : ((statusNetwork status).get url).answer = some (sampleResponse status) := by
  have answers : (statusNetwork status).Answers fun _ => sampleResponse status :=
    ⟨fun _ => rfl, fun _ => stays⟩
  rw [Network.get_of_answers answers rfl]

/-- With status 404 the document is refused, and a cache keeps the keys that it has; with status 300
its key is fetched, its record is discovered, and a cache takes the key. -/
theorem only_errors_refused_sampleDocument :
    (((KeySource.http "http://i/keys").fetch (statusNetwork 404)).result =
        .error KeySource.unfetched ∧
      (Discovery.discover (statusNetwork 404) "http://i").result = .error Discovery.unfound ∧
      ∃ s u, (KeySource.http "http://i/keys").Refetches (statusNetwork 404) s u ∧
        u.keys = .empty ∧ u.reports = s.reports ++ [KeySource.unfetched]) ∧
    ((∃ m, (Discovery.discover (statusNetwork 300) "http://i").result = .ok m) ∧
      ∃ keys, ((KeySource.http "http://i/keys").fetch (statusNetwork 300)).result = .ok keys ∧
        keys.keyIds = ["b"] ∧
        ∃ s u, (KeySource.http "http://i/keys").Refetches (statusNetwork 300) s u ∧
          u.keys = keys ∧ u.reports = s.reports) := by
  refine ⟨?_, ?_⟩
  · obtain ⟨fetching, discovering⟩ :=
      (only_errors_refused (statusNetwork 404) (sampleResponse 404)).1 rfl
    obtain ⟨refused, kept⟩ := fetching _ (get_statusNetwork rfl _)
    obtain ⟨s, u, refetches, empty⟩ := exists_refetches "http://i/keys" (statusNetwork 404)
    obtain ⟨same, -, reported⟩ := kept s u refetches
    exact ⟨refused, discovering _ (get_statusNetwork rfl _), s, u, refetches,
      same.trans empty, reported⟩
  · obtain ⟨fetching, discovering⟩ :=
      (only_errors_refused (statusNetwork 300) (sampleResponse 300)).2 rfl
    obtain ⟨keys, made, named⟩ := ofDocument_sampleResponse 300
    obtain ⟨m, read, somewhere⟩ := read_sampleResponse 300
    obtain ⟨fetched, taken⟩ := fetching _ (get_statusNetwork rfl _) keys
    obtain ⟨s, u, refetches, -⟩ := exists_refetches "http://i/keys" (statusNetwork 300)
    obtain ⟨replaced, -, unreported⟩ := taken made s u refetches
    exact ⟨⟨m, (discovering _ (get_statusNetwork rfl _) m).2 ⟨read, somewhere⟩⟩,
      keys, fetched.2 made, named, s, u, refetches, replaced, unreported⟩

/-- **An answer without success may be taken.**  Not every answer that is none of success fails a
fetch of keys or the discovery of a provider, and a refresh that finds one need not leave the keys
in use: an answer that says where else to look, but names no place, is read like one of success. -/
theorem not_refused_elsewhere :
    (¬ ∀ (net : Network) (url : String) (r : Response), (net.get url).answer = some r →
      r.isSuccess = false →
        ∃ why, ((KeySource.http url).fetch net).result = .error (.keySource why)) ∧
    (¬ ∀ (net : Network) (issuer : String) (r : Response),
      (net.get (Discovery.url issuer)).answer = some r → r.isSuccess = false →
        ∃ why, (Discovery.discover net issuer).result = .error (.discovery why)) ∧
    ¬ ∀ (net : Network) (url : String) (r : Response), (net.get url).answer = some r →
      r.isSuccess = false → ∀ s u, (KeySource.http url).Refetches net s u →
        u.keys = s.keys ∧ u.ledger = s.ledger.fail s.now := by
  have there : ((statusNetwork 300).get "http://i/keys").answer = _ := get_statusNetwork rfl _
  have there' : ((statusNetwork 300).get (Discovery.url "http://i")).answer = _ :=
    get_statusNetwork rfl _
  obtain ⟨keys, made, named⟩ := ofDocument_sampleResponse 300
  have fetched := (KeySource.fetch_eq_ok_iff there rfl).2 made
  refine ⟨fun always => ?_, fun always => ?_, fun always => ?_⟩
  · obtain ⟨why, failed⟩ := always _ _ _ there rfl
    cases failed.symm.trans fetched
  · obtain ⟨m, told⟩ := read_sampleResponse 300
    obtain ⟨why, failed⟩ := always _ _ _ there' rfl
    cases failed.symm.trans ((Discovery.discover_eq_ok_iff there' rfl).2 told)
  · obtain ⟨s, u, refetches, empty⟩ := exists_refetches "http://i/keys" (statusNetwork 300)
    have kept := (always _ _ _ there rfl s u refetches).1
    rw [(refetches.brought fetched).1, empty] at kept
    rw [kept] at named
    cases named

end BearerAuth
