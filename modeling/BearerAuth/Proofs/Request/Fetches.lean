import BearerAuth.Proofs.KeyCache.Misses
import BearerAuth.Proofs.KeyCache.Simulated
import BearerAuth.Proofs.Request.Approaches

/-!
# Which requests cost a fetch

Whoever sends requests can make the cache fetch only with a token that is worth a lookup, whose key
is not there, and only as often as the rate limit allows.  A request that is refused before the
lookup does nothing to the cache at all.

* `Authenticator.fetch_of_request` : both statements, for all ways of a request and all states of a
  cache.

The proof: without a lookup the cache is written to its log only.  With one, the request is a call
of the lookup, and what `fetch_of_call` says of lookups holds of it, whatever else happens in the
cache meanwhile.
-/

namespace BearerAuth

open KeyCache

variable {m : Simulation} {since : Instant} {events : List Event} {keys : KeySet}
  {as : List Action}

namespace Authenticator

/-- **Which requests cost a fetch.**  A request that carries no token worth a lookup fails, and the
cache stays as it is but for its log.  A request that carries one is a call of the lookup.  If the
refresh of this lookup is seen to start a fetch, whatever else happens meanwhile, then the source
can change, the lookup has missed its key in its first turn and again with the guard at hand while
nothing was limited, the key was not in use at the call either where attempts are limited, and no
attempt was completed less than the limit before. -/
theorem fetch_of_request (a : Authenticator) (now : Int) (x : Approach)
    (run : Reaches m.policy (.load m.policy since events keys) as m.state) :
    ((∀ r, ¬ x.Asks r) → ∃ why logged,
      a.treat now m x = ({ m with state := m.state.note logged }, some why)) ∧
    ∀ r, x.Asks r →
      (m.state.owned = true → ∃ bs,
        Reaches m.policy m.state (.call r.kid :: bs) (a.treat now m x).1.state) ∧
      ∀ bs u, Reaches m.policy m.state (.call r.kid :: bs) u → ∀ time,
        .started (.refresh m.state.nextId) time ∈
          history m.policy m.state (.call r.kid :: bs) →
        Earned m.policy m.state (.call r.kid :: bs) m.state.nextId r.kid ∧
        (0 < m.policy.options.rateLimit.nanos → m.state.keys.get? r.kid = none) ∧
        ∀ before after,
          history m.policy (.load m.policy since events keys) (as ++ .call r.kid :: bs) =
            before ++ .started (.refresh m.state.nextId) time :: after →
          ∀ c ∈ before, ∀ t, c.completed? = some t →
            t + m.policy.options.rateLimit.nanos ≤ time := by
  refine ⟨fun worthless => ?_, fun r asks => ⟨fun owned => ?_, fun bs u further time started => ?_⟩⟩
  · rcases a.asked_cases x with ⟨r, asked⟩ | ⟨f, logged, asked⟩
    · exact absurd (asked_eq_ok_iff.1 asked) (worthless r)
    · exact ⟨f, _, treat_of_error (by rw [asked]; rfl)⟩
  · obtain ⟨bs, looked, -⟩ := m.reaches_lookup owned r.kid
    rw [treat_of_asks asks, act_note]
    exact ⟨_, looked.tail (a := .note _) rfl⟩
  · exact fetch_of_call run further started

/-- A token that is worth a lookup makes the cache without keys fetch, and another credential does
not. -/
theorem fetch_of_request_emptyCache :
    (∃ why logged, sampleAuthenticator.treat 0 emptyCache (.value "Basic eDp5") =
      ({ emptyCache with state := emptyCache.state.note logged }, some why)) ∧
    ∃ r, sampleApproach.Asks r ∧
      Earned samplePolicy emptyCache.state [.call r.kid, .run (.lookup 0) false none,
        .run (.refresh 0) false none] 0 r.kid ∧
      emptyCache.state.keys.get? r.kid = none := by
  have run : Reaches samplePolicy (.load samplePolicy 0 [] .empty) [] emptyCache.state := .refl _
  have general (x : Approach) := fetch_of_request (m := emptyCache) sampleAuthenticator 0 x run
  refine ⟨(general (.value "Basic eDp5")).1 ?_, ?_⟩
  · rintro r ⟨raw, bears, -⟩
    have first : (Text.words "Basic eDp5".toList).head? = some Credential.scheme.toList :=
      congrArg List.head? bears
    exact absurd first (by decide +kernel)
  obtain ⟨⟨t, kid⟩, asks, rfl⟩ := asks_sampleApproach
  obtain ⟨u, further⟩ : ∃ u, Reaches samplePolicy emptyCache.state
      [.call "a", .run (.lookup 0) false none, .run (.refresh 0) false none] u :=
    ⟨_, reaches_iff_after?.2 rfl⟩
  have started : history samplePolicy emptyCache.state
      [.call "a", .run (.lookup 0) false none, .run (.refresh 0) false none] =
        [.started (.refresh 0) 0] := rfl
  obtain ⟨earned, absent, -⟩ := ((general sampleApproach).2 _ asks).2 _ u further 0
    (started ▸ List.mem_singleton_self _)
  exact ⟨_, asks, earned, absent (by decide)⟩

end Authenticator

end BearerAuth
