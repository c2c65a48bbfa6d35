import BearerAuth.Discovery
import Mathlib.Data.List.DropRight

/-!
# The well-known place of an issuer

An issuer is given by a base URL, perhaps with slashes at its end, or by the well-known place under
its base URL.  Behind the well-known place slashes may not stand: with them it is taken for a base
URL.

* `Discovery.trimSlashes_eq_iff` : a text is what another one is without the slashes at its end;
* `Discovery.url_append_slashes` : with a slash at its end any issuer is taken for a base URL;
* `Discovery.url_eq_iff` : all issuers of which a well-known place is that place;
* `Discovery.url_of_slashes` : slashes behind a base URL do not matter, and the well-known place of
  a well-known place is the place itself;
* `Discovery.not_url_of_slashes` : slashes behind a well-known place matter.

The proof: a well-known place does not end with a slash.  So an issuer with a slash at its end is
none, and one that is a well-known place has no slash at its end to lose.
-/

namespace BearerAuth.Discovery

variable {text base : List Char} {issuer : String}

/-- Some slashes. -/
def slashes (n : Nat) : String := .ofList (.replicate n '/')

/-- A text does not end with a slash. -/
def Bare (text : String) : Prop := text.toList.getLast? ≠ some '/'

/-- A text is the well-known place under some base URL. -/
def IsPlace (text : String) : Prop := ∃ base, text = base ++ wellKnown

/-! ### Slashes at the end -/

theorem trimSlashes_eq (text : List Char) : trimSlashes text = text.rdropWhile (· == '/') := rfl

theorem trimSlashes_append_slashes (text : List Char) (n : Nat) :
    trimSlashes (text ++ .replicate n '/') = trimSlashes text := by
  induction n with
  | zero => rw [List.replicate_zero, List.append_nil]
  | succ n ih =>
    rw [List.replicate_succ', ← List.append_assoc, trimSlashes_eq,
      List.rdropWhile_concat_pos _ _ _ rfl]
    exact ih

theorem trimSlashes_of_bare (bare : text.getLast? ≠ some '/') : trimSlashes text = text := by
  refine List.rdropWhile_eq_self_iff.2 fun filled slash => bare ?_
  rw [List.getLast?_eq_some_getLast filled, beq_iff_eq.1 slash]

theorem bare_trimSlashes (text : List Char) : (trimSlashes text).getLast? ≠ some '/' := by
  by_cases filled : trimSlashes text = []
  · rw [filled]
    nofun
  · rw [List.getLast?_eq_some_getLast filled]
    intro slash
    exact List.rdropWhile_last_not _ text filled (beq_iff_eq.2 (Option.some.inj slash))

theorem exists_slashes (text : List Char) : ∃ n, text = trimSlashes text ++ .replicate n '/' := by
  have slash : ∀ c ∈ text.rtakeWhile (· == '/'), c = '/' := fun c hc => by
    simpa using List.mem_rtakeWhile_imp hc
  refine ⟨(text.rtakeWhile (· == '/')).length, ?_⟩
  rw [trimSlashes_eq, ← List.eq_replicate_iff.2 ⟨rfl, slash⟩, List.rdropWhile_append_rtakeWhile]

theorem trimSlashes_eq_iff :
    trimSlashes text = base ↔ base.getLast? ≠ some '/' ∧ ∃ n, text = base ++ .replicate n '/' := by
  constructor
  · rintro rfl
    exact ⟨bare_trimSlashes text, exists_slashes text⟩
  · rintro ⟨bare, n, rfl⟩
    rw [trimSlashes_append_slashes, trimSlashes_of_bare bare]

@[simp] theorem toList_append_slashes (issuer : String) (n : Nat) :
    (issuer ++ slashes n).toList = issuer.toList ++ .replicate n '/' := by
  rw [String.toList_append, slashes, String.toList_ofList]

/-! ### Well-known places -/

theorem isSuffixOf_iff : wellKnown.toList.isSuffixOf issuer.toList = true ↔ IsPlace issuer := by
  rw [List.isSuffixOf_iff_suffix]
  constructor
  · rintro ⟨base, spelled⟩
    refine ⟨.ofList base, String.toList_inj.1 ?_⟩
    rw [← spelled, String.toList_append, String.toList_ofList]
  · rintro ⟨base, rfl⟩
    exact ⟨base.toList, (String.toList_append ..).symm⟩

instance (text : String) : Decidable (IsPlace text) := decidable_of_iff _ isSuffixOf_iff

theorem IsPlace.bare (h : IsPlace issuer) : Bare issuer := by
  obtain ⟨base, rfl⟩ := h
  have last : wellKnown.toList.getLast? = some 'n' := by decide
  rw [Bare, String.toList_append, List.getLast?_append, last, Option.some_or]
  decide

theorem not_isPlace_slashes (issuer : String) (n : Nat) :
    ¬ IsPlace (issuer ++ slashes (n + 1)) := by
  intro place
  refine place.bare ?_
  rw [toList_append_slashes, List.replicate_succ', ← List.append_assoc, List.getLast?_concat]

theorem url_of_isPlace (h : IsPlace issuer) : url issuer = issuer := if_pos (isSuffixOf_iff.2 h)

theorem url_of_not_isPlace (h : ¬ IsPlace issuer) :
    url issuer = .ofList (trimSlashes issuer.toList) ++ wellKnown := by
  rw [url, if_neg (mt isSuffixOf_iff.1 h), String.ofList_append, String.ofList_toList]

theorem isPlace_url (issuer : String) : IsPlace (url issuer) := by
  by_cases place : IsPlace issuer
  · rwa [url_of_isPlace place]
  · exact ⟨_, url_of_not_isPlace place⟩

/-- With a slash at its end any issuer is taken for a base URL. -/
theorem url_append_slashes (issuer : String) (n : Nat) :
    url (issuer ++ slashes (n + 1)) = .ofList (trimSlashes issuer.toList) ++ wellKnown := by
  rw [url_of_not_isPlace (not_isPlace_slashes issuer n), toList_append_slashes,
    trimSlashes_append_slashes]

/-- A well-known place has no slash at its end to lose, and gets its own place behind it. -/
theorem url_slashes_of_isPlace (h : IsPlace issuer) (n : Nat) :
    url (issuer ++ slashes (n + 1)) = issuer ++ wellKnown := by
  rw [url_append_slashes, trimSlashes_of_bare h.bare, String.ofList_toList]

theorem url_slashes_of_not_isPlace (h : ¬ IsPlace issuer) (n : Nat) :
    url (issuer ++ slashes (n + 1)) = url issuer := by
  rw [url_append_slashes, url_of_not_isPlace h]

/-- **All issuers of a well-known place**: the place itself, and if its base URL does not end with a
slash, this base URL with any number of slashes, unless it is a well-known place. -/
theorem url_eq_iff {base : String} : url issuer = base ++ wellKnown ↔
    issuer = base ++ wellKnown ∨
      ¬ IsPlace issuer ∧ Bare base ∧ ∃ n, issuer = base ++ slashes n := by
  by_cases place : IsPlace issuer
  · rw [url_of_isPlace place]
    simp [place]
  · have other : issuer ≠ base ++ wellKnown := fun own => place ⟨base, own⟩
    have trimmed : url issuer = base ++ wellKnown ↔ trimSlashes issuer.toList = base.toList := by
      rw [url_of_not_isPlace place, String.append_left_inj, ← String.toList_inj,
        String.toList_ofList]
    rw [trimmed, trimSlashes_eq_iff]
    simp only [other, place, not_false_eq_true, true_and, false_or, Bare, ← String.toList_inj,
      toList_append_slashes]

/-- **Slashes behind an issuer.**  They do not matter behind an issuer that is no well-known place,
and behind one that is they do: it is then taken for a base URL, and its own place is put behind it.

The issuers of a well-known place are the place itself, and if its base URL does not end with a
slash, this base URL with any number of slashes, unless it is a well-known place.  What comes out is
always a well-known place, and that of a well-known place is the place itself. -/
theorem url_of_slashes (issuer : String) :
    (∀ n, url (issuer ++ slashes n) = url issuer ↔ n = 0 ∨ ¬ IsPlace issuer) ∧
    (∀ n, IsPlace issuer → url (issuer ++ slashes (n + 1)) = issuer ++ wellKnown) ∧
    (∀ base, url issuer = base ++ wellKnown ↔
      issuer = base ++ wellKnown ∨
        ¬ IsPlace issuer ∧ Bare base ∧ ∃ n, issuer = base ++ slashes n) ∧
    IsPlace (url issuer) ∧ url (url issuer) = url issuer := by
  refine ⟨fun n => ?_, fun n place => url_slashes_of_isPlace place n, fun base => url_eq_iff,
    isPlace_url issuer, url_of_isPlace (isPlace_url issuer)⟩
  cases n with
  | zero =>
    have unchanged : issuer ++ slashes 0 = issuer := by simp [slashes]
    simp [unchanged]
  | succ n =>
    by_cases place : IsPlace issuer
    · rw [url_slashes_of_isPlace place, url_of_isPlace place]
      have longer : issuer ++ wellKnown ≠ issuer := by
        intro same
        have lengths := congrArg String.length same
        rw [String.length_append] at lengths
        have filled : 0 < wellKnown.length := by decide
        omega
      simp [place, longer]
    · simp [url_slashes_of_not_isPlace place, place]

/-- A base URL, and a well-known place. -/
theorem url_of_slashes_realm :
    ¬ IsPlace "http://i/r" ∧ url ("http://i/r" ++ slashes 3) = url "http://i/r" ∧
      IsPlace "http://i/.well-known/openid-configuration" ∧
      url ("http://i/.well-known/openid-configuration" ++ slashes 1) =
        "http://i/.well-known/openid-configuration/.well-known/openid-configuration" := by
  have other : ¬ IsPlace "http://i/r" := by decide +kernel
  have place : IsPlace "http://i/.well-known/openid-configuration" := by decide +kernel
  exact ⟨other, ((url_of_slashes _).1 3).2 (.inr other), place, (url_of_slashes _).2.1 0 place⟩

/-- **Slashes behind a well-known place matter.**  Not every issuer has the well-known place that it
has with slashes behind it. -/
theorem not_url_of_slashes :
    ¬ ∀ (issuer : String) (n : Nat), url (issuer ++ slashes n) = url issuer := by
  intro always
  have same := always "http://i/.well-known/openid-configuration" 1
  revert same
  decide +kernel

end BearerAuth.Discovery
