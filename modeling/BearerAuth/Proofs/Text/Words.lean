import BearerAuth.Text.Blank
import Mathlib.Data.List.Basic

/-!
# The words of a text

A text is cut at its blanks, and what stands between them are its words.

* `words_cons_blank`, `words_cons_plain` : what the first character does, which is all there is to
  know of the cut;
* `words_eq_nil_iff` : a text without words consists of blanks;
* `words_eq_cons_iff`, `words_eq_pair_iff` : where the first word stands, and where both words of a
  text with two words stand.

The proof: a word under way ends at the next blank, so that the two equations follow by an induction
on the rest of the text, and the rest from them by inductions on the text.
-/

namespace BearerAuth.Text

variable {c : Char} {text rest : List Char} {w v : List Char} {ws : List (List Char)}

/-- Some characters are blank, all of them. -/
def Blank (text : List Char) : Prop := ∀ c ∈ text, isBlank c = true

/-- Some characters make up a word. -/
structure IsWord (w : List Char) : Prop where
  /-- There are any. -/
  nonempty : w ≠ []
  /-- None of them is blank. -/
  plain : ∀ c ∈ w, isBlank c = false

/-- A word in front of the text ends there. -/
def Parts (text : List Char) : Prop := ∀ c, text.head? = some c → isBlank c = true

theorem isAllBlank_iff : isAllBlank text = true ↔ Blank text := List.all_eq_true

instance (text : List Char) : Decidable (Blank text) := decidable_of_iff _ isAllBlank_iff

theorem isWord_iff : (w.isEmpty = false ∧ w.all (!isBlank ·) = true) ↔ IsWord w := by
  rw [List.isEmpty_eq_false_iff, List.all_eq_true]
  constructor
  · rintro ⟨nonempty, plain⟩
    exact ⟨nonempty, fun c hc => Bool.not_eq_true' _ ▸ plain c hc⟩
  · rintro ⟨nonempty, plain⟩
    exact ⟨nonempty, fun c hc => (plain c hc).symm ▸ rfl⟩

instance (w : List Char) : Decidable (IsWord w) := decidable_of_iff _ isWord_iff

/-! ### The cut -/

@[simp] theorem words_cons_blank (blank : isBlank c = true) : words (c :: rest) = words rest := by
  simp [words, wordsFrom, blank]

theorem wordsFrom_of_ne_nil (going : w ≠ []) : wordsFrom w rest =
    (w.reverse ++ rest.takeWhile (!isBlank ·)) :: words (rest.dropWhile (!isBlank ·)) := by
  induction rest generalizing w with
  | nil => simp [wordsFrom, going]
  | cons c rest ih =>
    cases blank : isBlank c with
    | true =>
      have next : wordsFrom w (c :: rest) = w.reverse :: words rest := by
        simp [wordsFrom, words, blank, going]
      simp [next, blank]
    | false =>
      have next : wordsFrom w (c :: rest) = wordsFrom (c :: w) rest := by simp [wordsFrom, blank]
      rw [next, ih (List.cons_ne_nil c w)]
      simp [blank]

theorem words_cons_plain (plain : isBlank c = false) : words (c :: rest) =
    (c :: rest.takeWhile (!isBlank ·)) :: words (rest.dropWhile (!isBlank ·)) := by
  have next : words (c :: rest) = wordsFrom [c] rest := by simp [words, wordsFrom, plain]
  rw [next, wordsFrom_of_ne_nil (List.cons_ne_nil c [])]
  rfl

/-- **A text without words consists of blanks.** -/
theorem words_eq_nil_iff : words text = [] ↔ Blank text := by
  induction text with
  | nil => simp [Blank]
  | cons c rest ih =>
    cases blank : isBlank c with
    | true => simpa [blank, Blank] using ih
    | false => simp [words_cons_plain blank, Blank, blank]

theorem words_append_blank (blank : Blank w) : words (w ++ rest) = words rest := by
  induction w with
  | nil => rfl
  | cons c w ih =>
    rw [List.cons_append, words_cons_blank (blank c (List.mem_cons_self ..))]
    exact ih fun d hd => blank d (List.mem_cons_of_mem _ hd)

theorem words_append_word (word : IsWord w) (ends : Parts rest) :
    words (w ++ rest) = w :: words rest := by
  obtain ⟨c, w, rfl⟩ := List.exists_cons_of_ne_nil word.nonempty
  have plain : ∀ d ∈ w, (!isBlank d) = true := fun d hd => by
    simp [word.plain d (List.mem_cons_of_mem _ hd)]
  have stops : rest.takeWhile (!isBlank ·) = [] ∧ rest.dropWhile (!isBlank ·) = rest := by
    cases rest with
    | nil => simp
    | cons d rest => simp [ends d rfl]
  rw [List.cons_append, words_cons_plain (word.plain c (List.mem_cons_self ..)),
    List.takeWhile_append_of_pos plain, List.dropWhile_append_of_pos plain, stops.1, stops.2,
    List.append_nil]

/-- **Where the first word stands**: after some blanks, and before a blank or the end. -/
theorem words_eq_cons_iff : words text = w :: ws ↔ ∃ before after,
    text = before ++ (w ++ after) ∧ Blank before ∧ IsWord w ∧ Parts after ∧ words after = ws := by
  constructor
  · intro cut
    induction text with
    | nil => cases cut
    | cons c rest ih =>
      cases blank : isBlank c with
      | true =>
        rw [words_cons_blank blank] at cut
        obtain ⟨before, after, rfl, blanks, word⟩ := ih cut
        exact ⟨c :: before, after, rfl, List.forall_mem_cons.2 ⟨blank, blanks⟩, word⟩
      | false =>
        rw [words_cons_plain blank] at cut
        obtain ⟨rfl, rfl⟩ := List.cons.inj cut
        refine ⟨[], rest.dropWhile (!isBlank ·), ?_, nofun, ⟨List.cons_ne_nil _ _, ?_⟩, ?_, rfl⟩
        · simp [List.takeWhile_append_dropWhile]
        · refine List.forall_mem_cons.2 ⟨blank, fun d hd => ?_⟩
          simpa using List.all_eq_true.1 List.all_takeWhile d hd
        · intro d hd
          have first := List.head?_dropWhile_not (!isBlank ·) rest
          rw [hd] at first
          simpa using first
  · rintro ⟨before, after, rfl, blanks, word, ends, rfl⟩
    rw [words_append_blank blanks, words_append_word word ends]

/-- **Where the two words of a text stand**: between them are blanks, and around them perhaps. -/
theorem words_eq_pair_iff : words text = [v, w] ↔ ∃ before between after,
    text = before ++ (v ++ (between ++ (w ++ after))) ∧
      Blank before ∧ IsWord v ∧ Blank between ∧ between ≠ [] ∧ IsWord w ∧ Blank after := by
  rw [words_eq_cons_iff]
  constructor
  · rintro ⟨before, _, rfl, blanks, first, ends, second⟩
    obtain ⟨between, after, rfl, blanks', word, -, none⟩ := words_eq_cons_iff.1 second
    refine ⟨before, between, after, rfl, blanks, first, blanks', ?_, word, words_eq_nil_iff.1 none⟩
    -- without blanks between them the first word would not end
    rintro rfl
    obtain ⟨c, w, rfl⟩ := List.exists_cons_of_ne_nil word.nonempty
    have plain := word.plain c (List.mem_cons_self ..)
    rw [ends c rfl] at plain
    cases plain
  · rintro ⟨before, between, after, rfl, blanks, first, blanks', some, word, last⟩
    refine ⟨before, _, rfl, blanks, first, ?_, ?_⟩
    · obtain ⟨c, between, rfl⟩ := List.exists_cons_of_ne_nil some
      rintro _ ⟨⟩
      exact blanks' c (List.mem_cons_self ..)
    · have ends : Parts after := fun c hc => last c (List.mem_of_mem_head? hc)
      rw [words_append_blank blanks', words_append_word word ends, words_eq_nil_iff.2 last]

end BearerAuth.Text
