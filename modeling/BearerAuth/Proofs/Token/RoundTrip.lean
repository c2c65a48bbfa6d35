import BearerAuth.Proofs.Json.Written
import BearerAuth.Proofs.Token.Readings

/-!
# Claims that are written are read back

* `Claims.stated` are the fields that claims state, `Claims.written_chars` says that these are what
  is written;
* `Claims.ofString_text` : reading undoes writing, and what has been read once is read again.

The proof: the text is that of an object with the stated fields, none of them twice, and each field
is read as what it was written from.
-/

namespace BearerAuth

open Json Printer

namespace Claims

/-- The fields that claims state. -/
def stated (c : Claims) : Given :=
  (c.iss.map fun s => ("iss", .string (.written s))).toList ++
  (c.sub.map fun s => ("sub", .string (.written s))).toList ++
  [("aud", .strings c.aud), ("exp", .number (.written c.exp))] ++
  (c.iat.map fun n => ("iat", .number (.written n))).toList ++
  [("realm_access", .record [("roles", .strings c.realmRoles)])]

theorem written_chars (c : Claims) : Written c.chars (.record c.stated) := by
  have optional {α : Type} (o : Option α) (name : String) {text : α → List Char} {node : α → Node}
      (written : ∀ a, Written (text a) (node a)) :
      List.Forall₂ WrittenMember (o.map fun a => member name (text a)).toList
        (o.map fun a => (name, node a)).toList := by
    cases o with
    | none => exact .nil
    | some a => exact .cons ⟨text a, rfl, written a⟩ .nil
  have roles : Written (object [member "roles" (strings c.realmRoles)])
      (.record [("roles", .strings c.realmRoles)]) :=
    Written.object (.cons ⟨_, rfl, written_strings c.realmRoles⟩ .nil)
  unfold chars stated
  refine Written.object ?_
  refine List.rel_append (List.rel_append (List.rel_append (List.rel_append
    (optional c.iss "iss" written_string) (optional c.sub "sub" written_string)) ?_)
    (optional c.iat "iat" written_integer)) ?_
  · exact .cons ⟨_, rfl, written_strings c.aud⟩ (.cons ⟨_, rfl, written_integer c.exp⟩ .nil)
  · exact .cons ⟨_, rfl, roles⟩ .nil

variable {c : Claims}

theorem nodup_stated (c : Claims) : (c.stated.map (·.1)).Nodup := by
  unfold stated
  cases c.iss <;> cases c.sub <;> cases c.iat <;> simp

theorem accessReader_written (room : Nat) (roles : List String) :
    accessReader (room + 2) (.record [("roles", .strings roles)]) = .ok roles := by
  have read : Reader.list Reader.string (room + 1) (.strings roles) = .ok roles :=
    Reader.list_written roles
  have given : Record.members accessFields (room + 2) (.record [("roles", .strings roles)]) =
      .ok [("roles", .strings roles)] := by
    refine Record.members_written ?_ (by simp)
    rintro m (_ | ⟨_, ⟨⟩⟩)
    exact ⟨_, rfl, rfl, Reader.check_of_ok read⟩
  rw [accessReader, given]
  exact read

theorem known_stated (fits : c.InRange) (room : Nat) : ∀ m ∈ c.stated,
    ∃ f, Record.field? fields m.1 = some f ∧ f.name = m.1 ∧ f.accepts (room + 2) m.2 = .ok () := by
  intro m hm
  simp only [stated, List.mem_append, Option.mem_toList, Option.map_eq_some_iff, List.mem_cons,
    List.not_mem_nil, or_false] at hm
  rcases hm with (((⟨s, -, rfl⟩ | ⟨s, -, rfl⟩) | rfl | rfl) | ⟨n, issued, rfl⟩) | rfl
  · exact ⟨_, rfl, rfl, Reader.check_of_ok (Reader.optional_string_written _ s)⟩
  · exact ⟨_, rfl, rfl, Reader.check_of_ok (Reader.optional_string_written _ s)⟩
  · exact ⟨_, rfl, rfl, Reader.check_of_ok (Reader.oneOrMany_written c.aud)⟩
  · exact ⟨_, rfl, rfl, Reader.check_of_ok (Reader.integer_written _ fits.exp)⟩
  · exact ⟨_, rfl, rfl, Reader.check_of_ok (Reader.optional_integer_written _ (fits.iat n issued))⟩
  · exact ⟨_, rfl, rfl, Reader.check_of_ok (accessReader_written room c.realmRoles)⟩

theorem lookup_stated (c : Claims) :
    c.stated.lookup "iss" = c.iss.map (fun s => .string (.written s)) ∧
    c.stated.lookup "sub" = c.sub.map (fun s => .string (.written s)) ∧
    c.stated.lookup "aud" = some (.strings c.aud) ∧
    c.stated.lookup "exp" = some (.number (.written c.exp)) ∧
    c.stated.lookup "iat" = c.iat.map (fun n => .number (.written n)) ∧
    c.stated.lookup "realm_access" = some (.record [("roles", .strings c.realmRoles)]) := by
  unfold stated
  cases c.iss <;> cases c.sub <;> cases c.iat <;> exact ⟨rfl, rfl, rfl, rfl, rfl, rfl⟩

/-- The fields that are stated are read as what they were written from. -/
theorem ofGiven_stated (fits : c.InRange) (room : Nat) : ofGiven (room + 2) c.stated = .ok c := by
  obtain ⟨hasIss, hasSub, hasAud, hasExp, hasIat, hasRoles⟩ := lookup_stated c
  have iss := Given.getD_optional hasIss fun s _ => Reader.optional_string_written (room + 2) s
  have sub := Given.getD_optional hasSub fun s _ => Reader.optional_string_written (room + 2) s
  have iat := Given.getD_optional hasIat fun n issued =>
    Reader.optional_integer_written (room + 2) (fits.iat n issued)
  have aud : c.stated.getD (room + 2) "aud" Reader.oneOrMany [] = .ok c.aud := by
    rw [Given.getD, hasAud]
    exact Reader.oneOrMany_written c.aud
  have exp : c.stated.get (room + 2) "exp" Reader.integer = .ok c.exp := by
    rw [Given.get, hasExp]
    exact Reader.integer_written _ fits.exp
  have roles : c.stated.getD (room + 2) "realm_access" accessReader [] = .ok c.realmRoles := by
    rw [Given.getD, hasRoles]
    exact accessReader_written room c.realmRoles
  simp only [ofGiven, iss, sub, aud, exp, iat, roles]
  rfl

/-- **Claims that are written are read back.** -/
theorem ofString_of_inRange (fits : c.InRange) : ofString c.text = .ok c := by
  have given : Record.members fields maxDepth (.record c.stated) = .ok c.stated :=
    Record.members_written (known_stated fits 124) (nodup_stated c)
  have read : reader maxDepth (.record c.stated) = .ok c := by
    rw [reader, given]
    exact ofGiven_stated fits 124
  rw [ofString, text, (written_chars c).ofString, ofDocument, Document.read, read]
  rfl

/-- **Reading undoes writing.**  Claims whose instants fit in 64 bits are read back from what is
written for them.  So whatever text claims are read from, they are read again from what is written
for them, and then written as before. -/
theorem ofString_text :
    (∀ c : Claims, c.InRange → ofString c.text = .ok c) ∧
    ∀ s c, ofString s = .ok c →
      ofString c.text = .ok c ∧ ∀ c', ofString c.text = .ok c' → c'.text = c.text := by
  refine ⟨fun c fits => ofString_of_inRange fits, fun s c read => ?_⟩
  have again := ofString_of_inRange (inRange_of_ofDocument read)
  refine ⟨again, fun c' read' => ?_⟩
  obtain rfl : c = c' := by simpa using again.symm.trans read'
  rfl

/-- Claims with the first and the last instant, no audience, and a subject that has to be
escaped. -/
def sampleClaims : Claims where
  iss := none
  sub := some "a\"\\/\x00\x1f\n\x7fé😀"
  aud := []
  exp := Int64.minValue.toInt
  iat := some Int64.maxValue.toInt
  realmRoles := ["", "a,b"]

/-- They are read back, and so are claims that were read from a text in another form. -/
theorem ofString_text_sampleClaims :
    ofString sampleClaims.text = .ok sampleClaims ∧
      ∃ c, ofString "\x7b\"realmAccess\":\x7b\x7d,\"aud\":\"x\",\"exp\":-7\x7d" = .ok c ∧
        ofString c.text = .ok c ∧
        c.text = "\x7b\"aud\":[\"x\"],\"exp\":-7,\"realm_access\":\x7b\"roles\":[]\x7d\x7d" := by
  have fits : sampleClaims.InRange := ⟨by decide, by rintro n ⟨⟩; decide⟩
  have read : ofString "\x7b\"realmAccess\":\x7b\x7d,\"aud\":\"x\",\"exp\":-7\x7d" =
      .ok ⟨none, none, ["x"], -7, none, []⟩ := eq_ok_of_toOption (by decide +kernel)
  exact ⟨ofString_text.1 _ fits, _, read, (ofString_text.2 _ _ read).1, by decide +kernel⟩

end Claims

end BearerAuth
