import BearerAuth.Json.Value

/-!
# What readers agree on

Two readings of one document differ in how deep they may go and in the order in which they meet the
members of an object.

* `Reader.value_mono`, `Reader.oneOrMany_mono` : with more room a value is read as before;
* `Reader.isInt64_of_integer` : a whole number that is read fits in 64 bits;
* `Record.lookup_ofMembers` : a record gives for a field the node of the one member of that name;
* `Record.ofMembers_eq_ok_iff` : which members a record takes up, and what it makes of them;
* `Record.lookup_perm` : their order does not matter.
-/

namespace BearerAuth.Json

/-! ### Room -/

namespace Reader

mutual

/-- With more room a value is read as before. -/
theorem value_mono {room room' : Nat} (more : room ≤ room') :
    ∀ {node : Node} {v : Value}, value room node = .ok v → value room' node = .ok v
  | .null, _, h | .bool _, _, h | .number _, _, h | .cutNumber, _, h | .string _, _, h
  | .broken _, _, h => by simpa only [value] using h
  | .list items close, v, h => by
    obtain _ | room := room
    · simp only [value] at h
      cases h
    obtain ⟨room', rfl⟩ := Nat.exists_eq_add_of_lt more
    simp only [value] at h ⊢
    cases read : values room items with
    | error f => rw [read] at h; cases h
    | ok vs =>
      rw [values_mono (by omega) read]
      rw [read] at h
      exact h
  | .object members close, v, h => by
    obtain _ | room := room
    · simp only [value] at h
      cases h
    obtain ⟨room', rfl⟩ := Nat.exists_eq_add_of_lt more
    simp only [value] at h ⊢
    cases read : namedValues room members with
    | error f => rw [read] at h; cases h
    | ok vs =>
      rw [namedValues_mono (by omega) read]
      rw [read] at h
      exact h

theorem values_mono {room room' : Nat} (more : room ≤ room') :
    ∀ {items : List Node} {vs : List Value}, values room items = .ok vs →
      values room' items = .ok vs
  | [], _, h => by simpa only [values] using h
  | node :: rest, vs, h => by
    simp only [values] at h ⊢
    cases first : value room node with
    | error f => rw [first] at h; cases h
    | ok v =>
      rw [value_mono more first]
      rw [first] at h
      cases others : values room rest with
      | error f => rw [others] at h; cases h
      | ok ws =>
        rw [others] at h
        rw [values_mono more others]
        exact h

theorem namedValues_mono {room room' : Nat} (more : room ≤ room') :
    ∀ {members : List (RawString × Node)} {vs : List (String × Value)},
      namedValues room members = .ok vs → namedValues room' members = .ok vs
  | [], _, h => by simpa only [namedValues] using h
  | (name, node) :: rest, vs, h => by
    simp only [namedValues] at h ⊢
    cases known : name.read with
    | error f => rw [known] at h; cases h
    | ok name =>
      simp only [known] at h ⊢
      cases first : value room node with
      | error f => rw [first] at h; cases h
      | ok v =>
        rw [value_mono more first]
        rw [first] at h
        cases others : namedValues room rest with
        | error f => rw [others] at h; cases h
        | ok ws =>
          rw [others] at h
          rw [namedValues_mono more others]
          exact h

end

theorem oneOrMany_mono {room room' : Nat} (more : room ≤ room') {node : Node}
    {strings : List String} (h : oneOrMany room node = .ok strings) :
    oneOrMany room' node = .ok strings := by
  unfold oneOrMany at h ⊢
  cases read : value room node with
  | error f => rw [read] at h; cases h
  | ok v =>
    rw [read] at h
    rw [value_mono more read]
    exact h

end Reader

/-! ### Results -/

theorem eq_ok_of_toOption {ε α : Type} {x : Except ε α} {a : α} (h : x.toOption = some a) :
    x = .ok a := by
  cases x with
  | error e => cases h
  | ok b => cases h; rfl

theorem bind_eq_ok {ε α β : Type} {x : Except ε α} {f : α → Except ε β} {b : β}
    (h : (x >>= f) = .ok b) : ∃ a, x = .ok a ∧ f a = .ok b := by
  cases x with
  | error e => cases h
  | ok a => exact ⟨a, rfl, h⟩

theorem map_eq_ok {ε α β : Type} {x : Except ε α} {f : α → β} {b : β} (h : x.map f = .ok b) :
    ∃ a, x = .ok a ∧ f a = b := by
  cases x with
  | error e => cases h
  | ok a => cases h; exact ⟨a, rfl, rfl⟩

/-! ### Whole numbers -/

/-- A whole number of 64 bits with sign. -/
def IsInt64 (n : Int) : Prop := Int64.minValue.toInt ≤ n ∧ n ≤ Int64.maxValue.toInt

instance (n : Int) : Decidable (IsInt64 n) := inferInstanceAs (Decidable (_ ∧ _))

theorem isInt64_iff {n : Int} :
    IsInt64 n ↔ -(Nat.pow 2 63 : Nat) ≤ n ∧ n < (Nat.pow 2 63 : Nat) := by
  have lower : Int64.minValue.toInt = -(Nat.pow 2 63 : Nat) := rfl
  have upper : Int64.maxValue.toInt = (Nat.pow 2 63 : Nat) - 1 := rfl
  rw [IsInt64, lower, upper, Int.le_sub_one_iff]

theorem Numeral.bounds_of_negative {n : Numeral} {k : Nat} (h : n.value? = some (.negative k)) :
    0 < k ∧ k ≤ Nat.pow 2 63 := by
  unfold value? at h
  dsimp only at h
  split at h
  · split at h
    · cases h
    · split at h
      · rename_i small
        cases h
        simpa using small
      · cases found : Number.Binary64.ofNat? (absorb 0 n.whole).1 <;> rw [found] at h <;> cases h
  · cases found : n.real? <;> rw [found] at h <;> cases h

theorem Reader.isInt64_of_integer {room : Nat} {node : Node} {n : Int}
    (h : integer room node = .ok n) : IsInt64 n := by
  rw [isInt64_iff]
  unfold integer at h
  split at h
  · split at h
    · split at h
      · cases h
        omega
      · cases h
    · rename_i k found
      obtain ⟨positive, small⟩ := Numeral.bounds_of_negative found
      cases h
      omega
    · cases h
    · cases h
  · cases h

theorem Reader.isInt64_of_optional {room : Nat} {node : Node} {n : Int}
    (h : optional integer room node = .ok (some n)) : IsInt64 n := by
  unfold optional at h
  split at h
  · cases h
  · cases read : integer room node with
    | error f => rw [read] at h; cases h
    | ok k =>
      rw [read] at h
      cases h
      exact isInt64_of_integer read

/-! ### Members -/

namespace Record

variable {fields : List Field} {room : Nat} {name : String}

theorem lookup_eq_none {given : Given} (h : name ∉ given.map (·.1)) : given.lookup name = none :=
  List.lookup_eq_none_iff.2 fun m hm => bne_iff_ne.2 fun same =>
    h (List.mem_map.2 ⟨m, hm, same.symm⟩)

/-- A value under a name is of the right shape for the field of that name, or can be passed over. -/
def Fits (fields : List Field) (room : Nat) (s : String) (node : Node) : Prop :=
  match field? fields s with
  | some f => f.accepts room node = .ok ()
  | none => node.fault? = none

/-- A member that a record takes up: its name is a string, and its value fits. -/
def Suits (fields : List Field) (room : Nat) (m : RawString × Node) : Prop :=
  ∃ s, m.1.read = .ok s ∧ Fits fields room s m.2

/-- The value that a member gives for a field, if it stands for one. -/
def giving? (fields : List Field) (m : RawString × Node) : Option (String × Node) :=
  (m.1.read.toOption.bind (field? fields)).map fun f => (f.name, m.2)

theorem lookup_cons_eq_none {given : Given} {s : String} {node : Node} :
    ((s, node) :: given : Given).lookup name = none ↔ s ≠ name ∧ given.lookup name = none := by
  rw [List.lookup_cons]
  by_cases same : name = s
  · simp [same]
  · simp [beq_false_of_ne same, Ne.symm same]

/-- A member whose name cannot be read does not suit. -/
theorem not_suits_of_error {raw : RawString} {node : Node} {fault : Fault}
    (read : raw.read = .error fault) : ¬ Suits fields room (raw, node) := by
  rintro ⟨s, known, -⟩
  rw [read] at known
  cases known

theorem suits_iff_of_read {raw : RawString} {node : Node} {s : String} (read : raw.read = .ok s) :
    Suits fields room (raw, node) ↔ Fits fields room s node := by
  simp [Suits, read]

theorem giving?_of_read {raw : RawString} {node : Node} {s : String} (read : raw.read = .ok s) :
    giving? fields (raw, node) = (field? fields s).map fun f => (f.name, node) := by
  simp [giving?, read, Except.toOption]

/-- With one more member in hand, those to come may not stand for its field either. -/
theorem forall_lookup_cons_eq_none {s : String} {node : Node} {given taken : Given} :
    (∀ g ∈ taken, ((s, node) :: given : Given).lookup g.1 = none) ↔
      s ∉ taken.map (·.1) ∧ ∀ g ∈ taken, given.lookup g.1 = none := by
  simp only [lookup_cons_eq_none, List.mem_map, not_exists, not_and]
  grind

/-- **What a record takes up**: members that suit it, of which no two stand for one field. -/
theorem ofMembers_eq_ok_iff {members : List (RawString × Node)} {before out : Given} :
    ofMembers fields room before members = .ok out ↔
      (∀ m ∈ members, Suits fields room m) ∧
      ((members.filterMap (giving? fields)).map (·.1)).Nodup ∧
      (∀ g ∈ members.filterMap (giving? fields), before.lookup g.1 = none) ∧
      before.reverse ++ members.filterMap (giving? fields) = out := by
  induction members generalizing before with
  | nil => simp [ofMembers]
  | cons m rest ih =>
    obtain ⟨raw, node⟩ := m
    rw [List.forall_mem_cons, ofMembers]
    cases read : raw.read with
    | error fault => simp [not_suits_of_error read, bind, Except.bind]
    | ok s =>
      rw [suits_iff_of_read read, Fits]
      cases found : field? fields s with
      | none =>
        have gives : giving? fields (raw, node) = none := by rw [giving?_of_read read, found]; rfl
        rw [List.filterMap_cons_none gives]
        cases fault : node.fault? <;> simp [found, Reader.skip, fault, ih, bind, Except.bind]
      | some f =>
        have gives : giving? fields (raw, node) = some (f.name, node) := by
          rw [giving?_of_read read, found]; rfl
        rw [List.filterMap_cons_some gives, List.map_cons, List.nodup_cons, List.forall_mem_cons]
        generalize rest.filterMap (giving? fields) = taken at ih ⊢
        cases given : before.lookup f.name with
        | some node' => simp only [bind, Except.bind, found, given]; simp
        | none =>
          cases accepted : f.accepts room node with
          | error fault => simp only [bind, Except.bind, found, given, accepted]; simp
          | ok =>
            simp only [bind, Except.bind, found, given, accepted, ih, forall_lookup_cons_eq_none,
              Option.isSome_none, Bool.false_eq_true, if_false, List.reverse_cons,
              List.append_assoc, List.singleton_append]
            simp only [true_and, and_assoc, and_left_comm]

theorem members_object (fields : List Field) (room : Nat) (members : List (RawString × Node)) :
    Record.members fields (room + 1) (.object members none) =
      ofMembers fields room [] members := by
  simp only [Record.members, objectMembers, Reader.enter]
  cases ofMembers fields room [] members <;> rfl

/-- A record gives for a field the node of the first member of that name, if the field is known by
no other. -/
theorem lookup_ofMembers (known : ∃ f, field? fields name = some f)
    (only : ∀ s f, field? fields s = some f → (f.name = name ↔ s = name))
    {members : List (RawString × Node)} {out : Given}
    (h : ofMembers fields room [] members = .ok out) :
    out.lookup name = (members.find? fun m => m.1.read.toOption = some name).map (·.2) := by
  obtain ⟨-, -, -, rfl⟩ := ofMembers_eq_ok_iff.1 h
  rw [List.reverse_nil, List.nil_append]
  clear h
  induction members with
  | nil => rfl
  | cons m rest ih =>
    by_cases same : m.1.read.toOption = some name
    · obtain ⟨f, found⟩ := known
      have gives : giving? fields m = some (name, m.2) := by
        rw [giving?, same, Option.bind_some, found, Option.map_some, (only name f found).2 rfl]
      rw [List.filterMap_cons_some gives, List.find?_cons_of_pos (by simpa using same)]
      simp
    · rw [List.find?_cons_of_neg (by simpa using same), ← ih]
      cases gives : giving? fields m with
      | none => rw [List.filterMap_cons_none gives]
      | some g =>
        obtain ⟨f, named, rfl⟩ := Option.map_eq_some_iff.1 gives
        obtain ⟨s, read, found⟩ := Option.bind_eq_some_iff.1 named
        have other : f.name ≠ name := fun h => same (((only s f found).1 h) ▸ read)
        rw [List.filterMap_cons_some gives, List.lookup_cons, beq_false_of_ne other.symm]

theorem lookup_perm {given given' : Given} (h : given.Perm given')
    (once : (given.map (·.1)).Nodup) : given.lookup name = given'.lookup name := by
  induction h with
  | nil => rfl
  | cons g _ ih => rw [List.lookup_cons, List.lookup_cons, ih (List.nodup_cons.1 once).2]
  | swap g g' rest =>
    obtain ⟨s, node⟩ := g
    obtain ⟨s', node'⟩ := g'
    have other : s' ≠ s := fun same =>
      (List.nodup_cons.1 once).1 (List.mem_map.2 ⟨_, List.mem_cons_self .., same.symm⟩)
    rw [List.lookup_cons, List.lookup_cons, List.lookup_cons, List.lookup_cons]
    by_cases same : name = s
    · simp [same, beq_false_of_ne other.symm]
    · simp [beq_false_of_ne same]
  | trans h _ ih ih' => exact (ih once).trans (ih' ((h.map _).nodup_iff.1 once))

end Record

end BearerAuth.Json
