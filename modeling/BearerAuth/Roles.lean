import BearerAuth.Json.Reader

/-!
# Roles

A table maps the roles that a provider grants in a realm to the roles of the application.

* `RoleTable.ofPairs` and `RoleTable.reader` build a table, of each provider role the last entry;
* `RoleTable.get?` looks a role up, `RoleTable.translate` translates a list of roles.
-/

namespace BearerAuth

open Json

/-- Entries with pairwise distinct provider roles. -/
structure RoleTable where
  /-- Provider role and role of the application. -/
  entries : List (String × String)
  deriving DecidableEq, Repr

namespace RoleTable

/-- Adds an entry; an earlier one for the same provider role is overwritten. -/
def insert (t : RoleTable) (provider role : String) : RoleTable :=
  ⟨t.entries.filter (·.1 != provider) ++ [(provider, role)]⟩

/-- The table of some pairs. -/
def ofPairs (pairs : List (String × String)) : RoleTable :=
  pairs.foldl (fun t p => t.insert p.1 p.2) ⟨[]⟩

/-- The table used where none is configured. -/
def standard : RoleTable :=
  ofPairs [("tornjak-viewer-realm-role", "viewer"), ("tornjak-admin-realm-role", "admin")]

/-- Reads a table from an object of strings. -/
def reader : Reader RoleTable := fun room node => (Reader.stringMap room node).map ofPairs

/-- Reads the table of a text. -/
def ofString (s : String) : Except Fault RoleTable := (Json.Document.ofString s).read reader

/-- The role of the application for a provider role. -/
def get? (t : RoleTable) (provider : String) : Option String := t.entries.lookup provider

/-- The number of provider roles. -/
def size (t : RoleTable) : Nat := t.entries.length

/-- The table has no entry. -/
def isEmpty (t : RoleTable) : Bool := t.entries.isEmpty

/-- The roles of the application for some provider roles, in their order and with repetitions; a
role without an entry is dropped. -/
def translate (t : RoleTable) (roles : List String) : List String := roles.filterMap t.get?

theorem translate_append (t : RoleTable) (xs ys : List String) :
    t.translate (xs ++ ys) = t.translate xs ++ t.translate ys :=
  List.filterMap_append

end RoleTable

end BearerAuth
