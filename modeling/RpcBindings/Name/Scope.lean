import RpcBindings.Name.Style

/-!
# RpcBindings.Name.Scope

Sibling identifiers that must stay distinct.  A scope knows for each identifier the name that owns
it: a name may claim its identifier any number of times, and no other name may claim it then.
Identifiers that the surrounding text declares itself are reserved, and belong to no name.
-/

namespace RpcBindings

/-- The identifiers that are taken, and by which names. -/
structure Scope where
  /-- The scope as messages call it. -/
  label : String
  language : Language
  role : Role
  /-- Identifiers and their owners, in the order in which they were taken. -/
  owners : List (String × String)

namespace Scope

def empty (label : String) (language : Language) (role : Role) : Scope :=
  ⟨label, language, role, []⟩

def owner? (s : Scope) (identifier : String) : Option String :=
  s.owners.lookup identifier

/-- Gives an identifier to an owner unless it is taken already. -/
def take (s : Scope) (identifier owner : String) : Scope :=
  match s.owner? identifier with
  | some _ => s
  | none => { s with owners := s.owners ++ [(identifier, owner)] }

/-- A taken identifier keeps its owner, a free one gets the given owner, and no other changes. -/
theorem owner?_take (s : Scope) (identifier owner other : String) :
    (s.take identifier owner).owner? other =
      (s.owner? other).or (if other = identifier then some owner else none) := by
  unfold take
  cases h : s.owner? identifier with
  | some known =>
    by_cases hne : other = identifier
    · subst hne
      simp [h]
    · simp [hne]
  | none =>
    have hlast : [(identifier, owner)].lookup other =
        if other = identifier then some owner else none := by
      by_cases hne : other = identifier
      · rw [hne, List.lookup_cons_self, if_pos rfl]
      · rw [List.lookup_cons, beq_false_of_ne hne, if_neg hne, List.lookup_nil]
    have hlookup := @List.lookup_append _ _ _ s.owners [(identifier, owner)] other
    rwa [hlast] at hlookup

/-- The identifier of a name, which the name owns from now on. -/
def claim (s : Scope) (name : String) : Except NamingError (String × Scope) :=
  match s.language.identifier s.role name with
  | .error e => .error e
  | .ok identifier =>
    match s.owner? identifier with
    | some owner =>
      if owner == name then .ok (identifier, s)
      else .error (.conflict s.label owner name identifier)
    | none => .ok (identifier, s.take identifier name)

/-- The owner that is recorded for an identifier of the surrounding text. -/
def generatedOwner (identifier : String) : String :=
  identifier ++ " (generated)"

/-- Takes identifiers that the surrounding text declares. -/
def reserve (s : Scope) (identifiers : List String) : Scope :=
  identifiers.foldl (fun s identifier => s.take identifier (generatedOwner identifier)) s

/-- Claims names one after the other. -/
def claimAll (s : Scope) : List String → Except NamingError Scope
  | [] => .ok s
  | name :: rest => do
    let (_, s) ← s.claim name
    claimAll s rest

end Scope

end RpcBindings
