import RpcBindings.Name.Scope
import RpcBindings.Proofs.Outcome

/-!
# RpcBindings.Proofs.Name.Scope

Ownership in a scope.  A name that was granted its identifier keeps it through
all later claims, and is granted it again whenever it asks.  Two names can own
one identifier only if they are the same name, so what a scope keeps apart is
names, not the things that are declared under them.
-/

namespace RpcBindings

/-- The identifier of a name is the name in the casing of the language, if anything is left. -/
theorem Language.identifier_eq_ite (language : Language) (role : Role) (name : String) :
    language.identifier role name =
      if language.casing role name = "" then .error (.empty name language)
      else .ok (language.casing role name) := by
  unfold Language.identifier
  simp only [String.isEmpty_iff]

/-- A name has an identifier where its casing is not empty. -/
theorem Language.identifier_eq_ok_iff {language : Language} {role : Role}
    {name identifier : String} :
    language.identifier role name = .ok identifier ↔
      language.casing role name = identifier ∧ identifier ≠ "" := by
  rw [identifier_eq_ite]
  split <;> grind

/-- A name without an identifier is one with an empty casing. -/
theorem Language.identifier_eq_error_iff {language : Language} {role : Role} {name : String}
    {e : NamingError} :
    language.identifier role name = .error e ↔
      language.casing role name = "" ∧ e = .empty name language := by
  rw [identifier_eq_ite]
  split <;> grind

/-- The identifier of a name is its casing. -/
theorem Language.casing_of_identifier {language : Language} {role : Role} {name identifier : String}
    (h : language.identifier role name = .ok identifier) :
    language.casing role name = identifier :=
  (identifier_eq_ok_iff.1 h).1

namespace Scope

variable {s s' s'' : Scope} {name other identifier : String}

/-- A later state of a scope: what was taken has the same owner still. -/
structure Extends (s s' : Scope) : Prop where
  language : s'.language = s.language
  role : s'.role = s.role
  owner : ∀ identifier owner, s.owner? identifier = some owner →
    s'.owner? identifier = some owner

theorem Extends.refl (s : Scope) : Extends s s := ⟨rfl, rfl, fun _ _ h => h⟩

theorem Extends.trans (h : Extends s s') (h' : Extends s' s'') : Extends s s'' where
  language := h'.language.trans h.language
  role := h'.role.trans h.role
  owner identifier owner howner := h'.owner identifier owner (h.owner identifier owner howner)

/-- Taking an identifier extends a scope. -/
theorem extends_take (s : Scope) (identifier owner : String) :
    Extends s (s.take identifier owner) where
  language := by
    unfold take
    split <;> rfl
  role := by
    unfold take
    split <;> rfl
  owner other known h := by
    rw [owner?_take, h, Option.some_or]

/-- Reserving identifiers extends a scope. -/
theorem extends_reserve (s : Scope) (identifiers : List String) :
    Extends s (s.reserve identifiers) := by
  unfold reserve
  induction identifiers generalizing s with
  | nil => exact Extends.refl s
  | cons first rest ih => exact (extends_take s first _).trans (ih _)

/-- A name is the owner of its identifier. -/
def Owns (s : Scope) (name identifier : String) : Prop :=
  s.language.identifier s.role name = .ok identifier ∧ s.owner? identifier = some name

/-- An owner stays one in every extension. -/
theorem Owns.mono (h : Owns s name identifier) (hext : Extends s s') : Owns s' name identifier := by
  refine ⟨?_, hext.owner identifier name h.2⟩
  rw [hext.language, hext.role]
  exact h.1

/-- An identifier has one owner. -/
theorem Owns.name_eq (h : Owns s name identifier) (h' : Owns s other identifier) :
    name = other :=
  Option.some.inj (h.2.symm.trans h'.2)

/-- A claim is granted where the identifier has no other owner. -/
theorem claim_eq_ok_iff :
    s.claim name = .ok (identifier, s') ↔
      s.language.identifier s.role name = .ok identifier ∧
        (∀ owner, s.owner? identifier = some owner → owner = name) ∧
          s' = s.take identifier name := by
  unfold claim
  cases s.language.identifier s.role name with
  | error e => simp
  | ok found =>
      cases howner : s.owner? found with
      | none => grind
      | some owner =>
          have htake : s.take found name = s := by simp only [take, howner]
          by_cases heq : owner = name <;> grind

/-- It is refused where the name leaves nothing to write, or the identifier has
another owner. -/
theorem claim_eq_error_iff {e : NamingError} :
    s.claim name = .error e ↔
      s.language.identifier s.role name = .error e ∨
        ∃ identifier owner, s.language.identifier s.role name = .ok identifier ∧
          s.owner? identifier = some owner ∧ owner ≠ name ∧
            e = .conflict s.label owner name identifier := by
  unfold claim
  cases s.language.identifier s.role name with
  | error e => simp
  | ok found =>
      cases howner : s.owner? found with
      | none => grind
      | some owner =>
          by_cases heq : owner = name <;> grind

/-- A name that claims its identifier with success owns it afterwards. -/
theorem owns_of_claim (h : s.claim name = .ok (identifier, s')) :
    Extends s s' ∧ Owns s' name identifier := by
  obtain ⟨hidentifier, howner, rfl⟩ := claim_eq_ok_iff.1 h
  have hext := extends_take s identifier name
  refine ⟨hext, ?_, ?_⟩
  · rw [hext.language, hext.role]
    exact hidentifier
  · rw [owner?_take, if_pos rfl]
    cases hfound : s.owner? identifier with
    | none => rfl
    | some owner => rw [howner owner hfound, Option.some_or]

/-- An owner is granted its identifier again, and nothing changes. -/
theorem claim_of_owns (h : Owns s name identifier) : s.claim name = .ok (identifier, s) := by
  unfold claim
  simp only [h.1, h.2, beq_self_eq_true, if_true]

/-! ## Many claims -/

/-- A name would be granted its identifier. -/
def Grantable (s : Scope) (name : String) : Prop :=
  s.language.casing s.role name ≠ "" ∧
    ∀ owner, s.owner? (s.language.casing s.role name) = some owner → owner = name

/-- A claim is granted exactly where the name is grantable. -/
theorem claim_isOk_iff : (∃ granted, s.claim name = .ok granted) ↔ s.Grantable name := by
  simp only [Prod.exists, claim_eq_ok_iff, Language.identifier_eq_ok_iff, Grantable]
  grind

/-- After a claim a name would be granted its identifier if it would be before, and the
identifier is not that of another name that has claimed it. -/
theorem grantable_of_claim (h : s.claim name = .ok (identifier, s')) :
    s'.Grantable other ↔ s.Grantable other ∧
      (s.language.casing s.role other = s.language.casing s.role name → other = name) := by
  obtain ⟨hidentifier, howner, rfl⟩ := claim_eq_ok_iff.1 h
  have hext := extends_take s identifier name
  obtain rfl := Language.casing_of_identifier hidentifier
  rw [Grantable, Grantable, hext.language, hext.role, and_assoc]
  refine and_congr_right fun _ => ?_
  by_cases heq : s.language.casing s.role other = s.language.casing s.role name
  · rw [owner?_take, if_pos heq, heq]
    cases hfound : s.owner? (s.language.casing s.role name) with
    | none => simp [eq_comm]
    | some owner =>
        obtain rfl := howner owner hfound
        simp [eq_comm]
  · rw [owner?_take, if_neg heq, Option.or_none]
    simp [heq]

/-- Names are all granted their identifiers if each of them would be, and no two of them
have the same. -/
theorem claimAll_isOk_iff {names : List String} :
    (∃ s', s.claimAll names = .ok s') ↔
      (∀ name ∈ names, s.Grantable name) ∧
        ∀ name ∈ names, ∀ other ∈ names,
          s.language.casing s.role name = s.language.casing s.role other → name = other := by
  induction names generalizing s with
  | nil => simp [claimAll]
  | cons name rest ih =>
      have hcons : (∃ s', s.claimAll (name :: rest) = .ok s') ↔
          ∃ identifier s₁, s.claim name = .ok (identifier, s₁) ∧
            ∃ s', s₁.claimAll rest = .ok s' := by
        simp only [claimAll, bind_eq_ok_iff, Prod.exists]
        grind
      rw [hcons]
      constructor
      · rintro ⟨identifier, s₁, hclaim, hrest⟩
        obtain ⟨hgrantable, hinj⟩ := ih.1 hrest
        have hext := (owns_of_claim hclaim).1
        rw [hext.language, hext.role] at hinj
        simp only [grantable_of_claim hclaim] at hgrantable
        have hname := claim_isOk_iff.1 ⟨_, hclaim⟩
        grind
      · rintro ⟨hgrantable, hinj⟩
        obtain ⟨⟨identifier, s₁⟩, hclaim⟩ := claim_isOk_iff.2 (hgrantable name List.mem_cons_self)
        have hext := (owns_of_claim hclaim).1
        refine ⟨identifier, s₁, hclaim, ih.2 ?_⟩
        rw [hext.language, hext.role]
        simp only [grantable_of_claim hclaim]
        grind

/-- Reserved identifiers belong to the surrounding text. -/
theorem owner?_reserve (s : Scope) (identifiers : List String) (identifier : String) :
    (s.reserve identifiers).owner? identifier =
      (s.owner? identifier).or
        (if identifier ∈ identifiers then some (generatedOwner identifier) else none) := by
  unfold reserve
  induction identifiers generalizing s with
  | nil => simp
  | cons first rest ih =>
      rw [List.foldl_cons, ih, owner?_take, Option.or_assoc]
      congr 1
      by_cases heq : identifier = first
      · subst heq
        simp
      · simp [heq]

end Scope

end RpcBindings
