import Mathlib.Data.List.Nodup
import RpcBindings.Proofs.Name.Scope
import RpcBindings.Proofs.Outcome

/-!
# RpcBindings.Proofs.Name.Run

Whole runs of a scope: names are claimed and identifiers are reserved in any order, and
what is refused is passed over.  A scope is written in place, so a claim enters its
identifier first and looks at the owner afterwards; where it is refused it leaves no
trace all the same.  What one turn does is said once (`Turn.Sound`), and so is what a
turn means for a later one (`Turn.Binds`); both hold of every run (`turns_safe`).
-/

namespace RpcBindings.Scope

variable {s s' s'' : Scope} {label name identifier owner : String} {language : Language}
  {role : Role} {operation : Operation}

/-! ## Claims in place -/

/-- An identifier that has an owner is not taken again. -/
theorem take_of_some (h : s.owner? identifier = some owner) : s.take identifier name = s := by
  simp only [take, h]

/-- An identifier without an owner is taken. -/
theorem take_of_none (h : s.owner? identifier = none) :
    s.take identifier name = { s with owners := s.owners ++ [(identifier, name)] } := by
  simp only [take, h]

/-- A claim that is carried out in place: the identifier is entered for the name unless
it is there already, and then its owner decides the answer. -/
def claimInPlace (s : Scope) (name : String) : Except NamingError String × Scope :=
  match s.language.identifier s.role name with
  | .error e => (.error e, s)
  | .ok identifier =>
    let owner := (s.owner? identifier).getD name
    (if owner == name then .ok identifier else .error (.conflict s.label owner name identifier),
      s.take identifier name)

/-- In place a claim has the same answer, and nothing is changed where it is refused. -/
theorem claimInPlace_eq (s : Scope) (name : String) :
    s.claimInPlace name =
      match s.claim name with
      | .ok (identifier, s') => (.ok identifier, s')
      | .error e => (.error e, s) := by
  cases hclaim : s.claim name with
  | ok granted =>
      obtain ⟨identifier, s'⟩ := granted
      obtain ⟨hidentifier, howner, rfl⟩ := claim_eq_ok_iff.1 hclaim
      have hname : (s.owner? identifier).getD name = name := by
        cases hfound : s.owner? identifier with
        | none => rfl
        | some owner => exact howner owner hfound
      simp only [claimInPlace, hidentifier, hname, beq_self_eq_true, if_true]
  | error e =>
      rcases claim_eq_error_iff.1 hclaim with
        hempty | ⟨identifier, owner, hidentifier, howner, hne, rfl⟩
      · simp only [claimInPlace, hempty]
      · simp [claimInPlace, hidentifier, howner, hne, take_of_some howner]

/-! ## Runs -/

/-- What can be done to a scope. -/
inductive Operation where
  | claim (name : String)
  | reserve (identifiers : List String)

/-- One operation of a run, with the scope before and after it. -/
structure Turn where
  before : Scope
  operation : Operation
  /-- The answer to a claim. -/
  answer : Option (Except NamingError String)
  after : Scope

/-- Carries out an operation. -/
def turn (s : Scope) : Operation → Turn
  | .claim name => ⟨s, .claim name, some (s.claimInPlace name).1, (s.claimInPlace name).2⟩
  | .reserve identifiers => ⟨s, .reserve identifiers, none, s.reserve identifiers⟩

/-- The turns of a run. -/
def turns (s : Scope) : List Operation → List Turn
  | [] => []
  | operation :: rest => s.turn operation :: turns (s.turn operation).after rest

/-- The scope after a run. -/
def afterRun (s : Scope) (operations : List Operation) : Scope :=
  operations.foldl (fun s operation => (s.turn operation).after) s

/-- A name is granted an identifier. -/
def Turn.Grants (t : Turn) (name identifier : String) : Prop :=
  t.operation = .claim name ∧ t.answer = some (.ok identifier)

/-! ## What is kept -/

/-- A later state of one scope: entries are added behind those that are there. -/
structure Continues (s s' : Scope) : Prop extends Extends s s' where
  label : s'.label = s.label
  owners : s.owners <+: s'.owners

theorem Continues.refl (s : Scope) : Continues s s :=
  ⟨Extends.refl s, rfl, List.prefix_refl _⟩

theorem Continues.trans (h : Continues s s') (h' : Continues s' s'') : Continues s s'' :=
  ⟨h.toExtends.trans h'.toExtends, h'.label.trans h.label, h.owners.trans h'.owners⟩

/-- Taking an identifier forgets no owner. -/
theorem continues_take (s : Scope) (identifier owner : String) :
    Continues s (s.take identifier owner) := by
  refine ⟨extends_take s identifier owner, ?_, ?_⟩
  · unfold take
    split <;> rfl
  · unfold take
    split
    · exact List.prefix_refl _
    · exact List.prefix_append _ _

theorem continues_reserve (s : Scope) (identifiers : List String) :
    Continues s (s.reserve identifiers) := by
  unfold reserve
  induction identifiers generalizing s with
  | nil => exact Continues.refl s
  | cons first rest ih => exact (continues_take s first _).trans (ih _)

theorem continues_turn (s : Scope) (operation : Operation) :
    Continues s (s.turn operation).after := by
  cases operation with
  | reserve identifiers => exact continues_reserve s identifiers
  | claim name =>
      simp only [turn, claimInPlace]
      split
      · exact Continues.refl s
      · exact continues_take s _ name

/-- An identifier has one entry. -/
def Functional (s : Scope) : Prop := (s.owners.map (·.1)).Nodup

/-- Taking an identifier gives none to two owners. -/
theorem Functional.take (h : s.Functional) (identifier owner : String) :
    (s.take identifier owner).Functional := by
  cases hfound : s.owner? identifier with
  | some known => rwa [take_of_some hfound]
  | none =>
      have hfree : identifier ∉ s.owners.map (·.1) := by
        rw [owner?, List.lookup_eq_none_iff] at hfound
        simpa using fun owner hmem => by simpa using hfound _ hmem
      rw [take_of_none hfound, Functional, List.map_append, List.map_singleton]
      exact h.append (List.nodup_singleton _) (List.disjoint_singleton.2 hfree)

theorem Functional.reserve (h : s.Functional) (identifiers : List String) :
    (s.reserve identifiers).Functional := by
  unfold Scope.reserve
  induction identifiers generalizing s with
  | nil => exact h
  | cons first rest ih => exact ih (h.take first _)

theorem Functional.turn (h : s.Functional) (operation : Operation) :
    (s.turn operation).after.Functional := by
  cases operation with
  | reserve identifiers => exact h.reserve identifiers
  | claim name =>
      simp only [Scope.turn, claimInPlace]
      split
      · exact h
      · exact h.take _ name

/-! ## One turn -/

/-- What a turn does in a scope with this label, language and role. -/
structure Turn.Sound (label : String) (language : Language) (role : Role) (t : Turn) : Prop where
  functional : t.after.Functional
  continues : t.before.Continues t.after
  /-- Claims have the answers that the scope gives them. -/
  answers : ∀ name, t.operation = .claim name →
    t.answer = some ((t.before.claim name).map (·.1))
  /-- What is granted is the identifier of the name. -/
  granted : ∀ name identifier, t.Grants name identifier →
    language.identifier role name = .ok identifier ∧
      t.before.claim name = .ok (identifier, t.after)
  /-- What is refused changes nothing. -/
  refused : ∀ e, t.answer = some (.error e) → t.after = t.before
  empty_iff : ∀ name, t.operation = .claim name → ∀ name' language',
    t.answer = some (.error (.empty name' language')) ↔
      name' = name ∧ language' = language ∧ language.casing role name = ""
  conflict_iff : ∀ name, t.operation = .claim name → ∀ label' first second identifier,
    t.answer = some (.error (.conflict label' first second identifier)) ↔
      label' = label ∧ second = name ∧ language.identifier role name = .ok identifier ∧
        t.before.owner? identifier = some first ∧ first ≠ name

/-- The answer to a claim is the identifier that it is granted, or its error. -/
theorem answer_turn_claim (s : Scope) (name : String) :
    (s.turn (.claim name)).answer = some ((s.claim name).map (·.1)) := by
  simp only [turn, claimInPlace_eq]
  cases s.claim name <;> rfl

/-- A claim that is granted leaves the scope that it gives. -/
theorem after_turn_claim_of_ok (h : s.claim name = .ok (identifier, s')) :
    (s.turn (.claim name)).after = s' := by
  simp only [turn, claimInPlace_eq, h]

/-- A claim that is refused leaves the scope as it was. -/
theorem after_turn_claim_of_error {e : NamingError} (h : s.claim name = .error e) :
    (s.turn (.claim name)).after = s := by
  simp only [turn, claimInPlace_eq, h]

/-- Every turn on a scope that comes from an empty one is sound. -/
theorem sound_turn (hstart : (empty label language role).Continues s) (hs : s.Functional)
    (operation : Operation) : (s.turn operation).Sound label language role := by
  have hlabel : s.label = label := hstart.label
  have hlanguage : s.language = language := hstart.language
  have hrole : s.role = role := hstart.role
  cases operation with
  | reserve identifiers =>
      refine ⟨hs.turn _, continues_turn s _, ?_, ?_, ?_, ?_, ?_⟩ <;>
        simp [turn, Turn.Grants]
  | claim name =>
      have hanswer := answer_turn_claim s name
      refine ⟨hs.turn _, continues_turn s _, ?_, ?_, ?_, ?_, ?_⟩
      · rintro _ ⟨⟩
        exact hanswer
      · rintro _ identifier ⟨⟨⟩, hgranted⟩
        rw [hanswer, Option.some.injEq, map_eq_ok_iff] at hgranted
        obtain ⟨⟨found, s'⟩, hclaim, rfl⟩ := hgranted
        rw [after_turn_claim_of_ok hclaim, ← hlanguage, ← hrole]
        exact ⟨(claim_eq_ok_iff.1 hclaim).1, hclaim⟩
      · intro e hrefused
        rw [hanswer, Option.some.injEq, map_eq_error_iff] at hrefused
        exact after_turn_claim_of_error hrefused
      · rintro _ ⟨⟩ name' language'
        rw [hanswer, Option.some.injEq, map_eq_error_iff, claim_eq_error_iff,
          Language.identifier_eq_error_iff, hlanguage, hrole]
        grind
      · rintro _ ⟨⟩ label' first second identifier
        rw [hanswer, Option.some.injEq, map_eq_error_iff, claim_eq_error_iff,
          Language.identifier_eq_error_iff, hlabel, hlanguage, hrole]
        simp only [turn]
        grind

/-! ## Whole runs -/

/-- What an earlier turn means for a later one. -/
structure Turn.Binds (t t' : Turn) : Prop where
  continues : t.after.Continues t'.before
  /-- A name that was granted its identifier is granted it whenever it asks again. -/
  again : ∀ name identifier, t.Grants name identifier → t'.operation = .claim name →
    t'.answer = some (.ok identifier) ∧ t'.after = t'.before
  /-- Other names are granted other identifiers. -/
  apart : ∀ name identifier other identifier', t.Grants name identifier →
    t'.Grants other identifier' → name ≠ other → identifier ≠ identifier'

/-- The scope before a turn of a run continues the scope that the run started from. -/
theorem continues_before (t : Turn) {operations : List Operation} (ht : t ∈ s.turns operations) :
    s.Continues t.before := by
  induction operations generalizing s with
  | nil => contradiction
  | cons operation rest ih =>
      rcases List.mem_cons.1 ht with rfl | hrest
      · cases operation <;> exact Continues.refl s
      · exact (continues_turn s operation).trans (ih hrest)

/-- Every turn of a run is sound. -/
theorem sound_turns (hstart : (empty label language role).Continues s) (hs : s.Functional)
    (operations : List Operation) : ∀ t ∈ s.turns operations, t.Sound label language role := by
  induction operations generalizing s with
  | nil => simp [turns]
  | cons operation rest ih =>
      have hnext := ih (hstart.trans (continues_turn s operation)) (hs.turn operation)
      exact List.forall_mem_cons.2 ⟨sound_turn hstart hs operation, hnext⟩

/-- A sound turn that grants an identifier leaves the name as its owner. -/
theorem Turn.Sound.owns {t : Turn} (h : t.Sound label language role)
    (hgrants : t.Grants name identifier) : t.after.Owns name identifier :=
  (owns_of_claim (h.granted name identifier hgrants).2).2

/-- A sound turn binds every sound turn after it. -/
theorem Turn.Sound.binds {t t' : Turn} (h : t.Sound label language role)
    (h' : t'.Sound label language role) (hcontinues : t.after.Continues t'.before) :
    t.Binds t' where
  continues := hcontinues
  again name identifier hgrants hclaim := by
    have howns := (h.owns hgrants).mono hcontinues.toExtends
    have hanswer : t'.answer = some (.ok identifier) := by
      rw [h'.answers name hclaim, claim_of_owns howns]
      rfl
    have hafter := (h'.granted name identifier ⟨hclaim, hanswer⟩).2
    rw [claim_of_owns howns, Except.ok.injEq, Prod.mk.injEq] at hafter
    exact ⟨hanswer, hafter.2.symm⟩
  apart name identifier other identifier' hgrants hgrants' hne heq := by
    have howns := ((h.owns hgrants).mono hcontinues.toExtends).mono h'.continues.toExtends
    exact hne (howns.name_eq (heq ▸ h'.owns hgrants'))

/-- **Runs of a scope are safe.**  Whatever is claimed and reserved in a fresh scope, and
in whatever order: every turn is sound, and binds all later ones. -/
theorem turns_safe (label : String) (language : Language) (role : Role)
    (operations : List Operation) :
    (∀ t ∈ (empty label language role).turns operations, t.Sound label language role) ∧
      ((empty label language role).turns operations).Pairwise Turn.Binds := by
  have hsafe : ∀ s : Scope, (empty label language role).Continues s → s.Functional →
      (s.turns operations).Pairwise Turn.Binds := by
    induction operations with
    | nil => exact fun _ _ _ => List.Pairwise.nil
    | cons operation rest ih =>
        intro s hstart hs
        have hstart' := hstart.trans (continues_turn s operation)
        have hs' := hs.turn operation
        refine List.pairwise_cons.2 ⟨fun t' ht' => ?_, ih _ hstart' hs'⟩
        exact (sound_turn hstart hs operation).binds
          (sound_turns hstart' hs' rest t' ht') (continues_before t' ht')
  have hempty : (empty label language role).Functional := List.nodup_nil
  exact ⟨sound_turns (Continues.refl _) hempty operations, hsafe _ (Continues.refl _) hempty⟩

example :
    ((empty "fields of user" .go .field).turns [.claim "user_id", .reserve ["Validate"],
      .claim "userId", .claim "validate", .claim "--", .claim "user_id"]).map (·.answer) =
      [some (.ok "UserID"), none,
        some (.error (.conflict "fields of user" "user_id" "userId" "UserID")),
        some (.error (.conflict "fields of user" "Validate (generated)" "validate" "Validate")),
        some (.error (.empty "--" .go)), some (.ok "UserID")] := by
  rfl

end RpcBindings.Scope
