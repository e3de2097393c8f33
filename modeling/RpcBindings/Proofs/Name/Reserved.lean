import RpcBindings.Proofs.Name.Casing
import RpcBindings.Proofs.Name.Run

/-!
# RpcBindings.Proofs.Name.Reserved

Reserved identifiers.  A scope records a text as the owner of what it reserves, and that
text could be a name as well.  But it has more letters than the identifier, and casings
lose none, so the identifier of such a name is another one: nobody owns a reserved
identifier, and nobody is ever granted it.
-/

namespace RpcBindings

/-- The owner that is recorded for a reserved identifier is no name that has it. -/
theorem Language.casing_generatedOwner_ne (language : Language) (role : Role)
    (identifier : String) :
    language.casing role (Scope.generatedOwner identifier) ≠ identifier := by
  intro heq
  have hcount := language.countP_le_casing role (Scope.generatedOwner identifier)
  have hletters : " (generated)".toList.countP Name.isWordChar = 9 := by decide
  rw [heq, Scope.generatedOwner, String.toList_append, List.countP_append, hletters] at hcount
  omega

namespace Scope

variable {s : Scope} {label name reserved : String} {language : Language} {role : Role}
  {operation : Operation} {operations : List Operation}

/-- An identifier is free, or reserved; no name owns it. -/
def Unclaimed (s : Scope) (identifier : String) : Prop :=
  ∀ owner, s.owner? identifier = some owner → owner = generatedOwner identifier

/-- An identifier stays unclaimed in a turn that does not grant it. -/
theorem Unclaimed.turn (h : s.Unclaimed reserved)
    (hgrants : ∀ name, ¬ (s.turn operation).Grants name reserved) :
    (s.turn operation).after.Unclaimed reserved := by
  cases operation with
  | reserve identifiers =>
      intro owner howner
      have hreserve : (s.turn (.reserve identifiers)).after = s.reserve identifiers := rfl
      rw [hreserve, owner?_reserve] at howner
      cases hfound : s.owner? reserved with
      | none =>
          rw [hfound] at howner
          grind
      | some known =>
          rw [hfound, Option.some_or, Option.some.injEq] at howner
          exact howner ▸ h known hfound
  | claim name =>
      cases hclaim : s.claim name with
      | error e =>
          rw [after_turn_claim_of_error hclaim]
          exact h
      | ok granted =>
          obtain ⟨identifier, s'⟩ := granted
          have hne : reserved ≠ identifier := by
            rintro rfl
            apply hgrants name
            exact ⟨rfl, by rw [answer_turn_claim, hclaim]; rfl⟩
          obtain ⟨-, -, rfl⟩ := claim_eq_ok_iff.1 hclaim
          intro owner howner
          rw [after_turn_claim_of_ok hclaim, owner?_take, if_neg hne, Option.or_none] at howner
          exact h owner howner

/-- A name that no turn of a run grants stays unclaimed. -/
theorem Unclaimed.afterRun (h : s.Unclaimed reserved)
    (hgrants : ∀ t ∈ s.turns operations, ∀ name, ¬ t.Grants name reserved) :
    (s.afterRun operations).Unclaimed reserved := by
  induction operations generalizing s with
  | nil => exact h
  | cons operation rest ih =>
      rw [turns, List.forall_mem_cons] at hgrants
      exact ih (h.turn hgrants.1) hgrants.2

theorem continues_afterRun (s : Scope) (operations : List Operation) :
    s.Continues (s.afterRun operations) := by
  induction operations generalizing s with
  | nil => exact Continues.refl s
  | cons operation rest ih => exact (continues_turn s operation).trans (ih _)

/-- A run gives no identifier to two owners. -/
theorem Functional.afterRun (h : s.Functional) (operations : List Operation) :
    (s.afterRun operations).Functional := by
  induction operations generalizing s with
  | nil => exact h
  | cons operation rest ih => exact ih (h.turn operation)

/-- What is unclaimed when it is reserved belongs to the surrounding text. -/
theorem Unclaimed.owner?_reserve (h : s.Unclaimed reserved) {identifiers : List String}
    (hmem : reserved ∈ identifiers) :
    (s.reserve identifiers).owner? reserved = some (generatedOwner reserved) := by
  rw [Scope.owner?_reserve, if_pos hmem]
  cases hfound : s.owner? reserved with
  | none => rfl
  | some owner => rw [h owner hfound, Option.some_or]

/-- **Reserved identifiers cannot be taken.**  An identifier that is reserved before any
name was granted it is granted to no name later, whatever is claimed and reserved
then; a name that has this identifier meets the text that reserved it. -/
theorem not_grants_reserved {before later : List Operation} {identifiers : List String}
    (hmem : reserved ∈ identifiers)
    (hfree : ∀ t ∈ (empty label language role).turns before, ∀ name, ¬ t.Grants name reserved) :
    ∀ t ∈ ((empty label language role).afterRun (before ++ [.reserve identifiers])).turns later,
      ∀ name, ¬ t.Grants name reserved ∧
        (t.operation = .claim name → language.identifier role name = .ok reserved →
          t.answer = some (.error (.conflict label (generatedOwner reserved) name reserved))) := by
  intro t ht name
  have hstart := continues_afterRun (empty label language role) (before ++ [.reserve identifiers])
  have hfunctional : (empty label language role).Functional := List.nodup_nil
  have hsound := sound_turns hstart (hfunctional.afterRun _) later t ht
  -- The entry that the reservation made is there whenever a later claim asks for it.
  have hunclaimed : ((empty label language role).afterRun before).Unclaimed reserved := by
    apply Unclaimed.afterRun _ hfree
    intro owner howner
    contradiction
  have hreserved := hunclaimed.owner?_reserve hmem
  have hafter : (empty label language role).afterRun (before ++ [.reserve identifiers]) =
      ((empty label language role).afterRun before).reserve identifiers := by
    rw [afterRun, List.foldl_append]
    rfl
  rw [hafter] at hstart ht
  have howner := (continues_before t ht).owner reserved _ hreserved
  constructor
  · intro hgrants
    obtain ⟨hidentifier, hclaim⟩ := hsound.granted name reserved hgrants
    obtain rfl := (claim_eq_ok_iff.1 hclaim).2.1 _ howner
    exact language.casing_generatedOwner_ne role reserved
      (Language.casing_of_identifier hidentifier)
  · intro hclaim hidentifier
    rw [hsound.conflict_iff name hclaim]
    refine ⟨rfl, rfl, hidentifier, howner, ?_⟩
    rintro rfl
    exact language.casing_generatedOwner_ne role reserved
      (Language.casing_of_identifier hidentifier)

/-- The text that is recorded for `Client` is a name like any other, but has another
identifier, and so the name `client` is in conflict. -/
theorem client_not_grants_reserved :
    "Client" ∈ ["Self", "Client"] ∧
      (∀ t ∈ (empty "type declarations" .rust .declaration).turns [.claim "user"],
        ∀ name, ¬ t.Grants name "Client") ∧
      ∀ t ∈ ((empty "type declarations" .rust .declaration).afterRun
          ([.claim "user"] ++ [.reserve ["Self", "Client"]])).turns
            [.claim "Client (generated)", .claim "client"],
        ∀ name, ¬ t.Grants name "Client" ∧
          (t.operation = .claim name →
            Language.rust.identifier .declaration name = .ok "Client" →
              t.answer = some (.error (.conflict "type declarations" (generatedOwner "Client") name
                "Client"))) := by
  have hmem : "Client" ∈ ["Self", "Client"] := by decide
  have hfree : ∀ t ∈ (empty "type declarations" .rust .declaration).turns [.claim "user"],
      ∀ name, ¬ t.Grants name "Client" := by
    rintro t ht name ⟨-, hanswer⟩
    obtain rfl := List.mem_singleton.1 ht
    have huser : some (Except.ok "User" : Except NamingError String) = some (.ok "Client") :=
      hanswer
    simp at huser
  exact ⟨hmem, hfree, not_grants_reserved hmem hfree⟩

end Scope

end RpcBindings
