import RpcBindings.Emission.Emitter
import RpcBindings.Proofs.Name.Reserved
import RpcBindings.Proofs.Outcome

/-!
# RpcBindings.Proofs.Emission.Claims

The names that a schema claims.  An emitter exists only when every name that is claimed in it owns
its identifier, and later claims leave an owner in place (`owns_of_create`).  So a name has its
identifier to itself among the names of its role, and shares it with nothing that the document
declares besides.
-/

namespace RpcBindings

/-! ## The names that are declared -/

namespace Schema

/-- The names under which a method declares its input and output. -/
def ioNames (method : Method) : List String :=
  (if method.inputs.isEmpty then [] else [method.inputName]) ++
    (if method.outputs.isEmpty then [] else [method.outputName])

/-- The names of all declarations, in the order in which they are written. -/
def declaredNames (schema : Schema) : List String :=
  schema.types.map (·.name) ++ schema.methods.flatMap ioNames

/-- A method declares its inputs and its outputs, each where it has some. -/
theorem mem_ioNames {method : Method} {name : String} :
    name ∈ ioNames method ↔
      (method.inputs ≠ [] ∧ name = method.inputName) ∨
        (method.outputs ≠ [] ∧ name = method.outputName) := by
  unfold ioNames
  cases method.inputs <;> cases method.outputs <;> simp

/-- A method claims the declarations of its inputs and outputs. -/
theorem mem_methodClaims {method : Method} {name : String} :
    (Role.declaration, name) ∈ methodClaims method ↔ name ∈ ioNames method := by
  unfold methodClaims ioNames
  cases method.inputs <;> cases method.outputs <;> simp

/-- Every method claims its own name. -/
theorem methodName_mem_claims {schema : Schema} {method : Method} (h : method ∈ schema.methods) :
    (Role.method, method.name) ∈ schema.claims := by
  refine List.mem_append_right _ (List.mem_flatMap.2 ⟨method, h, ?_⟩)
  simp [methodClaims]

/-- The names that are claimed for declarations are those that are declared. -/
theorem mem_claims {schema : Schema} {name : String} :
    (Role.declaration, name) ∈ schema.claims ↔ name ∈ schema.declaredNames := by
  simp only [claims, declaredNames, List.mem_append, List.mem_map, List.mem_flatMap,
    mem_methodClaims, Prod.mk.injEq, true_and]

end Schema

namespace Emitter

variable {language : Language} {schema : Schema} {options : Options} {e e' e'' : Emitter}
  {name identifier : String}

/-! ## Claiming all names -/

/-- The scope that names of a role are claimed in. -/
def scopeOf (e : Emitter) : Role → Scope
  | .method => e.methods
  | _ => e.declarations

/-- A later state of an emitter, in which more names are claimed. -/
structure Extends (e e' : Emitter) : Prop where
  language : e'.language = e.language
  schema : e'.schema = e.schema
  options : e'.options = e.options
  scope : ∀ role, (e.scopeOf role).Extends (e'.scopeOf role)

theorem Extends.refl (e : Emitter) : Extends e e :=
  ⟨rfl, rfl, rfl, fun _ => Scope.Extends.refl _⟩

theorem Extends.trans (h : Extends e e') (h' : Extends e' e'') : Extends e e'' where
  language := h'.language.trans h.language
  schema := h'.schema.trans h.schema
  options := h'.options.trans h.options
  scope role := (h.scope role).trans (h'.scope role)

/-- The emitter with another scope for the names of a role. -/
def withScope (e : Emitter) (role : Role) (s : Scope) : Emitter :=
  match role with
  | .method => { e with methods := s }
  | _ => { e with declarations := s }

/-- The scope of a role is the one that was set for it. -/
@[simp] theorem scopeOf_withScope (e : Emitter) (role : Role) (s : Scope) :
    (e.withScope role s).scopeOf role = s := by
  cases role <;> rfl

/-- An emitter is extended where one of its scopes is. -/
theorem extends_withScope {role : Role} {s : Scope} (h : (e.scopeOf role).Extends s) :
    Extends e (e.withScope role s) := by
  cases role with
  | method =>
      refine ⟨rfl, rfl, rfl, fun other => ?_⟩
      cases other with
      | method => exact h
      | _ => exact Scope.Extends.refl _
  | _ =>
      refine ⟨rfl, rfl, rfl, fun other => ?_⟩
      cases other with
      | method => exact Scope.Extends.refl _
      | _ => exact h

/-- A name is claimed in the scope of its role, and only this scope changes. -/
theorem claim_eq_ok_iff {role : Role} :
    e.claim (role, name) = .ok e' ↔
      ∃ identifier s, (e.scopeOf role).claim name = .ok (identifier, s) ∧
        e.withScope role s = e' := by
  cases role <;>
    simp only [claim, scopeOf, withScope, bind_eq_ok_iff, pure_eq_ok, Except.ok.injEq, Prod.exists]

/-- A name that is claimed is the owner of its identifier. -/
theorem owns_of_claim {role : Role} (h : e.claim (role, name) = .ok e') :
    Extends e e' ∧ ∃ identifier, (e'.scopeOf role).Owns name identifier := by
  obtain ⟨identifier, s, hclaim, rfl⟩ := claim_eq_ok_iff.1 h
  obtain ⟨hext, howns⟩ := Scope.owns_of_claim hclaim
  exact ⟨extends_withScope hext, identifier, by rwa [scopeOf_withScope]⟩

/-- After a run of claims, each of the names owns an identifier. -/
theorem owns_of_foldlM_claim {claims : List (Role × String)}
    (h : claims.foldlM claim e = .ok e') :
    Extends e e' ∧
      ∀ entry ∈ claims, ∃ identifier, (e'.scopeOf entry.1).Owns entry.2 identifier := by
  induction claims generalizing e with
  | nil =>
      simp only [List.foldlM_nil, pure_eq_ok, Except.ok.injEq] at h
      subst h
      exact ⟨Extends.refl e, by simp⟩
  | cons entry rest ih =>
      rw [List.foldlM_cons, bind_eq_ok_iff] at h
      obtain ⟨e₁, hclaim, hrest⟩ := h
      obtain ⟨hext, identifier, howns⟩ := owns_of_claim hclaim
      obtain ⟨hext', hall⟩ := ih hrest
      refine ⟨hext.trans hext', List.forall_mem_cons.2 ⟨⟨identifier, ?_⟩, hall⟩⟩
      exact howns.mono (hext'.scope entry.1)

/-- In an emitter every claimed name is the owner of its identifier. -/
theorem owns_of_create (h : create language schema options = .ok e) :
    Extends (start language schema options) e ∧
      ∀ entry ∈ schema.claims, ∃ identifier, (e.scopeOf entry.1).Owns entry.2 identifier :=
  owns_of_foldlM_claim h

section

variable {role : Role} (h : create language schema options = .ok e)
include h

/-- A claimed name is granted the identifier that it owns. -/
theorem exists_owns (hname : (role, name) ∈ schema.claims) :
    ∃ identifier, (e.scopeOf role).Owns name identifier ∧
      ((e.scopeOf role).claim name).map (·.1) = .ok identifier := by
  obtain ⟨identifier, howns⟩ := (owns_of_create h).2 _ hname
  refine ⟨identifier, howns, ?_⟩
  rw [Scope.claim_of_owns howns]
  rfl

/-- Only one claimed name of a role has an identifier. -/
theorem claimed_inj {other : String} (hname : (role, name) ∈ schema.claims)
    (hother : (role, other) ∈ schema.claims)
    (heq : ((e.scopeOf role).claim name).map (·.1) = .ok identifier)
    (heq' : ((e.scopeOf role).claim other).map (·.1) = .ok identifier) : name = other := by
  obtain ⟨found, howns, hfound⟩ := exists_owns h hname
  obtain ⟨found', howns', hfound'⟩ := exists_owns h hother
  obtain rfl : found = identifier := Except.ok.inj (hfound.symm.trans heq)
  obtain rfl : found' = found := Except.ok.inj (hfound'.symm.trans heq')
  exact howns.name_eq howns'

/-- An emitter declares a claimed name under the identifier that the name owns. -/
theorem owns_declaration (hname : name ∈ schema.declaredNames) :
    ∃ identifier, e.declarations.Owns name identifier ∧ e.declarationName name = .ok identifier :=
  exists_owns h (Schema.mem_claims.2 hname)

/-- Two declared names with one identifier are the same. -/
theorem declarationName_inj {other : String} (hname : name ∈ schema.declaredNames)
    (hother : other ∈ schema.declaredNames) (heq : e.declarationName name = .ok identifier)
    (heq' : e.declarationName other = .ok identifier) : name = other :=
  claimed_inj h (Schema.mem_claims.2 hname) (Schema.mem_claims.2 hother) heq heq'

/-- A method is called by the identifier that its name owns. -/
theorem owns_method {method : Method} (hmethod : method ∈ schema.methods) :
    ∃ identifier, e.methods.Owns method.name identifier ∧
      e.methodName method.name = .ok identifier :=
  exists_owns h (Schema.methodName_mem_claims hmethod)

/-- Two methods with one identifier are the same. -/
theorem methodName_inj {method other : Method} (hmethod : method ∈ schema.methods)
    (hother : other ∈ schema.methods) (heq : e.methodName method.name = .ok identifier)
    (heq' : e.methodName other.name = .ok identifier) : method = other := by
  have hname := claimed_inj h (Schema.methodName_mem_claims hmethod)
    (Schema.methodName_mem_claims hother) heq heq'
  exact List.inj_on_of_nodup_map schema.methodNames_nodup hmethod hother hname

/-! ## Reserved identifiers -/

/-- The scopes of an emitter have had the identifiers of the document reserved. -/
theorem extends_reserved (hrole : role ≠ .field) :
    ∃ label, ((Scope.empty label language role).reserve (language.reserved options role)).Extends
      (e.scopeOf role) := by
  have hext := (owns_of_create h).1.scope role
  cases role with
  | field => contradiction
  | declaration => exact ⟨_, hext⟩
  | method => exact ⟨_, hext⟩

/-- Names are granted in the casing of their role. -/
theorem identifier_of_claimed (hrole : role ≠ .field)
    (hname : ((e.scopeOf role).claim name).map (·.1) = .ok identifier) :
    language.identifier role name = .ok identifier := by
  obtain ⟨⟨found, scope⟩, hclaim, rfl⟩ := map_eq_ok_iff.1 hname
  obtain ⟨label, hext⟩ := extends_reserved h hrole
  have hempty := (Scope.extends_reserve _ _).trans hext
  have hidentifier := (Scope.claim_eq_ok_iff.1 hclaim).1
  rw [hempty.language, hempty.role] at hidentifier
  exact hidentifier

/-- No owner has an identifier that the document declares besides. -/
theorem notMem_reserved (hrole : role ≠ .field) (howns : (e.scopeOf role).Owns name identifier) :
    identifier ∉ language.reserved options role := by
  intro hreserved
  obtain ⟨label, hext⟩ := extends_reserved h hrole
  have howner : ((Scope.empty label language role).reserve
      (language.reserved options role)).owner? identifier =
        some (Scope.generatedOwner identifier) := by
    rw [Scope.owner?_reserve, if_pos hreserved]
    rfl
  obtain rfl : name = Scope.generatedOwner identifier :=
    Option.some.inj (howns.2.symm.trans (hext.owner identifier _ howner))
  have hclaimed : ((e.scopeOf role).claim (Scope.generatedOwner identifier)).map (·.1) =
      .ok identifier := by
    rw [Scope.claim_of_owns howns]
    rfl
  exact language.casing_generatedOwner_ne role identifier
    (Language.casing_of_identifier (identifier_of_claimed h hrole hclaimed))

end

end Emitter

end RpcBindings
