import RpcBindings.Proofs.Emission.Claims

/-!
# RpcBindings.Proofs.Emission.Naming

When a schema can be named.  An emitter is made by claiming names one after the other in
two scopes, up to the first that is refused; but whether it comes into being is a
condition on the names as such (`Language.Distinguishes`), so the order in which types and
methods are declared does not matter.  Once it is there, every name it was made with is
granted its identifier again, and the emitter stays as it is.
-/

namespace RpcBindings

/-! ## The condition -/

/-- Every one of these names has an identifier, which is none of the reserved ones and
not that of another name. -/
structure Language.Distinguishes (language : Language) (role : Role)
    (reserved names : List String) : Prop where
  nonempty : ∀ name ∈ names, language.casing role name ≠ ""
  free : ∀ name ∈ names, language.casing role name ∉ reserved
  injective : ∀ name ∈ names, ∀ other ∈ names,
    language.casing role name = language.casing role other → name = other

/-- Names that are told apart are so among fewer of them. -/
theorem Language.Distinguishes.subset {language : Language} {role : Role}
    {reserved names names' : List String} (h : language.Distinguishes role reserved names)
    (hsubset : names' ⊆ names) : language.Distinguishes role reserved names' where
  nonempty name hname := h.nonempty name (hsubset hname)
  free name hname := h.free name (hsubset hname)
  injective name hname other hother := h.injective name (hsubset hname) other (hsubset hother)

/-- The identifiers under which a schema declares its types, inputs and outputs can be
told apart, and so can those of its methods. -/
def Schema.Nameable (schema : Schema) (language : Language) (options : Options) : Prop :=
  language.Distinguishes .declaration (language.reserved options .declaration)
      schema.declaredNames ∧
    language.Distinguishes .method (language.reserved options .method)
      (schema.methods.map (·.name))

namespace Scope

variable {language : Language} {role : Role} {label : String} {reserved names : List String}

/-- Names are granted their identifiers in a scope with reserved ones if they can be told
apart from these and from each other. -/
theorem claimAll_reserve_isOk_iff (label : String) (language : Language) (role : Role)
    (reserved names : List String) :
    (∃ s, ((empty label language role).reserve reserved).claimAll names = .ok s) ↔
      language.Distinguishes role reserved names := by
  have hext := extends_reserve (empty label language role) reserved
  have hlanguage : ((empty label language role).reserve reserved).language = language :=
    hext.language
  have hrole : ((empty label language role).reserve reserved).role = role := hext.role
  have howner : ∀ identifier, ((empty label language role).reserve reserved).owner? identifier =
      if identifier ∈ reserved then some (generatedOwner identifier) else none := by
    intro identifier
    rw [owner?_reserve]
    rfl
  have hgrantable : ∀ name, ((empty label language role).reserve reserved).Grantable name ↔
      language.casing role name ≠ "" ∧ language.casing role name ∉ reserved := by
    intro name
    rw [Grantable, hlanguage, hrole, howner]
    refine and_congr_right fun _ => ?_
    by_cases hmem : language.casing role name ∈ reserved
    · -- The recorded owner is not the name, which has another identifier.
      have hne : generatedOwner (language.casing role name) ≠ name := by
        intro heq
        have hcasing := language.casing_generatedOwner_ne role (language.casing role name)
        rw [heq] at hcasing
        exact hcasing rfl
      simp [hmem, hne]
    · simp [hmem]
  rw [claimAll_isOk_iff, hlanguage, hrole]
  simp only [hgrantable]
  constructor
  · rintro ⟨hnames, hinj⟩
    exact ⟨fun name h => (hnames name h).1, fun name h => (hnames name h).2, hinj⟩
  · intro h
    exact ⟨fun name hname => ⟨h.nonempty name hname, h.free name hname⟩, h.injective⟩

end Scope

namespace Emitter

variable {language : Language} {schema schema' : Schema} {options : Options} {e e' : Emitter}
  {name identifier : String}

/-! ## The two scopes -/

/-- The names among some claims that are claimed for methods. -/
def methodNames (claims : List (Role × String)) : List String :=
  (claims.filter (·.1 == .method)).map (·.2)

/-- The names among some claims that are claimed for declarations. -/
def declarationNames (claims : List (Role × String)) : List String :=
  (claims.filter (·.1 != .method)).map (·.2)

/-- Whatever is no method is claimed among the declarations. -/
theorem claim_of_ne_method {role : Role} (h : role ≠ .method) :
    e.claim (role, name) =
      e.declarations.claim name >>= fun granted => .ok { e with declarations := granted.2 } := by
  cases role with
  | method => contradiction
  | _ => rfl

/-- Claims succeed if those for methods succeed among themselves, and the others do. -/
theorem foldlM_claim_eq_ok_iff {claims : List (Role × String)} :
    claims.foldlM claim e = .ok e' ↔
      ∃ methods declarations, e.methods.claimAll (methodNames claims) = .ok methods ∧
        e.declarations.claimAll (declarationNames claims) = .ok declarations ∧
          e' = { e with methods, declarations } := by
  induction claims generalizing e with
  | nil =>
      simp only [List.foldlM_nil, pure_eq_ok, Except.ok.injEq, methodNames, declarationNames,
        List.filter_nil, List.map_nil, Scope.claimAll]
      constructor
      · rintro rfl
        exact ⟨_, _, rfl, rfl, rfl⟩
      · rintro ⟨_, _, rfl, rfl, rfl⟩
        rfl
  | cons entry rest ih =>
      obtain ⟨role, name⟩ := entry
      rw [List.foldlM_cons, bind_eq_ok_iff]
      simp only [ih]
      by_cases hrole : role = .method
      · subst hrole
        have hmethods : methodNames ((.method, name) :: rest) = name :: methodNames rest := rfl
        have hothers : declarationNames ((.method, name) :: rest) = declarationNames rest := rfl
        rw [hmethods, hothers]
        simp only [claim, Scope.claimAll, bind_eq_ok_iff, pure_eq_ok, Except.ok.injEq]
        constructor
        · rintro ⟨_, ⟨granted, hclaim, rfl⟩, methods, declarations, hrest, hrest', rfl⟩
          exact ⟨methods, declarations, ⟨granted, hclaim, hrest⟩, hrest', rfl⟩
        · rintro ⟨methods, declarations, ⟨granted, hclaim, hrest⟩, hrest', rfl⟩
          exact ⟨_, ⟨granted, hclaim, rfl⟩, methods, declarations, hrest, hrest', rfl⟩
      · have hmethods : methodNames ((role, name) :: rest) = methodNames rest := by
          simp [methodNames, hrole]
        have hothers :
            declarationNames ((role, name) :: rest) = name :: declarationNames rest := by
          simp [declarationNames, hrole]
        rw [hmethods, hothers]
        simp only [claim_of_ne_method hrole, Scope.claimAll, bind_eq_ok_iff, Except.ok.injEq]
        constructor
        · rintro ⟨_, ⟨granted, hclaim, rfl⟩, methods, declarations, hrest, hrest', rfl⟩
          exact ⟨methods, declarations, hrest, ⟨granted, hclaim, hrest'⟩, rfl⟩
        · rintro ⟨methods, declarations, hrest, ⟨granted, hclaim, hrest'⟩, rfl⟩
          exact ⟨_, ⟨granted, hclaim, rfl⟩, methods, declarations, hrest, hrest', rfl⟩

/-- The methods that claim a name are those of the schema, in order. -/
theorem methodNames_claims (schema : Schema) :
    methodNames schema.claims = schema.methods.map (·.name) := by
  have hmethod : ∀ method, (Schema.methodClaims method).filter (·.1 == .method) =
      [(.method, method.name)] := by
    intro method
    unfold Schema.methodClaims
    cases method.inputs <;> cases method.outputs <;> rfl
  have htype : (Role.declaration == Role.method) = false := by decide
  rw [methodNames, Schema.claims, List.filter_append, List.filter_flatMap]
  simp [hmethod, htype, List.filter_map, Function.comp_def,
    ← List.map_eq_flatMap]

/-- The declarations that claim a name are those of the schema, in order. -/
theorem declarationNames_claims (schema : Schema) :
    declarationNames schema.claims = schema.declaredNames := by
  have hmethod : ∀ method, ((Schema.methodClaims method).filter (·.1 != .method)).map (·.2) =
      Schema.ioNames method := by
    intro method
    unfold Schema.methodClaims Schema.ioNames
    cases method.inputs <;> cases method.outputs <;> rfl
  have htype : (Role.declaration != Role.method) = true := by decide
  rw [declarationNames, Schema.claims, Schema.declaredNames, List.filter_append,
    List.filter_flatMap]
  simp [hmethod, htype, List.filter_map, Function.comp_def, List.map_flatMap]

/-- An emitter is created exactly for a schema that is nameable. -/
theorem create_isOk_iff :
    (∃ e, create language schema options = .ok e) ↔ schema.Nameable language options := by
  have hdeclarations := Scope.claimAll_reserve_isOk_iff "type declarations" language .declaration
    (language.reserved options .declaration) schema.declaredNames
  have hmethods := Scope.claimAll_reserve_isOk_iff "client methods" language .method
    (language.reserved options .method) (schema.methods.map (·.name))
  rw [Schema.Nameable, ← hdeclarations, ← hmethods]
  simp only [create, foldlM_claim_eq_ok_iff, methodNames_claims, declarationNames_claims, start]
  constructor
  · rintro ⟨_, methods, declarations, hmethods, hdeclarations, -⟩
    exact ⟨⟨declarations, hdeclarations⟩, ⟨methods, hmethods⟩⟩
  · rintro ⟨⟨declarations, hdeclarations⟩, ⟨methods, hmethods⟩⟩
    exact ⟨_, methods, declarations, hmethods, hdeclarations, rfl⟩

/-! ## Any order -/

/-- A schema with fewer types and methods declares fewer names. -/
theorem declaredNames_subset (htypes : schema'.types ⊆ schema.types)
    (hmethods : schema'.methods ⊆ schema.methods) :
    schema'.declaredNames ⊆ schema.declaredNames := by
  intro name hname
  simp only [Schema.declaredNames, List.mem_append, List.mem_map, List.mem_flatMap] at hname ⊢
  obtain ⟨type, htype, heq⟩ | ⟨method, hmethod, hio⟩ := hname
  · exact .inl ⟨type, htypes htype, heq⟩
  · exact .inr ⟨method, hmethods hmethod, hio⟩

/-- A schema with some of the types and methods of another one can be named if the other
one can. -/
theorem nameable_of_subset (htypes : schema'.types ⊆ schema.types)
    (hmethods : schema'.methods ⊆ schema.methods) (h : schema.Nameable language options) :
    schema'.Nameable language options :=
  ⟨h.1.subset (declaredNames_subset htypes hmethods), h.2.subset (List.map_subset _ hmethods)⟩

/-! ## Later claims -/

/-- A claim is made in the scope of its role. -/
theorem claim_scopeOf {role : Role} (h : e.claim (role, name) = .ok e') :
    ∃ identifier, (e.scopeOf role).claim name = .ok (identifier, e'.scopeOf role) := by
  obtain ⟨identifier, s, hclaim, rfl⟩ := claim_eq_ok_iff.1 h
  exact ⟨identifier, by rwa [scopeOf_withScope]⟩

/-- A name that an emitter was made with is granted the identifier that it was granted
then, and nothing changes. -/
theorem claim_again (h : create language schema options = .ok e) {role : Role}
    {before after : List (Role × String)}
    (hclaims : schema.claims = before ++ (role, name) :: after) :
    ∃ e₁ identifier s, before.foldlM claim (start language schema options) = .ok e₁ ∧
      (e₁.scopeOf role).claim name = .ok (identifier, s) ∧
        (e.scopeOf role).claim name = .ok (identifier, e.scopeOf role) := by
  rw [create, hclaims, List.foldlM_append, bind_eq_ok_iff] at h
  obtain ⟨e₁, hbefore, h⟩ := h
  rw [List.foldlM_cons, bind_eq_ok_iff] at h
  obtain ⟨e₂, hclaim, hafter⟩ := h
  obtain ⟨identifier, hgranted⟩ := claim_scopeOf hclaim
  have hext := (owns_of_foldlM_claim hafter).1.scope role
  have howns := (Scope.owns_of_claim hgranted).2.mono hext
  exact ⟨e₁, identifier, _, hbefore, hgranted, Scope.claim_of_owns howns⟩

/-- **Whether a schema can be named does not depend on the order of its declarations.**
There is an emitter if and only if the identifiers of the schema can be told apart, so
there is one for every order of types and methods if there is one for some order; and
what the emitter was made with, it grants again. -/
theorem create_decides_naming (language : Language) (schema : Schema) (options : Options) :
    ((∃ e, create language schema options = .ok e) ↔ schema.Nameable language options) ∧
      (∀ schema' : Schema, schema'.types.Perm schema.types → schema'.methods.Perm schema.methods →
        ((∃ e, create language schema' options = .ok e) ↔
          ∃ e, create language schema options = .ok e)) ∧
      ∀ e, create language schema options = .ok e →
        ∀ before role name after, schema.claims = before ++ (role, name) :: after →
          ∃ e₁ identifier s, before.foldlM claim (start language schema options) = .ok e₁ ∧
            (e₁.scopeOf role).claim name = .ok (identifier, s) ∧
              (e.scopeOf role).claim name = .ok (identifier, e.scopeOf role) := by
  refine ⟨create_isOk_iff, fun schema' htypes hmethods => ?_, fun e h _ _ _ _ => claim_again h⟩
  rw [create_isOk_iff, create_isOk_iff]
  exact ⟨nameable_of_subset htypes.symm.subset hmethods.symm.subset,
    nameable_of_subset htypes.subset hmethods.subset⟩

end Emitter

end RpcBindings
