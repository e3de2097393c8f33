import RpcBindings.Proofs.Emission.Members

/-!
# RpcBindings.Proofs.Emission.Within

Outlines of one schema under options that ask for less.  Without validation or
without a client a document reserves fewer identifiers, so every name that is granted
its identifier with them is granted the same one without them; and what an outline
consists of depends on nothing else.  So the outline under fewer options is there
whenever the one under more is, and is that one without its validations or without
its stubs (`outline_within`).
-/

namespace RpcBindings

/-- Options that ask for no more than others: they are the same but for the validation
and the client, which may be left out. -/
structure Options.Within (less more : Options) : Prop where
  rest : less =
    { more with validate := less.validate, includeClient := less.includeClient }
  validate : less.validate = true → more.validate = true
  client : less.includeClient = true → more.includeClient = true

theorem Options.Within.includeTypes {less more : Options} (h : less.Within more) :
    less.includeTypes = more.includeTypes := by
  rw [h.rest]

/-- A document that contains less reserves no further identifiers. -/
theorem Language.reserved_subset {less more : Options} (h : less.Within more)
    (language : Language) (role : Role) :
    language.reserved less role ⊆ language.reserved more role := by
  have hvalidate := h.validate
  have hclient := h.client
  cases language <;> cases role <;> simp only [reserved] <;> grind

/-- A declaration under some options: without its validation where none is written. -/
def Declaration.under (options : Options) (d : Declaration) : Declaration :=
  { d with rules := if options.validate then d.rules else none }

/-- An outline under some options: without what they leave out. -/
def Outline.under (options : Options) (outline : Outline) : Outline where
  declarations := outline.declarations.map (Declaration.under options)
  stubs := if options.includeClient then outline.stubs else []

/-- Options that validate leave a declaration as it is. -/
theorem Declaration.under_of_validate {options : Options} {d : Declaration}
    (h : options.validate = true) : d.under options = d := by
  rw [under, if_pos h]

/-! ## Names -/

namespace Scope

variable {s s' t' : Scope} {name identifier : String}

/-- What a later state of a scope grants, an earlier one grants as well. -/
theorem claim_of_extends (h : s.Extends s') (hclaim : s'.claim name = .ok (identifier, t')) :
    ∃ t, s.claim name = .ok (identifier, t) ∧ t.Extends t' := by
  obtain ⟨hidentifier, howner, rfl⟩ := claim_eq_ok_iff.1 hclaim
  rw [h.language, h.role] at hidentifier
  have hless : ∀ owner, s.owner? identifier = some owner → owner = name :=
    fun owner hfound => howner owner (h.owner identifier owner hfound)
  have htake := extends_take s identifier name
  have htake' := extends_take s' identifier name
  refine ⟨_, claim_eq_ok_iff.2 ⟨hidentifier, hless, rfl⟩, ?_, ?_, ?_⟩
  · rw [htake.language, htake'.language, h.language]
  · rw [htake.role, htake'.role, h.role]
  · intro other owner hfound
    rw [owner?_take, Option.or_eq_some_iff] at hfound
    obtain hfound | ⟨-, hfound⟩ := hfound
    · exact htake'.owner other owner (h.owner other owner hfound)
    · obtain ⟨rfl, rfl⟩ : other = identifier ∧ name = owner := by simpa using hfound
      exact (owns_of_claim hclaim).2.2

/-- A scope in which more is reserved is a later state of one in which less is. -/
theorem extends_reserve_of_subset (s : Scope) {identifiers more : List String}
    (h : identifiers ⊆ more) : (s.reserve identifiers).Extends (s.reserve more) := by
  have hless := extends_reserve s identifiers
  have hmore := extends_reserve s more
  refine ⟨?_, ?_, ?_⟩
  · rw [hless.language, hmore.language]
  · rw [hless.role, hmore.role]
  · intro identifier owner howner
    rw [owner?_reserve] at howner ⊢
    by_cases hmem : identifier ∈ identifiers
    · rw [if_pos hmem] at howner
      rw [if_pos (h hmem)]
      exact howner
    · rw [if_neg hmem, Option.or_none] at howner
      rw [howner, Option.some_or]

end Scope

namespace Emitter

variable {less more more' : Emitter} {name identifier owner : String}

/-- An emitter that writes no more than another one: its options ask for no more, and
what is taken in its scopes is taken in those of the other. -/
structure Within (less more : Emitter) : Prop where
  language : less.language = more.language
  schema : less.schema = more.schema
  options : less.options.Within more.options
  scope : ∀ role, (less.scopeOf role).Extends (more.scopeOf role)

/-- Emitters start within each other where their options are. -/
theorem within_start {less more : Options} (h : less.Within more) (language : Language)
    (schema : Schema) : (start language schema less).Within (start language schema more) := by
  refine ⟨rfl, rfl, h, fun role => ?_⟩
  cases role with
  | method => exact Scope.extends_reserve_of_subset _ (language.reserved_subset h .method)
  | _ => exact Scope.extends_reserve_of_subset _ (language.reserved_subset h .declaration)

/-- An emitter stays within another where its scope is extended there. -/
theorem Within.withScope (h : less.Within more) {s s' : Scope} (hext : s.Extends s') (role : Role) :
    (less.withScope role s).Within (more.withScope role s') := by
  cases role with
  | method =>
      refine ⟨h.language, h.schema, h.options, fun other => ?_⟩
      cases other with
      | method => exact hext
      | _ => exact h.scope .declaration
  | _ =>
      refine ⟨h.language, h.schema, h.options, fun other => ?_⟩
      cases other with
      | method => exact h.scope .method
      | _ => exact hext

/-- A claim granted by the larger emitter is granted by the smaller one. -/
theorem claim_within (h : less.Within more) {entry : Role × String}
    (hclaim : more.claim entry = .ok more') :
    ∃ less', less.claim entry = .ok less' ∧ less'.Within more' := by
  obtain ⟨role, name⟩ := entry
  obtain ⟨identifier, s', hgranted, rfl⟩ := claim_eq_ok_iff.1 hclaim
  obtain ⟨s, hs, hext⟩ := Scope.claim_of_extends (h.scope role) hgranted
  exact ⟨_, claim_eq_ok_iff.2 ⟨identifier, s, hs, rfl⟩, h.withScope hext role⟩

theorem foldlM_claim_within (h : less.Within more) {claims : List (Role × String)}
    (hclaims : claims.foldlM claim more = .ok more') :
    ∃ less', claims.foldlM claim less = .ok less' ∧ less'.Within more' := by
  induction claims generalizing less more with
  | nil =>
      obtain rfl := Except.ok.inj hclaims
      exact ⟨less, rfl, h⟩
  | cons entry rest ih =>
      simp only [List.foldlM_cons, bind_eq_ok_iff] at hclaims ⊢
      obtain ⟨next, hclaim, hrest⟩ := hclaims
      obtain ⟨next', hclaim', hwithin⟩ := claim_within h hclaim
      obtain ⟨less', hrest', hwithin'⟩ := ih hwithin hrest
      exact ⟨less', ⟨next', hclaim', hrest'⟩, hwithin'⟩

/-- An emitter under more options has one under fewer beside it. -/
theorem create_within {options options' : Options} (h : options.Within options')
    {language : Language} {schema : Schema} (hcreate : create language schema options' = .ok more) :
    ∃ less, create language schema options = .ok less ∧ less.Within more :=
  foldlM_claim_within (within_start h language schema) hcreate

section

variable (h : less.Within more)

include h

/-- A declaration has the same name in the smaller emitter. -/
theorem declarationName_within (hname : more.declarationName name = .ok identifier) :
    less.declarationName name = .ok identifier := by
  obtain ⟨⟨found, scope⟩, hclaim, rfl⟩ := map_eq_ok_iff.1 hname
  obtain ⟨t, ht, -⟩ := Scope.claim_of_extends (h.scope .declaration) hclaim
  exact map_eq_ok_iff.2 ⟨_, ht, rfl⟩

theorem methodName_within (hname : more.methodName name = .ok identifier) :
    less.methodName name = .ok identifier := by
  obtain ⟨⟨found, scope⟩, hclaim, rfl⟩ := map_eq_ok_iff.1 hname
  obtain ⟨t, ht, -⟩ := Scope.claim_of_extends (h.scope .method) hclaim
  exact map_eq_ok_iff.2 ⟨_, ht, rfl⟩

/-! ## Members -/

theorem typedFields_within {s s' : Scope} (hscope : s.Extends s') {fields : List Field}
    {typed : List (Field × String × String)}
    (htyped : more.typedFields owner s' fields = .ok typed) :
    less.typedFields owner s fields = .ok typed := by
  induction fields generalizing s s' typed with
  | nil => exact htyped
  | cons field rest ih =>
      simp only [typedFields, bind_eq_ok_iff, mapError_eq_ok_iff, pure_eq_ok,
        Except.ok.injEq] at htyped ⊢
      obtain ⟨⟨identifier, t'⟩, hclaim, type, htype, others, hothers, rfl⟩ := htyped
      obtain ⟨t, ht, hext⟩ := Scope.claim_of_extends hscope hclaim
      rw [← h.language, ← h.schema] at htype
      exact ⟨_, ht, type, htype, others, ih hext hothers, rfl⟩

/-- Fields have the same members in the smaller emitter. -/
theorem members_within {fields : List Field} {ms : List Member}
    (hmembers : more.members owner fields = .ok ms) : less.members owner fields = .ok ms := by
  obtain ⟨typed, htyped, hsummaries⟩ := bind_eq_ok_iff.1 hmembers
  have hsummary : less.summaryOf = more.summaryOf := by
    funext identifier field
    rw [summaryOf, summaryOf, h.language]
  have hscope : (less.fieldScope owner).Extends (more.fieldScope owner) := by
    rw [fieldScope, fieldScope, h.language]
    exact Scope.extends_reserve_of_subset _ (Language.reserved_subset h.options _ .field)
  have htyped' := typedFields_within h hscope (mapError_eq_ok_iff.1 htyped)
  unfold members
  rw [hsummary]
  exact bind_eq_ok_iff.2 ⟨typed, mapError_eq_ok_iff.2 htyped', hsummaries⟩

/-! ## Declarations -/

/-- What can be written with its validation can be written without it. -/
theorem writable_within {d d' : Declaration} (hd : more.writable d = .ok d') :
    less.writable (d.under less.options) = .ok (d'.under less.options) := by
  obtain rfl := eq_of_writable hd
  have hchecks : less.checkRules = more.checkRules := by
    funext m steps
    rw [checkRules, checkRules, testsMissing, testsMissing, h.language]
  cases hvalidate : less.options.validate with
  | false =>
      have hrules : (d'.under less.options).rules = none := by
        simp [Declaration.under, hvalidate]
      rw [writable, hrules]
      rfl
  | true =>
      rw [Declaration.under_of_validate hvalidate]
      unfold writable at hd ⊢
      rwa [hchecks]

/-- A type is declared the same in the smaller emitter, up to its plan. -/
theorem typeDeclaration_within {plans : Option Plans} {type : ObjectType} {d : Declaration}
    (hd : more.typeDeclaration plans type = .ok d) :
    less.typeDeclaration (if less.options.validate then plans else none) type =
      .ok (d.under less.options) := by
  simp only [typeDeclaration, bind_eq_ok_iff, orNaming_eq_ok_iff] at hd ⊢
  obtain ⟨name, hname, ms, hmembers, hwritable⟩ := hd
  refine ⟨name, declarationName_within h hname, ms, members_within h hmembers, ?_⟩
  rw [← writable_within h hwritable, Declaration.under]
  cases less.options.validate <;> rfl

/-- An input has the same plan in the smaller emitter, if it has plans at all. -/
theorem inputRules_within {method : Method} {rules : Option Plan}
    (hrules : more.inputRules method = .ok rules) :
    less.inputRules method = .ok (if less.options.validate then rules else none) := by
  unfold inputRules at hrules ⊢
  split
  · next hvalidate =>
    rw [if_pos (h.options.validate hvalidate)] at hrules
    rw [h.schema]
    exact hrules
  · rfl

theorem inputDeclaration_within {method : Method} {ds : List Declaration}
    (hds : (more.inputDeclaration method).outcome = .ok ds) :
    (less.inputDeclaration method).outcome = .ok (ds.map (·.under less.options)) := by
  rw [outcome_inputDeclaration] at hds ⊢
  split at hds
  · next hempty =>
    obtain rfl : ds = [] := (Except.ok.inj hds).symm
    rw [if_pos hempty]
    rfl
  · next hinputs =>
    rw [if_neg hinputs]
    simp only [bind_eq_ok_iff, orNaming_eq_ok_iff, Except.ok.injEq] at hds ⊢
    obtain ⟨name, hname, ms, hmembers, rules, hrules, d, hwritable, rfl⟩ := hds
    exact ⟨name, declarationName_within h hname, ms, members_within h hmembers, _,
      inputRules_within h hrules, _, writable_within h hwritable, rfl⟩

theorem outputDeclaration_within {method : Method} {ds : List Declaration}
    (hds : more.outputDeclaration method = .ok ds) :
    less.outputDeclaration method = .ok (ds.map (·.under less.options)) := by
  unfold outputDeclaration at hds ⊢
  split at hds
  · next hempty =>
    obtain rfl : ds = [] := (Except.ok.inj hds).symm
    rw [if_pos hempty]
    rfl
  · next houtputs =>
    rw [if_neg houtputs]
    simp only [bind_eq_ok_iff, orNaming_eq_ok_iff, pure_eq_ok, Except.ok.injEq] at hds ⊢
    obtain ⟨name, hname, ms, hmembers, rfl⟩ := hds
    refine ⟨name, declarationName_within h hname, ms, members_within h hmembers, ?_⟩
    simp [Declaration.under]

theorem methodDeclarations_within {methods : List Method} {ds : List Declaration}
    (hds : (more.methodDeclarations methods).outcome = .ok ds) :
    (less.methodDeclarations methods).outcome = .ok (ds.map (·.under less.options)) := by
  induction methods generalizing ds with
  | nil =>
      obtain rfl : ds = [] := (Except.ok.inj hds).symm
      rfl
  | cons method rest ih =>
      simp only [outcome_methodDeclarations_cons, bind_eq_ok_iff, Except.ok.injEq] at hds ⊢
      obtain ⟨input, hinput, output, houtput, others, hothers, rfl⟩ := hds
      refine ⟨_, inputDeclaration_within h hinput, _, outputDeclaration_within h houtput, _,
        ih hothers, ?_⟩
      simp only [List.map_append]

theorem plans?_within {plans : Option Plans} (hplans : more.plans?.outcome = .ok plans) :
    less.plans?.outcome = .ok (if less.options.validate then plans else none) := by
  rw [outcome_plans?] at hplans ⊢
  split
  · next hvalidate =>
    rw [if_pos (h.options.validate hvalidate)] at hplans
    rw [h.schema]
    exact hplans
  · rfl

/-- A schema is declared the same in the smaller emitter, up to the plans. -/
theorem declarationOutlines_within {ds : List Declaration}
    (hds : more.declarationOutlines.outcome = .ok ds) :
    less.declarationOutlines.outcome = .ok (ds.map (·.under less.options)) := by
  simp only [outcome_declarationOutlines, bind_eq_ok_iff, Except.ok.injEq] at hds ⊢
  obtain ⟨plans, hplans, types, htypes, methods, hmethods, rfl⟩ := hds
  rw [← h.schema] at htypes hmethods
  refine ⟨_, plans?_within h hplans, types.map (·.under less.options), ?_, _,
    methodDeclarations_within h hmethods, List.map_append.symm⟩
  rw [mapM_eq_ok_iff] at htypes ⊢
  rw [List.forall₂_map_right_iff]
  exact htypes.imp fun _ _ => typeDeclaration_within h

/-! ## Stubs -/

theorem nameOf?_within {fields : List Field} {found : Option String}
    (hfound : more.nameOf? fields name = .ok found) : less.nameOf? fields name = .ok found := by
  obtain ⟨hsome, hname⟩ := nameOf?_eq_ok_iff.1 hfound
  exact nameOf?_eq_ok_iff.2
    ⟨hsome, fun identifier heq => declarationName_within h (hname identifier heq)⟩

/-- A method has the same stub in the smaller emitter. -/
theorem stub_within {method : Method} {s : Stub} (hs : more.stub method = .ok s) :
    less.stub method = .ok s := by
  have hparameter : less.parameter = more.parameter := by
    funext method field
    rw [parameter, parameter, h.language, h.schema]
  rw [stub_eq_bind] at hs ⊢
  simp only [bind_eq_ok_iff, orNaming_eq_ok_iff, Except.ok.injEq] at hs ⊢
  obtain ⟨function, hfunction, input, hinput, output, houtput, parameters, hparameters, rfl⟩ := hs
  rw [← h.language, ← hparameter] at hparameters
  exact ⟨function, methodName_within h hfunction, input, nameOf?_within h hinput, output,
    nameOf?_within h houtput, parameters, hparameters, rfl⟩

theorem stubs_within {ss : List Stub} (hss : more.stubs = .ok ss) : less.stubs = .ok ss := by
  unfold stubs at hss ⊢
  rw [h.language, h.schema]
  split at hss
  · contradiction
  · next hgo =>
    rw [if_neg hgo]
    rw [mapM_eq_ok_iff] at hss ⊢
    exact hss.imp fun _ _ => stub_within h

/-- **An outline under fewer options is the one under more without what they leave
out.** -/
theorem outline_within {outline : Outline} (houtline : more.outline.outcome = .ok outline) :
    less.outline.outcome = .ok (outline.under less.options) := by
  obtain ⟨hdeclarations, hstubs⟩ := outline_eq_ok houtline
  have hdeclarations' : (if less.options.includeTypes then less.declarationOutlines.outcome
      else .ok []) = .ok (outline.declarations.map (·.under less.options)) := by
    rw [h.options.includeTypes]
    split at hdeclarations
    · next htypes =>
      rw [if_pos htypes]
      exact declarationOutlines_within h hdeclarations
    · next htypes =>
      rw [if_neg htypes, ← Except.ok.inj hdeclarations]
      rfl
  have hstubs' : (if less.options.includeClient then less.stubs else .ok []) =
      .ok (if less.options.includeClient then outline.stubs else []) := by
    split
    · next hclient =>
      rw [if_pos (h.options.client hclient)] at hstubs
      exact stubs_within h hstubs
    · rfl
  rw [outcome_outline, hdeclarations', ok_bind, hstubs', ok_bind]
  rfl

end

/-- What the options of an outline leave out is not in it. -/
theorem under_of_outline {e : Emitter} {outline : Outline} (h : e.outline.outcome = .ok outline) :
    outline.under e.options = outline := by
  have hself : e.Within e := ⟨rfl, rfl, ⟨rfl, id, id⟩, fun _ => Scope.Extends.refl _⟩
  exact Except.ok.inj ((outline_within hself h).symm.trans h)

end Emitter

end RpcBindings
