import RpcBindings.Proofs.Emission.Members

/-!
# RpcBindings.Proofs.Emission.Declarations

The declarations of a document.  An emitter exists only when every name that the
schema claims owns its identifier.  A scope knows the owner of an identifier by
name, though, so a type and the input of a method that have one and the same name
are granted one identifier, and both are declared under it.  That is the only way
in which a document declares an identifier twice (`create_identifiers_nodup_iff`).
-/

namespace RpcBindings

namespace Method

/-- Methods with one name for their inputs have one name. -/
theorem inputName_inj {method other : Method} :
    method.inputName = other.inputName ↔ method.name = other.name :=
  String.append_left_inj "_input"

theorem outputName_inj {method other : Method} :
    method.outputName = other.outputName ↔ method.name = other.name :=
  String.append_left_inj "_output"

/-- No input is called like an output. -/
theorem inputName_ne_outputName (method other : Method) :
    method.inputName ≠ other.outputName := by
  intro h
  have hchars := congrArg (fun name => name.toList.reverse) h
  simp [inputName, outputName] at hchars

end Method

namespace Schema

/-- Methods of distinct names have distinct names for their inputs and outputs. -/
theorem nodup_flatMap_ioNames {methods : List Method} (h : (methods.map (·.name)).Nodup) :
    (methods.flatMap ioNames).Nodup := by
  rw [List.Nodup, List.pairwise_flatMap]
  constructor
  · intro method _
    unfold ioNames
    cases method.inputs <;> cases method.outputs <;>
      simp [Method.inputName_ne_outputName]
  · rw [List.Nodup, List.pairwise_map] at h
    apply h.imp
    intro method other hne name hname name' hname'
    rw [mem_ioNames] at hname hname'
    rcases hname with ⟨-, rfl⟩ | ⟨-, rfl⟩ <;> rcases hname' with ⟨-, rfl⟩ | ⟨-, rfl⟩
    · exact fun heq => hne (Method.inputName_inj.1 heq)
    · exact Method.inputName_ne_outputName _ _
    · exact (Method.inputName_ne_outputName _ _).symm
    · exact fun heq => hne (Method.outputName_inj.1 heq)

/-- Names of declarations repeat only where a type is called like an input or output. -/
theorem nodup_declaredNames_iff (schema : Schema) :
    schema.declaredNames.Nodup ↔
      ∀ type ∈ schema.types, ∀ method ∈ schema.methods,
        (method.inputs ≠ [] → type.name ≠ method.inputName) ∧
          (method.outputs ≠ [] → type.name ≠ method.outputName) := by
  rw [declaredNames, List.nodup_append]
  simp only [schema.typeNames_nodup, nodup_flatMap_ioNames schema.methodNames_nodup, true_and,
    List.mem_map, List.mem_flatMap, mem_ioNames]
  constructor
  · intro h type htype method hmethod
    constructor
    · intro hinputs
      exact h _ ⟨type, htype, rfl⟩ _ ⟨method, hmethod, .inl ⟨hinputs, rfl⟩⟩
    · intro houtputs
      exact h _ ⟨type, htype, rfl⟩ _ ⟨method, hmethod, .inr ⟨houtputs, rfl⟩⟩
  · rintro h _ ⟨type, htype, rfl⟩ _ ⟨method, hmethod, ⟨hinputs, rfl⟩ | ⟨houtputs, rfl⟩⟩
    · exact (h type htype method hmethod).1 hinputs
    · exact (h type htype method hmethod).2 houtputs

end Schema

namespace Emitter

variable {language : Language} {schema : Schema} {options : Options} {e : Emitter}

/-- The declarations of an outline have the identifiers of the declared names, in order. -/
theorem names_of_outline {outline : Outline} (htypes : e.options.includeTypes)
    (h : e.outline.outcome = .ok outline) :
    e.schema.declaredNames.mapM e.declarationName =
      .ok (outline.declarations.map (·.name)) := by
  rw [← e.schema.map_name_subjects, mapM_eq_ok_iff, List.forall₂_map_left_iff,
    List.forall₂_map_right_iff]
  exact (declares_outline h htypes).imp fun _ _ hdeclares => hdeclares.name

/-- **A document declares an identifier twice only for one name twice.**  The
declarations of an emitter have identifiers that the document does not declare
besides, and these are distinct if and only if no type has the name under which a
method declares its input or its output. -/
theorem create_identifiers_nodup_iff (h : create language schema options = .ok e) :
    ∃ identifiers, schema.declaredNames.mapM e.declarationName = .ok identifiers ∧
      (∀ identifier ∈ identifiers, identifier ∉ language.reserved options .declaration) ∧
      (identifiers.Nodup ↔
        ∀ type ∈ schema.types, ∀ method ∈ schema.methods,
          (method.inputs ≠ [] → type.name ≠ method.inputName) ∧
            (method.outputs ≠ [] → type.name ≠ method.outputName)) ∧
      (options.includeTypes → ∀ outline, e.outline.outcome = .ok outline →
        outline.declarations.map (·.name) = identifiers) := by
  have hext := (owns_of_create h).1
  obtain ⟨identifiers, hidentifiers⟩ : ∃ identifiers,
      schema.declaredNames.mapM e.declarationName = .ok identifiers := by
    apply mapM_isOk
    intro name hname
    obtain ⟨identifier, -, hidentifier⟩ := owns_declaration h hname
    exact ⟨identifier, hidentifier⟩
  refine ⟨identifiers, hidentifiers, ?_, ?_, ?_⟩
  · intro identifier hmem
    obtain ⟨name, hname, heq⟩ := exists_of_mem_mapM hidentifiers hmem
    obtain ⟨found, howns, hfound⟩ := owns_declaration h hname
    obtain rfl : found = identifier := Except.ok.inj (hfound.symm.trans heq)
    exact notMem_reserved h (by decide : Role.declaration ≠ .field) howns
  · rw [← schema.nodup_declaredNames_iff]
    apply nodup_iff_of_mapM hidentifiers
    intro name hname other hother identifier heq heq'
    exact declarationName_inj h hname hother heq heq'
  · intro htypes outline houtline
    have hschema : e.schema = schema := hext.schema
    have hoptions : e.options = options := hext.options
    have hnames := names_of_outline (hoptions ▸ htypes) houtline
    rw [hschema, hidentifiers] at hnames
    exact (Except.ok.inj hnames).symm

/-- A schema with a type that has the name under which a method declares its input. -/
def doubled : Schema where
  name := ""
  description := ""
  types := [
    { name := "get_input"
      description := ""
      properties := [
        { name := "a", type := .primitive .int, description := "", required := false
          default := .null, enum := none }] }]
  methods := [
    { name := "get"
      description := ""
      inputs := [
        { name := "b", type := .primitive .int, description := "", required := false
          default := .null, enum := none }]
      outputs := [] }]
  goTags := ["json"]
  typeNames_nodup := by decide
  methodNames_nodup := by decide

theorem create_doubled_identifiers :
    ∃ e, create .go doubled {} = .ok e ∧
      ∃ identifiers, doubled.declaredNames.mapM e.declarationName = .ok identifiers ∧
        (∀ identifier ∈ identifiers, identifier ∉ Language.go.reserved {} .declaration) ∧
        (identifiers.Nodup ↔
          ∀ type ∈ doubled.types, ∀ method ∈ doubled.methods,
            (method.inputs ≠ [] → type.name ≠ method.inputName) ∧
              (method.outputs ≠ [] → type.name ≠ method.outputName)) ∧
        (({} : Options).includeTypes → ∀ outline, e.outline.outcome = .ok outline →
          outline.declarations.map (·.name) = identifiers) :=
  ⟨_, rfl, create_identifiers_nodup_iff rfl⟩

/-- The Go document of this schema declares one structure twice. -/
theorem outline_doubled_not_nodup :
    ∃ e outline, create .go doubled {} = .ok e ∧ e.outline.outcome = .ok outline ∧
      ¬(outline.declarations.map (·.name)).Nodup := by
  refine ⟨_, _, rfl, rfl, ?_⟩
  decide

end Emitter

end RpcBindings
