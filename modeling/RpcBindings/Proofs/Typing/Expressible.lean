import RpcBindings.Proofs.Name.Lexical
import RpcBindings.Proofs.Typing.Expression

/-!
# RpcBindings.Proofs.Typing.Expressible

Descriptors that have a type.  A descriptor may hold a kind, a target and items in any
combination, and only some of these have a type: the chain of its arrays has to end with a
primitive kind, or with a reference to a declared type whose name leaves something to write.
The vocabularies of the languages differ, and so do their casings, but this condition has no
language in it: a descriptor has a type in all languages or in none, and where it has none,
all of them give the same reason (`express_concurs`).
-/

namespace RpcBindings

/-! ## Reasons without a language -/

/-- The same failure, but for the language that it is stated for. -/
inductive GenerationError.Alike : GenerationError → GenerationError → Prop where
  | nameless (name : String) (language other : Language) :
    Alike (.naming (.empty name language)) (.naming (.empty name other))
  | unresolved (e : UnresolvedReference) : Alike (.unresolved e) (.unresolved e)
  | unhandled (d : Descriptor) (language other : Language) (owner : Option String) :
    Alike (.unhandled d language owner) (.unhandled d other owner)

/-- Both computations succeed, or both fail alike. -/
inductive Concur : Except GenerationError String → Except GenerationError String → Prop where
  | ok (type other : String) : Concur (.ok type) (.ok other)
  | error {e e' : GenerationError} (h : e.Alike e') : Concur (.error e) (.error e')

/-- What is made of two results makes no difference. -/
theorem Concur.bind {x y : Except GenerationError String} (h : Concur x y) (f g : String → String) :
    Concur (x >>= fun type => .ok (f type)) (y >>= fun type => .ok (g type)) := by
  cases h with
  | ok type other => exact .ok _ _
  | error h => exact .error h

/-- The descriptors that have a type. -/
inductive Schema.Expressible (schema : Schema) : Descriptor → Prop where
  | primitive {d : Descriptor} (h : d.kind.isPrimitive = true) : schema.Expressible d
  /-- The type that the reference leads to has a letter or a digit in its name. -/
  | reference {d : Descriptor} {target : String} {type : ObjectType} (hkind : d.kind = .reference)
    (htarget : d.target? = some target) (htype : schema.findType? target = some type)
    (hname : ∃ c ∈ type.name.toList, Name.isWordChar c = true) : schema.Expressible d
  | array {d items : Descriptor} (hkind : d.kind = .array) (hitems : d.items? = some items)
    (h : schema.Expressible items) : schema.Expressible d

/-- Every kind stands for itself, or is written by what the descriptor has besides. -/
theorem Kind.isPrimitive_or (kind : Kind) :
    kind.isPrimitive = true ∨ kind = .reference ∨ kind = .array := by
  cases kind <;> decide

/-- Induction along the items of a descriptor, whatever its kind. -/
@[elab_as_elim]
theorem Descriptor.induction_items {motive : Descriptor → Prop}
    (step : ∀ d, (∀ items, d.items? = some items → motive items) → motive d) (d : Descriptor) :
    motive d := by
  induction d with
  | plain kind target => exact step _ (by simp [items?])
  | nested kind target items ih => exact step _ (by simpa [items?] using ih)

/-- A declaration has an identifier if and only if its name has a letter or a digit. -/
theorem Language.casing_declaration_ne_empty_iff {language : Language} {name : String} :
    language.casing .declaration name ≠ "" ↔ ∃ c ∈ name.toList, Name.isWordChar c = true := by
  have hhead : (language.casing .declaration name).toList.head? =
      (name.toList.find? Name.isWordChar).map Char.toUpper := by
    cases language with
    | go => rw [casing, Name.exported, String.toList_ofList, Name.head?_exportedChars]
    | _ => rw [casing, Name.pascal, String.toList_ofList, Name.head?_pascalChars]
  rw [Ne, ← String.toList_eq_nil_iff, ← List.head?_eq_none_iff, hhead, Option.map_eq_none_iff,
    List.find?_eq_none]
  simp

/-- A declaration has an identifier exactly where its name has a letter or a digit. -/
theorem Language.identifier_declaration_isOk_iff {language : Language} {name : String} :
    (∃ identifier, language.identifier .declaration name = .ok identifier) ↔
      ∃ c ∈ name.toList, Name.isWordChar c = true := by
  simp only [Language.identifier_eq_ok_iff, exists_eq_left', casing_declaration_ne_empty_iff]

namespace TypeSystem

variable {schema : Schema} {owner : Option String} {d items : Descriptor} {target : String}
  {language other : Language}

/-! ## Descriptors by their kind -/

/-- A primitive is expressed by the table of the language. -/
theorem express_of_isPrimitive {system : TypeSystem} (h : d.kind.isPrimitive = true) :
    system.express schema owner d = express.primitive system owner d d.kind := by
  cases d with
  | plain kind target => cases kind <;> first | contradiction | rfl
  | nested kind target items => cases kind <;> first | contradiction | rfl

/-- Every language expresses every primitive. -/
theorem express_isOk_of_isPrimitive (language : Language) (h : d.kind.isPrimitive = true) :
    ∃ type, language.typeSystem.express schema owner d = .ok type := by
  obtain ⟨type, htype⟩ := Option.isSome_iff_exists.1 (lookup_primitives language h)
  refine ⟨type, ?_⟩
  rw [express_of_isPrimitive h, express.primitive, Language.typeSystem, htype]

/-- A reference is expressed by the name of its target. -/
theorem express_of_reference {system : TypeSystem} (h : d.kind = .reference) :
    system.express schema owner d =
      match d.target? with
      | none => .error (.unhandled d system.language owner)
      | some target => express.named system schema owner target := by
  cases d <;> obtain rfl := h <;> cases ‹Option String› <;> rfl

/-- An array is expressed by way of its items. -/
theorem express_of_array {system : TypeSystem} (h : d.kind = .array) :
    system.express schema owner d =
      match d.items? with
      | none => .error (.unhandled d system.language owner)
      | some items =>
        system.express schema owner items >>= fun type => .ok (system.language.sequence type) := by
  cases d <;> obtain rfl := h <;> rfl

/-! ## Agreement -/

/-- A declared type has an identifier in all languages or in none. -/
theorem concur_identifier (name : String) :
    Concur ((language.identifier .declaration name).mapError .naming)
      ((other.identifier .declaration name).mapError .naming) := by
  by_cases hword : ∃ c ∈ name.toList, Name.isWordChar c = true
  · obtain ⟨identifier, hidentifier⟩ := Language.identifier_declaration_isOk_iff.2 hword
    obtain ⟨identifier', hidentifier'⟩ := Language.identifier_declaration_isOk_iff.2 hword
    rw [hidentifier, hidentifier']
    exact .ok identifier identifier'
  · have hempty (language : Language) :
        language.identifier .declaration name = .error (.empty name language) :=
      Language.identifier_eq_error_iff.2
        ⟨not_not.1 (mt Language.casing_declaration_ne_empty_iff.1 hword), rfl⟩
    rw [hempty language, hempty other]
    exact .error (.nameless name language other)

/-- Two languages find the same names missing. -/
theorem concur_named : Concur (express.named language.typeSystem schema owner target)
    (express.named other.typeSystem schema owner target) := by
  unfold express.named Schema.resolve
  cases schema.findType? target with
  | none => exact .error (.unresolved _)
  | some type => exact concur_identifier type.name

/-- A reference has a type if it leads to a declared type whose name leaves something to write. -/
theorem named_isOk_iff :
    (∃ type, express.named language.typeSystem schema owner target = .ok type) ↔
      ∃ found, schema.findType? target = some found ∧
        ∃ c ∈ found.name.toList, Name.isWordChar c = true := by
  unfold express.named Schema.resolve
  cases schema.findType? target with
  | none => simp
  | some found =>
      simp only [mapError_eq_ok_iff, Option.some.injEq, exists_eq_left']
      exact Language.identifier_declaration_isOk_iff

/-- A descriptor has a type in all languages or in none, and for the same reason. -/
theorem concur_express (d : Descriptor) :
    Concur (language.typeSystem.express schema owner d)
      (other.typeSystem.express schema owner d) := by
  induction d using Descriptor.induction_items with
  | step d ih =>
      obtain hkind | hkind | hkind := d.kind.isPrimitive_or
      · obtain ⟨type, htype⟩ := express_isOk_of_isPrimitive language hkind
        obtain ⟨type', htype'⟩ := express_isOk_of_isPrimitive other hkind
        rw [htype, htype']
        exact .ok type type'
      · rw [express_of_reference hkind, express_of_reference hkind]
        cases d.target? with
        | none => exact .error (.unhandled d language other owner)
        | some target => exact concur_named
      · rw [express_of_array hkind, express_of_array hkind]
        cases hitems : d.items? with
        | none => exact .error (.unhandled d language other owner)
        | some items => exact (ih items hitems).bind _ _

/-- It has one if and only if its chain leads to a base that can be written. -/
theorem express_isOk_iff :
    (∃ type, language.typeSystem.express schema owner d = .ok type) ↔ schema.Expressible d := by
  constructor
  · rintro ⟨type, h⟩
    induction d using Descriptor.induction_items generalizing type with
    | step d ih =>
        obtain hkind | hkind | hkind := d.kind.isPrimitive_or
        · exact .primitive hkind
        · rw [express_of_reference hkind] at h
          cases htarget : d.target? with
          | none => simp [htarget] at h
          | some target =>
              rw [htarget] at h
              obtain ⟨found, hfound, hname⟩ := named_isOk_iff.1 ⟨type, h⟩
              exact .reference hkind htarget hfound hname
        · rw [express_of_array hkind] at h
          cases hitems : d.items? with
          | none => simp [hitems] at h
          | some items =>
              rw [hitems] at h
              obtain ⟨element, helement, -⟩ := bind_eq_ok_iff.1 h
              exact .array hkind hitems (ih items hitems element helement)
  · intro h
    induction h with
    | primitive hkind => exact express_isOk_of_isPrimitive language hkind
    | reference hkind htarget htype hname =>
        rw [express_of_reference hkind, htarget]
        exact named_isOk_iff.2 ⟨_, htype, hname⟩
    | array hkind hitems _ ih =>
        obtain ⟨element, helement⟩ := ih
        rw [express_of_array hkind, hitems]
        exact ⟨_, bind_eq_ok_iff.2 ⟨element, helement, rfl⟩⟩

/-- Where references lead to declared types that have identifiers, descriptors of the stated shapes
have types. -/
theorem expressible_of_hasShape (hshape : d.HasShape)
    (htargets : ∀ target ∈ d.targets, (schema.findType? target).isSome)
    (hnames : ∀ type ∈ schema.types, language.casing .declaration type.name ≠ "") :
    schema.Expressible d := by
  induction hshape with
  | primitive hkind => exact .primitive hkind
  | reference target =>
      obtain ⟨found, hfound⟩ :=
        Option.isSome_iff_exists.1 (htargets target (by simp [Descriptor.reference]))
      exact .reference rfl rfl hfound
        (Language.casing_declaration_ne_empty_iff.1
          (hnames found (List.mem_of_find?_eq_some hfound)))
  | @array items _ ih =>
      rw [Descriptor.array, Descriptor.targets_nested] at htargets
      exact .array rfl rfl (ih fun target htarget =>
        htargets target (List.mem_append_right _ htarget))

/-- A field has no type for the reason that its descriptor has none in the place of the field. -/
theorem expressField_eq_error_iff {field : Field} {e : GenerationError} :
    language.typeSystem.expressField schema owner field = .error e ↔
      language.typeSystem.express schema (some (placeOf owner field)) field.type = .error e := by
  simp [expressField, bind_eq_error_iff]

/-- A field has a type exactly where its descriptor is expressible. -/
theorem expressField_isOk_iff {field : Field} :
    (∃ type, language.typeSystem.expressField schema owner field = .ok type) ↔
      schema.Expressible field.type := by
  simp [expressField, bind_eq_ok_iff, express_isOk_iff]

/-- Whether a descriptor has a type, and why it has none, does not depend on the language.  A field
has a type just where its descriptor has one, wherever either stands and whether or not the field
is required, and lacks one for the reason that its descriptor has in the place of the field. -/
theorem express_concurs (schema : Schema) :
    (∀ owner d (language other : Language),
      Concur (language.typeSystem.express schema owner d)
        (other.typeSystem.express schema owner d)) ∧
    (∀ owner d (language : Language),
      (∃ type, language.typeSystem.express schema owner d = .ok type) ↔ schema.Expressible d) ∧
    ∀ owner field (language : Language),
      (∀ place, (∃ type, language.typeSystem.expressField schema owner field = .ok type) ↔
        ∃ type, language.typeSystem.express schema place field.type = .ok type) ∧
      ∀ e, language.typeSystem.expressField schema owner field = .error e ↔
        language.typeSystem.express schema (some (placeOf owner field)) field.type = .error e :=
  ⟨fun _ d _ _ => concur_express d, fun _ _ _ => express_isOk_iff, fun _ _ _ =>
    ⟨fun _ => expressField_isOk_iff.trans express_isOk_iff.symm,
      fun _ => expressField_eq_error_iff⟩⟩

end TypeSystem

end RpcBindings
