import RpcBindings.Proofs.Outcome
import RpcBindings.Proofs.Schema.WellFormed
import RpcBindings.Typing.TypeSystem

/-!
# RpcBindings.Proofs.Typing.Expression

The type expressions of descriptors.  An expression consists of a base, which is
the type of a primitive kind or the identifier of a declared type, and of the
sequence types around it, one for every array; the expression of a field that is
not required is wrapped once more.  Where references lead to declared types and
the descriptor has a shape that documents can state, nothing but an identifier
can be missing.
-/

namespace RpcBindings

/-- The innermost descriptor of the chain. -/
def Descriptor.core : Descriptor → Descriptor
  | .plain kind target => .plain kind target
  | .nested _ _ items => items.core

namespace Language

/-- The sequence types around a base, one for every descriptor with items. -/
def around (language : Language) (base : String) : Descriptor → String
  | .plain _ _ => base
  | .nested _ _ items => language.sequence (language.around base items)

/-- The type around a base that a field has. -/
def fieldType (language : Language) (base : String) (field : Field) : String :=
  let type := language.around base field.type
  if field.required then type else language.optional field.type.kind type

end Language

namespace TypeSystem

variable {language : Language} {schema : Schema} {owner : Option String} {d : Descriptor}
  {field : Field} {type base : String}

/-! ## Single descriptors -/

/-- Every primitive kind has a type in every language. -/
theorem lookup_primitives (language : Language) {kind : Kind} (h : kind.isPrimitive = true) :
    (language.primitives.lookup kind).isSome := by
  cases language <;> cases kind <;> first | rfl | contradiction

/-- A primitive is expressed by its entry in the table. -/
theorem express_primitive {kind : Kind} (h : kind.isPrimitive = true)
    (htype : language.primitives.lookup kind = some type) :
    language.typeSystem.express schema owner (.primitive kind) = .ok type := by
  have hof : express.primitive language.typeSystem owner (.primitive kind) kind = .ok type := by
    rw [express.primitive, Language.typeSystem, htype]
  cases kind <;> first | contradiction | exact hof

/-- A reference is expressed by the identifier of the type that is found. -/
theorem express_reference {target : String} {found : ObjectType}
    (hfound : schema.findType? target = some found)
    (htype : language.identifier .declaration found.name = .ok type) :
    language.typeSystem.express schema owner (.reference target) = .ok type := by
  have hof : express.named language.typeSystem schema owner target = .ok type := by
    rw [express.named, Schema.resolve, hfound]
    exact mapError_eq_ok_iff.2 htype
  exact hof

/-! ## What can be missing -/

theorem failsOnly_identifier (language : Language) (role : Role) (name : String)
    {P : NamingError → Prop} (hP : ∀ e, P e) : FailsOnly P (language.identifier role name) :=
  fun e _ => hP e

/-- A reference to a declared type lacks at most an identifier. -/
theorem failsOnly_named {P : GenerationError → Prop} (hnaming : ∀ e, P (.naming e))
    {system : TypeSystem} {target : String} (h : (schema.findType? target).isSome) :
    FailsOnly P (express.named system schema owner target) := by
  obtain ⟨type, htype⟩ := Option.isSome_iff_exists.1 h
  simp only [express.named, Schema.resolve, htype]
  exact .mapError (failsOnly_identifier _ _ _ hnaming)

/-- Where references lead to declared types, expressing a descriptor of any shape
fails for other reasons. -/
theorem failsOnly_express (system : TypeSystem)
    (h : ∀ target ∈ d.targets, (schema.findType? target).isSome) :
    FailsOnly (fun e => ∀ unresolved, e ≠ .unresolved unresolved)
      (system.express schema owner d) := by
  have hprimitive (d : Descriptor) (kind : Kind) :
      FailsOnly (fun e => ∀ unresolved, e ≠ .unresolved unresolved)
        (express.primitive system owner d kind) := by
    unfold express.primitive
    split
    · exact .ok _
    · exact .error (by simp)
  induction d with
  | plain kind target =>
      unfold express
      split
      · exact failsOnly_named (by simp) (h _ (by simp))
      · exact .error (by simp)
      · exact .error (by simp)
      · exact hprimitive _ _
  | nested kind target items ih =>
      rw [Descriptor.targets_nested] at h
      unfold express
      split
      · exact failsOnly_named (by simp) (h _ (by simp))
      · exact .error (by simp)
      · exact (ih fun target htarget => h target (List.mem_append_right _ htarget)).bind
          fun _ _ => .ok _
      · exact hprimitive _ _

/-- Expressing a descriptor of a stated shape fails for a name without identifier only. -/
theorem failsOnly_express_of_hasShape (hshape : d.HasShape)
    (h : ∀ target ∈ d.targets, (schema.findType? target).isSome) :
    FailsOnly (fun e => ∃ naming, e = .naming naming)
      (language.typeSystem.express schema owner d) := by
  induction hshape with
  | @primitive kind hkind =>
      obtain ⟨type, htype⟩ := Option.isSome_iff_exists.1 (lookup_primitives language hkind)
      exact .of_isOk ⟨type, express_primitive hkind htype⟩
  | reference target =>
      exact failsOnly_named (fun e => ⟨e, rfl⟩) (h target (by simp [Descriptor.reference]))
  | @array items _ ih =>
      rw [Descriptor.array, Descriptor.targets_nested] at h
      exact (ih fun target htarget => h target (List.mem_append_right _ htarget)).bind
        fun _ _ => .ok _

/-- The type of a field fails only as its descriptor does. -/
theorem failsOnly_expressField {P : GenerationError → Prop} {system : TypeSystem}
    (h : ∀ owner, FailsOnly P (system.express schema owner field.type)) :
    FailsOnly P (system.expressField schema owner field) :=
  (h _).bind fun _ _ => .ok _

/-! ## What an expression consists of -/

/-- What stands at the base of an expression: the type of a primitive kind, or the
identifier of a declared type. -/
def IsBase (language : Language) (schema : Schema) (d : Descriptor) (base : String) : Prop :=
  (∃ kind, d.core = .primitive kind ∧ language.primitives.lookup kind = some base) ∨
    ∃ target type, d.core = .reference target ∧ schema.findType? target = some type ∧
      language.identifier .declaration type.name = .ok base

/-- An array of references has the identifier of its type at the base. -/
theorem IsBase.eq_of_reference {target identifier : String}
    (h : IsBase language schema (.array (.reference target)) base)
    (hidentifier : language.identifier .declaration target = .ok identifier) :
    base = identifier := by
  obtain ⟨kind, hcore, -⟩ | ⟨found, type, hcore, hfound, hbase⟩ := h
  · cases hcore
  · cases hcore
    have hname : type.name = target := by simpa using List.find?_some hfound
    rw [hname] at hbase
    exact Except.ok.inj (hbase.symm.trans hidentifier)

/-- A type expression is one base with the array marks of the descriptor around it. -/
theorem express_eq_ok (hshape : d.HasShape)
    (h : language.typeSystem.express schema owner d = .ok type) :
    ∃ base, IsBase language schema d base ∧ type = language.around base d := by
  induction hshape generalizing type with
  | @primitive kind hkind =>
      have hof : express.primitive language.typeSystem owner (.primitive kind) kind =
          .ok type := by
        cases kind <;> first | contradiction | exact h
      unfold express.primitive at hof
      split at hof
      · next found hfound =>
        exact ⟨type, .inl ⟨kind, rfl, Except.ok.inj hof ▸ hfound⟩, rfl⟩
      · contradiction
  | reference target =>
      have hof : express.named language.typeSystem schema owner target = .ok type := h
      unfold express.named Schema.resolve at hof
      cases htype : schema.findType? target with
      | none => simp [htype] at hof
      | some found =>
          simp only [htype, mapError_eq_ok_iff] at hof
          exact ⟨type, .inr ⟨target, found, rfl, htype, hof⟩, rfl⟩
  | array _ ih =>
      obtain ⟨element, helement, h⟩ := bind_eq_ok_iff.1 h
      obtain rfl := Except.ok.inj h
      obtain ⟨base, hbase, rfl⟩ := ih helement
      exact ⟨base, hbase, rfl⟩

/-- The expression of a field is its base with the wrappers of the field. -/
theorem expressField_eq_ok (hshape : field.type.HasShape)
    (h : language.typeSystem.expressField schema owner field = .ok type) :
    ∃ base, IsBase language schema field.type base ∧ type = language.fieldType base field := by
  obtain ⟨inner, hinner, h⟩ := bind_eq_ok_iff.1 h
  obtain ⟨base, hbase, rfl⟩ := express_eq_ok hshape hinner
  exact ⟨base, hbase, (Except.ok.inj h).symm⟩

end TypeSystem

end RpcBindings
