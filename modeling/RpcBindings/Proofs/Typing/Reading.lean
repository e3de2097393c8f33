import RpcBindings.Proofs.Emission.Naming
import RpcBindings.Proofs.Name.Spelling
import RpcBindings.Proofs.Typing.Expressible
import RpcBindings.Proofs.Typing.Marks

/-!
# RpcBindings.Proofs.Typing.Reading

Type expressions in Go, read back.  Brackets in front of a type stand for its arrays, and
identifiers have no brackets; behind the brackets there is the type of a primitive kind, which
begins with a small letter, or the identifier of a declared type, which does not.  In a schema
whose declarations can be told apart by their identifiers, an expression therefore comes from one
descriptor only, and this descriptor is read back from it (`ofGoType?_of_express`,
`express_go_inj`).  Other languages write two kinds of numbers alike, so this is said of Go alone.
-/

namespace RpcBindings

variable {schema : Schema} {options : Options} {e : Emitter} {owner : Option String}
  {d : Descriptor} {base type : String}

/-! ## The reader -/

namespace Descriptor

/-- The descriptor of a type without brackets. -/
def ofGoBase? (schema : Schema) (text : List Char) : Option Descriptor :=
  match Language.go.primitives.find? fun entry => entry.2.toList == text with
  | some (kind, _) => some (.primitive kind)
  | none =>
    (schema.types.find? fun type => (Language.go.casing .declaration type.name).toList == text).map
      fun type => .reference type.name

/-- The descriptor that a type in Go is written for. -/
def ofGoType? (schema : Schema) : List Char → Option Descriptor
  | '[' :: ']' :: element => (ofGoType? schema element).map .array
  | text => ofGoBase? schema text

/-- A type text that does not start with a bracket is read as a base. -/
theorem ofGoType?_of_head? {text : List Char} (h : text.head? ≠ some '[') :
    ofGoType? schema text = ofGoBase? schema text := by
  unfold ofGoType?
  split
  · simp at h
  · rfl

/-- The base of a type tells the innermost descriptor, and the brackets around it the arrays. -/
theorem ofGoType?_around (hshape : d.HasShape)
    (hbase : ofGoType? schema base.toList = some d.core) :
    ofGoType? schema (Language.go.around base d).toList = some d := by
  induction hshape with
  | primitive h => exact hbase
  | reference target => exact hbase
  | @array items _ ih =>
      have hcons : (Language.go.around base (array items)).toList =
          '[' :: ']' :: (Language.go.around base items).toList := by
        rw [array, Language.around, Language.sequence, String.toList_append]
        rfl
      rw [hcons, ofGoType?, ih hbase]
      rfl

end Descriptor

/-! ## Bases -/

/-- Identifiers of declarations do not begin with a small letter. -/
theorem Language.not_isLower_head?_go {name : String} {c : Char}
    (h : (Language.go.casing .declaration name).toList.head? = some c) : c.isLower = false := by
  rw [casing, Name.exported, String.toList_ofList, Name.head?_exportedChars,
    Option.map_eq_some_iff] at h
  obtain ⟨first, hfirst, rfl⟩ := h
  exact Name.not_isLower_toUpper (List.find?_some hfirst)

namespace TypeSystem

/-- Types of primitive kinds begin with a small letter. -/
theorem isLower_head?_primitives :
    ∀ entry ∈ Language.go.primitives, ∃ c, entry.2.toList.head? = some c ∧ c.isLower = true := by
  have hall : ∀ entry ∈ Language.go.primitives, entry.2.toList.head?.any Char.isLower = true := by
    decide
  exact fun entry hentry => (Option.any_eq_true _ _).1 (hall entry hentry)

/-- Primitive kinds have different types. -/
theorem find?_primitives :
    ∀ entry ∈ Language.go.primitives,
      Language.go.primitives.find? (fun other => other.2.toList == entry.2.toList) =
        some entry := by
  decide

/-- No identifier is the type of a primitive kind. -/
theorem toList_ne_of_mem_primitives {entry : Kind × String}
    (hentry : entry ∈ Language.go.primitives) (name : String) :
    entry.2.toList ≠ (Language.go.casing .declaration name).toList := by
  intro heq
  obtain ⟨c, hc, hlower⟩ := isLower_head?_primitives entry hentry
  rw [heq] at hc
  rw [Language.not_isLower_head?_go hc] at hlower
  contradiction

/-- The table's text for a primitive is read back as that primitive. -/
theorem ofGoType?_of_lookup {kind : Kind} (h : Language.go.primitives.lookup kind = some base) :
    Descriptor.ofGoType? schema base.toList = some (.primitive kind) := by
  have hentry := Language.mem_primitives_of_lookup h
  obtain ⟨c, hc, hlower⟩ := isLower_head?_primitives _ hentry
  rw [Descriptor.ofGoType?_of_head?, Descriptor.ofGoBase?, find?_primitives _ hentry]
  rw [hc, Ne, Option.some.injEq]
  rintro rfl
  contradiction

/-- In a schema whose declarations can be told apart, an identifier leads back to the type that it
is written for. -/
theorem ofGoType?_of_identifier (hnameable : schema.Nameable .go options) {target : String}
    {found : ObjectType} (hfound : schema.findType? target = some found)
    (hidentifier : Language.go.identifier .declaration found.name = .ok base) :
    Descriptor.ofGoType? schema base.toList = some (.reference target) := by
  have hdeclared : ∀ type ∈ schema.types, type.name ∈ schema.declaredNames := fun type htype =>
    List.mem_append_left _ (List.mem_map_of_mem htype)
  have hmem : found ∈ schema.types := List.mem_of_find?_eq_some hfound
  obtain rfl : found.name = target := by simpa using List.find?_some hfound
  obtain rfl := Language.casing_of_identifier hidentifier
  have hbracket : (Language.go.casing .declaration found.name).toList.head? ≠ some '[' :=
    fun hhead => absurd (Language.isWordChar_of_declaration (List.mem_of_head? hhead)) (by decide)
  have hprimitive : Language.go.primitives.find? (fun entry =>
      entry.2.toList == (Language.go.casing .declaration found.name).toList) = none := by
    rw [List.find?_eq_none]
    intro entry hentry
    simpa using toList_ne_of_mem_primitives hentry found.name
  obtain ⟨type, htype⟩ : ∃ type, schema.types.find? (fun type =>
      (Language.go.casing .declaration type.name).toList ==
        (Language.go.casing .declaration found.name).toList) = some type :=
    Option.isSome_iff_exists.1 (List.find?_isSome.2 ⟨found, hmem, by simp⟩)
  -- What is found has the same identifier, and so the same name.
  have hsame : type.name = found.name :=
    hnameable.1.injective _ (hdeclared _ (List.mem_of_find?_eq_some htype)) _ (hdeclared _ hmem)
      (String.toList_inj.1 (by simpa using List.find?_some htype))
  rw [Descriptor.ofGoType?_of_head? hbracket, Descriptor.ofGoBase?, hprimitive]
  simp only [htype, Option.map_some, hsame]

/-- A type expression is read back as the descriptor that it is written for. -/
theorem ofGoType?_of_express (hnameable : schema.Nameable .go options) (hshape : d.HasShape)
    (h : Language.go.typeSystem.express schema owner d = .ok type) :
    Descriptor.ofGoType? schema type.toList = some d := by
  obtain ⟨base, hbase, rfl⟩ := express_eq_ok hshape h
  refine Descriptor.ofGoType?_around hshape ?_
  obtain ⟨kind, hcore, hlookup⟩ | ⟨target, found, hcore, hfound, hidentifier⟩ := hbase
  · rw [hcore]
    exact ofGoType?_of_lookup hlookup
  · rw [hcore]
    exact ofGoType?_of_identifier hnameable hfound hidentifier

/-- **Types in Go tell descriptors apart**: in a schema that there is an emitter for, every
descriptor whose references lead to declared types has a type, this type is read back as the
descriptor, and two descriptors with one type are the same. -/
theorem express_go_inj (hcreate : Emitter.create .go schema options = .ok e) {d d' : Descriptor}
    (hshape : d.HasShape) (hshape' : d'.HasShape)
    (htargets : ∀ target ∈ d.targets, (schema.findType? target).isSome)
    (htargets' : ∀ target ∈ d'.targets, (schema.findType? target).isSome)
    (owner owner' : Option String) :
    (∃ type, Language.go.typeSystem.express schema owner d = .ok type ∧
      Descriptor.ofGoType? schema type.toList = some d) ∧
    (Language.go.typeSystem.express schema owner d =
      Language.go.typeSystem.express schema owner' d' → d = d') := by
  have hnameable : schema.Nameable .go options := Emitter.create_isOk_iff.1 ⟨e, hcreate⟩
  have hnames : ∀ type ∈ schema.types, Language.go.casing .declaration type.name ≠ "" :=
    fun type htype =>
      hnameable.1.nonempty _ (List.mem_append_left _ (List.mem_map_of_mem htype))
  obtain ⟨type, htype⟩ : ∃ type, Language.go.typeSystem.express schema owner d = .ok type :=
    express_isOk_iff.2 (expressible_of_hasShape hshape htargets hnames)
  obtain ⟨type', htype'⟩ : ∃ type, Language.go.typeSystem.express schema owner' d' = .ok type :=
    express_isOk_iff.2 (expressible_of_hasShape hshape' htargets' hnames)
  have hread := ofGoType?_of_express hnameable hshape htype
  have hread' := ofGoType?_of_express hnameable hshape' htype'
  refine ⟨⟨type, htype, hread⟩, fun heq => ?_⟩
  obtain rfl : type = type' := Except.ok.inj (htype.symm.trans (heq.trans htype'))
  exact Option.some.inj (hread.symm.trans hread')

/-- A schema that declares types under the names of primitive kinds. -/
def namesakes : Schema where
  name := "namesakes"
  description := ""
  types :=
    [{ name := "string", description := "", properties := [] },
      { name := "int64 id", description := "", properties := [] }]
  methods := []
  goTags := []
  typeNames_nodup := by decide
  methodNames_nodup := List.nodup_nil

/-- Lists of lists of texts are told from those of a declared type that is called like a text. -/
theorem namesakes_express_go_inj :
    ∃ e, Emitter.create .go namesakes {} = .ok e ∧
      (∃ type, Language.go.typeSystem.express namesakes none
          (.array (.array (.primitive .string))) = .ok type ∧
        Descriptor.ofGoType? namesakes type.toList =
          some (.array (.array (.primitive .string)))) ∧
      (Language.go.typeSystem.express namesakes none (.array (.array (.primitive .string))) =
          Language.go.typeSystem.express namesakes (some "pages")
            (.array (.array (.reference "string"))) →
        Descriptor.array (.array (.primitive .string)) =
          .array (.array (.reference "string"))) := by
  have hcreate : ∃ e, Emitter.create .go namesakes {} = .ok e := ⟨_, rfl⟩
  obtain ⟨e, hcreate⟩ := hcreate
  exact ⟨e, hcreate, express_go_inj hcreate (.array (.array (.primitive rfl)))
    (.array (.array (.reference "string"))) (by decide) (by decide) none (some "pages")⟩

/-- TypeScript has one type for all numbers. -/
example : Language.typescript.typeSystem.express namesakes none (.primitive .int) =
    Language.typescript.typeSystem.express namesakes none (.primitive .float) := rfl

end TypeSystem

end RpcBindings
