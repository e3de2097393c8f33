import RpcBindings.Proofs.Name.Spelling
import RpcBindings.Proofs.Typing.Expression

/-!
# RpcBindings.Proofs.Typing.Vocabulary

The names in type expressions.  A language writes the names of its own types around
what a field refers to, so a name in the type of a field is one of these or the
identifier at its base (`mem_typeNames_fieldType`).
-/

namespace RpcBindings

/-! ## Names in an expression -/

namespace Text

variable {s t name : String}

/-- The characters of names; what `::` joins is a single name. -/
def isTypeChar (c : Char) : Bool :=
  Name.isWordChar c || c == '_' || c == ':'

/-- The names in a type expression. -/
def typeNames (expression : String) : List String :=
  ((splitChars ' ' (expression.toList.map fun c => if isTypeChar c then c else ' ')).filter
    (!·.isEmpty)).map String.ofList

/-- A separator keeps the names on its two sides apart. -/
theorem typeNames_append_sep {sep : Char} (h : isTypeChar sep = false) (s t : String) :
    typeNames (s ++ String.singleton sep ++ t) = typeNames s ++ typeNames t := by
  simp only [typeNames, String.toList_append, String.toList_singleton, List.append_assoc,
    List.singleton_append, List.map_append, List.map_cons, h, Bool.false_eq_true, if_false,
    splitChars_append_sep, List.filter_append]

/-- A generic type has its own names and those of its argument. -/
theorem mem_typeNames_generic {generic : String} :
    name ∈ typeNames (generic ++ "<" ++ s ++ ">") ↔
      name ∈ typeNames generic ∨ name ∈ typeNames s := by
  have hopening : "<" = String.singleton '<' := rfl
  have hclosing : ">" = String.singleton '>' ++ "" := by decide
  have hempty : typeNames "" = [] := by decide
  rw [hclosing, hopening, ← String.append_assoc, typeNames_append_sep (by decide),
    typeNames_append_sep (by decide), hempty, List.append_nil, List.mem_append]

/-- A word is a single name. -/
theorem typeNames_word (hne : s ≠ "") (h : ∀ c ∈ s.toList, Name.isWordChar c = true) :
    typeNames s = [s] := by
  have hkept : s.toList.map (fun c => if isTypeChar c then c else ' ') = s.toList := by
    conv_rhs => rw [← List.map_id s.toList]
    exact List.map_congr_left fun c hc => by simp [isTypeChar, h c hc]
  have hspace : ' ' ∉ s.toList := fun hc => absurd (h _ hc) (by decide)
  have hnil : s.toList ≠ [] := by simpa using hne
  rw [typeNames, hkept, splitChars_of_notMem hspace,
    List.filter_cons_of_pos (by simpa using hnil), List.filter_nil, List.map_singleton,
    String.ofList_toList]

end Text

namespace Language

variable {language : Language} {name base type : String} {field : Field}

/-- The names that a language writes in type expressions. -/
def writtenNames (language : Language) : List String :=
  (language.primitives.map (·.2) ++ [language.sequence "", language.optional .string ""]).flatMap
    Text.typeNames

example : Language.rust.writtenNames =
    ["String", "i64", "f64", "bool", "DateTime", "Utc", "HashMap", "String", "serde_json::Value",
      "Vec", "Option"] := by
  decide

example : Language.typescript.writtenNames =
    ["string", "number", "number", "boolean", "Date", "Record", "string", "any", "undefined"] := by
  decide

/-- The names in the type of a primitive are among those the language writes. -/
theorem mem_writtenNames_of_primitive {kind : Kind}
    (h : language.primitives.lookup kind = some type) (hname : name ∈ Text.typeNames type) :
    name ∈ language.writtenNames := by
  obtain ⟨before, after, hentries, -⟩ := List.lookup_eq_some_iff.1 h
  refine List.mem_flatMap.2 ⟨type, List.mem_append_left _ (List.mem_map.2 ⟨(kind, type), ?_, rfl⟩),
    hname⟩
  simp [hentries]

section

variable (hlanguage : language = .rust ∨ language = .typescript)
include hlanguage

/-- A sequence adds names of the language only. -/
theorem mem_typeNames_sequence (h : name ∈ Text.typeNames (language.sequence type)) :
    name ∈ language.writtenNames ∨ name ∈ Text.typeNames type := by
  obtain rfl | rfl := hlanguage
  · have hvec : ∀ name ∈ Text.typeNames "Vec", name ∈ Language.rust.writtenNames := by decide
    have hfront : "Vec<" = "Vec" ++ "<" := by decide
    rw [sequence, hfront, Text.mem_typeNames_generic] at h
    exact h.imp_left (hvec name)
  · have hparts : Language.typescript.sequence type = type ++ String.singleton '[' ++ "]" := by
      rw [String.append_assoc]
      rfl
    have hnone : Text.typeNames "]" = [] := by decide
    rw [hparts, Text.typeNames_append_sep (by decide), hnone, List.append_nil] at h
    exact .inr h

/-- So does an option. -/
theorem mem_typeNames_optional {kind : Kind}
    (h : name ∈ Text.typeNames (language.optional kind type)) :
    name ∈ language.writtenNames ∨ name ∈ Text.typeNames type := by
  obtain rfl | rfl := hlanguage
  · have hoption : ∀ name ∈ Text.typeNames "Option", name ∈ Language.rust.writtenNames := by decide
    have hfront : "Option<" = "Option" ++ "<" := by decide
    rw [optional, hfront, Text.mem_typeNames_generic] at h
    exact h.imp_left (hoption name)
  · have hundefined : ∀ name ∈ Text.typeNames "| undefined",
        name ∈ Language.typescript.writtenNames := by decide
    have hparts : Language.typescript.optional kind type =
        type ++ String.singleton ' ' ++ "| undefined" := by
      rw [String.append_assoc]
      rfl
    rw [hparts, Text.typeNames_append_sep (by decide), List.mem_append] at h
    exact h.elim .inr fun h => .inl (hundefined name h)

/-- A name in a type expression is one the language writes or one of the base. -/
theorem mem_typeNames_around {d : Descriptor}
    (h : name ∈ Text.typeNames (language.around base d)) :
    name ∈ language.writtenNames ∨ name ∈ Text.typeNames base := by
  induction d with
  | plain kind target => exact .inr h
  | nested kind target items ih => exact (mem_typeNames_sequence hlanguage h).elim .inl ih

/-- The type of a field adds names of the language to those of its base only. -/
theorem mem_typeNames_fieldType (h : name ∈ Text.typeNames (language.fieldType base field)) :
    name ∈ language.writtenNames ∨ name ∈ Text.typeNames base := by
  unfold fieldType at h
  split at h
  · exact mem_typeNames_around hlanguage h
  · exact (mem_typeNames_optional hlanguage h).elim .inl (mem_typeNames_around hlanguage)

/-! ## Names that could be declared -/

/-- What a language writes is an identifier of letters or no identifier at all. -/
theorem isTold_writtenNames : language.writtenNames.all Name.isTold = true := by
  obtain rfl | rfl := hlanguage <;> decide

/-- The types of the table are told apart as names. -/
theorem isTold_primitives : (language.primitives.map (·.2)).all Name.isTold = true := by
  obtain rfl | rfl := hlanguage <;> decide

/-- No name of a language ends with the word that ends the name of an input or output. -/
theorem getLast?_writtenNames :
    language.writtenNames.all (fun name =>
      (Name.lowerWords name).getLast? != some "input".toList &&
        (Name.lowerWords name).getLast? != some "output".toList) = true := by
  obtain rfl | rfl := hlanguage <;> decide

end

end Language

end RpcBindings
