import RpcBindings.Proofs.Emission.Claims
import RpcBindings.Proofs.Name.Spelling

/-!
# RpcBindings.Proofs.Name.Composition

Names that are put together.  The splitting into words does not see across a separator: the
words of two names with a separator between them are those of the one and then those of the
other, and so are their identifiers as declarations.  An input or output is therefore called
like its method with one word more, `Input` or `Output`.  As neither word is an end of the
other, only methods that are called alike have inputs or outputs that are called alike, and
no input is called like an output (`names_compose`).
-/

namespace RpcBindings

namespace Name

variable {sep : List Char}

/-! ## Splitting at a separator -/

/-- Separators in front of a name are not seen. -/
theorem wordsOfChars_sep_append (h : ∀ c ∈ sep, isWordChar c = false) (name : List Char) :
    wordsOfChars (sep ++ name) = wordsOfChars name := by
  induction sep with
  | nil => rfl
  | cons c rest ih =>
      rw [List.forall_mem_cons] at h
      rw [List.cons_append, wordsOfChars, h.1]
      exact ih h.2

/-- What stands on either side of a separator is split by itself. -/
theorem wordsOfChars_append_sep_append (hne : sep ≠ []) (h : ∀ c ∈ sep, isWordChar c = false)
    (name other : List Char) :
    wordsOfChars (name ++ (sep ++ other)) = wordsOfChars name ++ wordsOfChars other := by
  cases sep with
  | nil => contradiction
  | cons c rest =>
      rw [List.forall_mem_cons] at h
      rw [List.cons_append, wordsOfChars_append_sep h.1, wordsOfChars_sep_append h.2]

/-! ## Names with a separator between them -/

section

variable {first between second : String} (hne : between ≠ "")
  (hsep : ∀ c ∈ between.toList, isWordChar c = false)
include hne hsep

/-- A separator keeps the words on its two sides apart. -/
theorem wordsOfChars_toList_append :
    wordsOfChars (first ++ between ++ second).toList =
      wordsOfChars first.toList ++ wordsOfChars second.toList := by
  rw [String.toList_append, String.toList_append, List.append_assoc]
  exact wordsOfChars_append_sep_append (by simpa using hne) hsep _ _

theorem lowerWords_append :
    lowerWords (first ++ between ++ second) = lowerWords first ++ lowerWords second := by
  rw [lowerWords, wordsOfChars_toList_append hne hsep, List.map_append]
  rfl

theorem words_append : words (first ++ between ++ second) = words first ++ words second := by
  rw [words, wordsOfChars_toList_append hne hsep, List.map_append]
  rfl

/-- The pascal form of a composed name is put together from those of its two sides. -/
theorem pascal_append :
    pascal (first ++ between ++ second) = pascal first ++ pascal second := by
  rw [pascal, pascalChars, wordsOfChars_toList_append hne hsep, List.flatMap_append,
    String.ofList_append]
  rfl

/-- The exported form of a composed name is put together from those of its two sides. -/
theorem exported_append :
    exported (first ++ between ++ second) = exported first ++ exported second := by
  rw [exported, exportedChars, wordsOfChars_toList_append hne hsep, List.flatMap_append,
    String.ofList_append]
  rfl

end

theorem isWordChar_underscore : ∀ c ∈ "_".toList, isWordChar c = false :=
  List.forall_mem_singleton.2 rfl

end Name

/-! ## Inputs and outputs -/

namespace Method

theorem inputName_eq (m : Method) : m.inputName = m.name ++ "_" ++ "input" := by
  rw [inputName, String.append_assoc]
  rfl

theorem outputName_eq (m : Method) : m.outputName = m.name ++ "_" ++ "output" := by
  rw [outputName, String.append_assoc]
  rfl

/-- The words of an input's name are those of the method and the word `input`. -/
theorem lowerWords_inputName (m : Method) :
    Name.lowerWords m.inputName = Name.lowerWords m.name ++ ["input".toList] := by
  rw [inputName_eq, Name.lowerWords_append (by decide) Name.isWordChar_underscore]
  rfl

theorem lowerWords_outputName (m : Method) :
    Name.lowerWords m.outputName = Name.lowerWords m.name ++ ["output".toList] := by
  rw [outputName_eq, Name.lowerWords_append (by decide) Name.isWordChar_underscore]
  rfl

end Method

namespace Language

variable {language : Language} {m m' : Method}

/-- A declaration that is called by two names is called by the identifiers of both. -/
theorem casing_declaration_append (language : Language) (name other : String) :
    language.casing .declaration (name ++ "_" ++ other) =
      language.casing .declaration name ++ language.casing .declaration other := by
  cases language with
  | go => exact Name.exported_append (by decide) Name.isWordChar_underscore
  | _ => exact Name.pascal_append (by decide) Name.isWordChar_underscore

/-- An input is declared under the name of its method with `Input` behind it. -/
theorem casing_inputName (language : Language) (m : Method) :
    language.casing .declaration m.inputName =
      language.casing .declaration m.name ++ "Input" := by
  have hword : language.casing .declaration "input" = "Input" := by
    cases language <;> rfl
  rw [m.inputName_eq, casing_declaration_append, hword]

theorem casing_outputName (language : Language) (m : Method) :
    language.casing .declaration m.outputName =
      language.casing .declaration m.name ++ "Output" := by
  have hword : language.casing .declaration "output" = "Output" := by
    cases language <;> rfl
  rw [m.outputName_eq, casing_declaration_append, hword]

/-- No input is called like an output. -/
theorem casing_inputName_ne_outputName (language : Language) (m m' : Method) :
    language.casing .declaration m.inputName ≠ language.casing .declaration m'.outputName := by
  rw [casing_inputName, casing_outputName]
  intro h
  have hchars := congrArg (fun identifier => identifier.toList.reverse) h
  simp at hchars

/-- Inputs and outputs that are called alike belong to methods that are called alike. -/
theorem casing_name_eq_of_io {name other : String} (hname : name ∈ [m.inputName, m.outputName])
    (hother : other ∈ [m'.inputName, m'.outputName])
    (heq : language.casing .declaration name = language.casing .declaration other) :
    language.casing .declaration m.name = language.casing .declaration m'.name := by
  simp only [List.mem_cons, List.not_mem_nil, or_false] at hname hother
  rcases hname with rfl | rfl <;> rcases hother with rfl | rfl
  · rw [casing_inputName, casing_inputName] at heq
    exact (String.append_left_inj _).1 heq
  · exact absurd heq (casing_inputName_ne_outputName language m m')
  · exact absurd heq.symm (casing_inputName_ne_outputName language m' m)
  · rw [casing_outputName, casing_outputName] at heq
    exact (String.append_left_inj _).1 heq

end Language

namespace Emitter

variable {language : Language} {schema : Schema} {options : Options} {e : Emitter} {name : String}

/-- What an emitter declares has the identifier of its name. -/
theorem declarationName_eq (h : create language schema options = .ok e)
    (hname : name ∈ schema.declaredNames) :
    e.declarationName name = .ok (language.casing .declaration name) := by
  obtain ⟨identifier, -, hgranted⟩ := owns_declaration h hname
  have hidentifier : language.identifier .declaration name = .ok identifier :=
    identifier_of_claimed h (by decide) hgranted
  rw [hgranted, Language.casing_of_identifier hidentifier]

end Emitter

namespace Name

/-- **Names compose across separators.** -/
theorem names_compose :
    (∀ first between second : String, between ≠ "" →
        (∀ c ∈ between.toList, isWordChar c = false) →
          words (first ++ between ++ second) = words first ++ words second ∧
            pascal (first ++ between ++ second) = pascal first ++ pascal second ∧
              exported (first ++ between ++ second) = exported first ++ exported second) ∧
      (∀ (language : Language) (m : Method),
        language.identifier .declaration m.inputName =
            .ok (language.casing .declaration m.name ++ "Input") ∧
          language.identifier .declaration m.outputName =
            .ok (language.casing .declaration m.name ++ "Output")) ∧
      (∀ language schema options e, Emitter.create language schema options = .ok e →
        ∀ m ∈ schema.methods,
          (m.inputs ≠ [] → e.declarationName m.inputName =
              .ok (language.casing .declaration m.name ++ "Input")) ∧
            (m.outputs ≠ [] → e.declarationName m.outputName =
              .ok (language.casing .declaration m.name ++ "Output"))) ∧
      (∀ (language : Language) (m m' : Method),
        language.casing .declaration m.name ≠ language.casing .declaration m'.name →
          ∀ name ∈ [m.inputName, m.outputName], ∀ other ∈ [m'.inputName, m'.outputName],
            language.casing .declaration name ≠ language.casing .declaration other) ∧
      ∀ (language : Language) (m m' : Method),
        language.casing .declaration m.inputName ≠ language.casing .declaration m'.outputName := by
  refine ⟨?_, ?_, ?_, ?_, Language.casing_inputName_ne_outputName⟩
  · intro first between second hne hsep
    exact ⟨words_append hne hsep, pascal_append hne hsep, exported_append hne hsep⟩
  · intro language m
    rw [Language.identifier_eq_ok_iff, Language.identifier_eq_ok_iff]
    exact ⟨⟨language.casing_inputName m, by simp⟩, language.casing_outputName m, by simp⟩
  · intro language schema options e hcreate m hm
    rw [← Language.casing_inputName, ← Language.casing_outputName]
    have hdeclared : ∀ name ∈ Schema.ioNames m, name ∈ schema.declaredNames := fun name hname =>
      List.mem_append_right _ (List.mem_flatMap.2 ⟨m, hm, hname⟩)
    constructor
    · intro hinputs
      exact Emitter.declarationName_eq hcreate
        (hdeclared _ (Schema.mem_ioNames.2 (.inl ⟨hinputs, rfl⟩)))
    · intro houtputs
      exact Emitter.declarationName_eq hcreate
        (hdeclared _ (Schema.mem_ioNames.2 (.inr ⟨houtputs, rfl⟩)))
  · intro language m m' hne name hname other hother heq
    exact hne (Language.casing_name_eq_of_io hname hother heq)

/-- A method that answers what it is given. -/
def echo : Method :=
  let text : Field :=
    { name := "text", type := .primitive .string, description := "", required := true
      default := .null, enum := none }
  { name := "echo-HTTP", description := "", inputs := [text], outputs := [text] }

/-- A schema with nothing but this method. -/
def echoes : Schema where
  name := ""
  description := ""
  types := []
  methods := [echo]
  goTags := ["json"]
  typeNames_nodup := by decide
  methodNames_nodup := by decide

/-- A separator may hold letters that are not ASCII, and names may begin and end with
separators themselves. -/
theorem echoes_names_compose :
    "é-" ≠ "" ∧ (∀ c ∈ "é-".toList, isWordChar c = false) ∧
      words ("HTTPServer_" ++ "é-" ++ "-2Go") = words "HTTPServer_" ++ words "-2Go" ∧
      (∃ e, Emitter.create .go echoes {} = .ok e ∧ echo ∈ echoes.methods ∧
        echo.inputs ≠ [] ∧ e.declarationName echo.inputName =
          .ok (Language.go.casing .declaration echo.name ++ "Input") ∧
        echo.outputs ≠ [] ∧ e.declarationName echo.outputName =
          .ok (Language.go.casing .declaration echo.name ++ "Output")) ∧
      Language.go.casing .declaration echo.name ≠
          Language.go.casing .declaration echo.inputName ∧
        echo.outputName ∈ [echo.inputName, echo.outputName] ∧
          Language.go.casing .declaration echo.outputName ≠ Language.go.casing .declaration
            ({ echo with name := echo.inputName } : Method).outputName := by
  obtain ⟨hwords, -, hdeclared, happart, -⟩ := names_compose
  have hne : "é-" ≠ "" := by decide
  have hsep : ∀ c ∈ "é-".toList, isWordChar c = false :=
    List.forall_mem_cons.2 ⟨rfl, List.forall_mem_singleton.2 rfl⟩
  have hcreate : ∃ e, Emitter.create .go echoes {} = .ok e := ⟨_, rfl⟩
  obtain ⟨e, hcreate⟩ := hcreate
  have hmem : echo ∈ echoes.methods := List.mem_singleton.2 rfl
  have hinputs : echo.inputs ≠ [] := List.cons_ne_nil _ _
  have houtputs : echo.outputs ≠ [] := List.cons_ne_nil _ _
  have hio := hdeclared .go echoes {} e hcreate echo hmem
  have hcasing : Language.go.casing .declaration echo.name ≠
      Language.go.casing .declaration echo.inputName := by decide
  have houtput : echo.outputName ∈ [echo.inputName, echo.outputName] := by decide
  refine ⟨hne, hsep, (hwords _ _ _ hne hsep).1, ⟨e, hcreate, hmem, hinputs, hio.1 hinputs,
    houtputs, hio.2 houtputs⟩, hcasing, houtput, ?_⟩
  exact happart .go echo { echo with name := echo.inputName } hcasing _ houtput _
    (List.mem_cons_of_mem _ List.mem_cons_self)

end Name

end RpcBindings
