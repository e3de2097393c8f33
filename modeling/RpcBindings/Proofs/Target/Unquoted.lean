import RpcBindings.Proofs.Name.Lexical
import RpcBindings.Proofs.Target.Client

/-!
# RpcBindings.Proofs.Target.Unquoted

What stands in documents without quotes.  Names come into a document as identifiers, and
most texts as literals, which hold no line feeds.  But some texts stand in its lines as
they are: remarks of all kinds, the tags of members in Go, the presence notes in Rust, the
properties in TypeScript.  Such a text goes on behind a line feed with lines of its own.
In Go and Rust the lines that are drafted depart from the word of an import
(`carries_declaration`, `carries_validation`); where these texts hold no line feeds, the
lines of a document are those that are drafted (`straight_declaration`,
`straight_validation`, `straight_stub`).
-/

namespace RpcBindings

namespace Language

/-- The word that begins an import. -/
def importWord : Language → List Char
  | .go | .typescript => "import ".toList
  | .rust => "use ".toList
  | .ruby => "require ".toList

/-- A text on one line that begins like no import. -/
abbrev Apart (language : Language) (text : String) : Prop :=
  Text.Apart language.importWord text

/-- The lines of a draft begin like no imports, and carry some texts as they are. -/
abbrev Carries (language : Language) (draft : Draft) (texts : List String) : Prop :=
  Draft.Carries language.importWord draft texts

theorem importWord_ne_nil (language : Language) : language.importWord ≠ [] := by
  cases language <;> decide

end Language

/-! ## Texts without quotes -/

namespace Go

/-- The digits of a default, and what follows them on their line. -/
def unquotedStep (m : Member) : Step → List String
  | .default d =>
    if m.field.type.kind == .int then [if isPointer m then d.render ++ ")" else d.render] else []
  | _ => []

/-- What stands in the lines of a struct without quotes. -/
def unquoted (options : Options) (d : Declaration) : List String :=
  comment d :: d.members.flatMap fun m => [m.summary, tags options m.field]

end Go

namespace Rust

/-- The digits of a default, and what follows them on their line, or what the note in the place of a
check says. -/
def unquotedStep (m : Member) : Step → List String
  | .default d =>
    if m.field.type.kind == .int then [d.render ++ if m.optional then ");" else ";"] else []
  | .required =>
    match missing? m.field.type.kind "" with
    | none => [m.field.name ++ ": presence is enforced when deserializing."]
    | some _ => []
  | _ => []

/-- What stands in the lines of a struct without quotes. -/
def unquoted (d : Declaration) : List String :=
  comment d :: d.members.map (·.summary)

end Rust

namespace TypeScript

/-- The property that a step is about, and the digits of a default. -/
def unquotedStep (m : Member) : Step → List String
  | .default d =>
    propertyKey m.identifier :: if m.field.type.kind == .int then [d.render] else []
  | _ => [propertyKey m.identifier]

/-- What stands in the lines of an interface without quotes, or may do so. -/
def unquoted (d : Declaration) : List String :=
  summary d :: d.members.flatMap fun m => [m.summary, propertyKey m.identifier]

end TypeScript

namespace Language

/-- What stands in the lines of a step without quotes. -/
def unquotedStep (m : Member) (s : Step) : Language → List String
  | .go => Go.unquotedStep m s
  | .rust => Rust.unquotedStep m s
  | .typescript => TypeScript.unquotedStep m s
  | .ruby => []

/-- What stands in the lines of a declaration without quotes. -/
def unquotedDeclaration (options : Options) (d : Declaration) : Language → List String
  | .go => Go.unquoted options d
  | .rust => Rust.unquoted d
  | .typescript => TypeScript.unquoted d
  | .ruby => []

/-- What stands in the lines of a validation without quotes. -/
def unquotedRules (language : Language) (d : Declaration) (plan : Plan) : List String :=
  (d.ruled plan).flatMap fun entry => entry.2.flatMap fun s => language.unquotedStep entry.1 s

end Language

/-! ## Names -/

variable {m : Member} {d : Declaration} {plan : Plan} {s : Step} {value : String}
  {options : Options} {language : Language}

/-- The name of a declaration is a word, its members are called by identifiers, and their types
stand on one line. -/
structure Declaration.IsPlain (language : Language) (d : Declaration) : Prop where
  name : ∀ c ∈ d.name.toList, Name.isWordChar c = true
  identifiers : ∀ m ∈ d.members, language.identifier .field m.field.name = .ok m.identifier
  types : ∀ m ∈ d.members, '\n' ∉ m.type.toList

/-- The name of a plain declaration is on one line. -/
theorem Declaration.IsPlain.notMem_name (h : d.IsPlain language) : '\n' ∉ d.name.toList :=
  fun hc => absurd (h.name _ hc) (by decide)

/-- A plan validates members of the declaration. -/
theorem Declaration.mem_members_of_mem_ruled {entry : Member × List Step}
    (h : entry ∈ d.ruled plan) : entry.1 ∈ d.members := by
  obtain ⟨rules, -, hfound⟩ := List.mem_filterMap.1 h
  obtain ⟨m, hm, rfl⟩ := Option.map_eq_some_iff.1 hfound
  exact List.mem_reverse.1 (List.mem_of_find?_eq_some hm)

/-- The names in a stub stand on one line. -/
structure Stub.IsPlain (s : Stub) : Prop where
  function : '\n' ∉ s.function.toList
  input : ∀ name, s.input = some name → '\n' ∉ name.toList
  output : ∀ name, s.output = some name → '\n' ∉ name.toList

/-! ## Go -/

namespace Go

/-- A member begins with a capital or a digit. -/
theorem apart_identifier {name identifier : String}
    (h : Language.go.identifier .field name = .ok identifier) : Language.go.Apart identifier := by
  obtain ⟨hcasing, hempty⟩ := Language.identifier_eq_ok_iff.1 h
  have hchars : identifier.toList = Name.exportedChars name.toList := by
    rw [← hcasing, Language.casing, Name.exported, String.toList_ofList]
  have hfeed : '\n' ∉ identifier.toList := by
    rw [hchars]
    exact fun hc => absurd (Name.isWordChar_exportedChars hc) (by decide)
  have hhead := Name.head?_exportedChars name.toList
  rw [← hchars] at hhead
  cases hfind : name.toList.find? Name.isWordChar with
  | none =>
      rw [hfind, Option.map_none, List.head?_eq_none_iff] at hhead
      exact absurd (String.toList_eq_nil_iff.1 hhead) hempty
  | some c =>
      rw [hfind, Option.map_some, List.head?_eq_some_iff] at hhead
      obtain ⟨rest, hrest⟩ := hhead
      have hall : Text.isIndent c.toUpper = false ∧
          Text.departs Language.go.importWord [c.toUpper] = true :=
        Name.of_isWordChar (P := fun c => Text.isIndent c.toUpper = false ∧
          Text.departs Language.go.importWord [c.toUpper] = true) (by decide)
          (List.find?_some hfind)
      exact Text.apart_of_cons hrest hfeed hall.1 hall.2

/-- The value of a member begins with the letter of a receiver, and a dot. -/
theorem apart_value {name identifier : String}
    (hname : ∀ c ∈ name.toList, Name.isWordChar c = true) (hidentifier : '\n' ∉ identifier.toList) :
    Language.go.Apart (receiver name ++ "." ++ identifier) := by
  refine Text.Apart.append ⟨?_, ?_⟩ hidentifier
  · exact Text.notMem_append.2 ⟨notMem_receiver hname, by decide⟩
  · rw [receiver, String.toList_append, String.toList_ofList]
    cases hcs : name.toList with
    | nil => decide
    | cons c rest =>
        have hall {c : Char} (hc : Name.isWordChar c = true) : Text.departs
            Language.go.importWord ([c.toLower, '.'].dropWhile Text.isIndent) = true :=
          Name.of_isWordChar (P := fun c => Text.departs
            Language.go.importWord ([c.toLower, '.'].dropWhile Text.isIndent) = true) (by decide) hc
        exact hall (hname c (hcs ▸ List.mem_cons_self))

/-- A Go member carries its summary and its tags. -/
theorem carries_member
    (hidentifier : Language.go.identifier .field m.field.name = .ok m.identifier)
    (htype : '\n' ∉ m.type.toList) :
    Language.go.Carries (member options m) [m.summary, tags options m.field] := by
  have hfront : Language.go.Apart (m.identifier ++ " " ++ m.type ++ " ") :=
    (((apart_identifier hidentifier).append (by decide)).append htype).append (by decide)
  have hcomment : Language.go.Apart "// " := by decide
  exact .text hcomment (.text hfront .nil)

/-- A Go declaration carries the texts that it does not quote. -/
theorem carries_declaration (h : d.IsPlain .go) :
    Language.go.Carries (declaration options d) (unquoted options d) := by
  have hcomment : Language.go.Apart "// " := by decide
  have hopening : Language.go.Apart ("type " ++ d.name ++ " struct \x7b") :=
    (Text.Apart.append (by decide) h.notMem_name).append (by decide)
  have hmembers : Language.go.Carries
      ([Draft.emptyLine].intercalate (d.members.map (member options)))
      (d.members.flatMap fun m => [m.summary, tags options m.field]) :=
    .intercalate fun m hm => carries_member (h.identifiers m hm) (h.types m hm)
  have hhead : Language.go.Carries
      [.line 0 ("// " ++ comment d), .line 0 ("type " ++ d.name ++ " struct \x7b")] [comment d] :=
    .text hcomment (.apart hopening .nil)
  have hclosing : Language.go.Carries [.line 0 "\x7d"] [] := .apart (by decide) .nil
  have hall := (hhead.append hmembers).append hclosing
  rwa [List.append_nil] at hall

/-! ### Validation -/

/-- The line that returns a Go error is apart from imports. -/
theorem apart_failure (field message : String) :
    Language.go.Apart ("return ValidationError\x7bField: " ++ Literal.doubleQuoted field ++
      ", Message: " ++ Literal.doubleQuoted message ++ "\x7d") :=
  ((((Text.Apart.append (by decide) (Literal.notMem_doubleQuoted field)).append (by decide)).append
    (Literal.notMem_doubleQuoted message)).append (by decide))

section

variable (hvalue : Language.go.Apart value)
include hvalue

/-- A Go step for a default carries the texts that it does not quote. -/
theorem carries_defaultStep (d : DefaultValue) :
    Language.go.Carries (defaultStep m value d) (unquotedStep m (.default d)) := by
  have hif : Language.go.Apart ("if " ++ value) := Text.Apart.append (by decide) hvalue.feed
  have hbrace : Language.go.Carries [.line 1 "\x7d", Draft.emptyLine] [] :=
    .apart (by decide) (.empty .nil)
  have hquoted := Literal.notMem_doubleQuoted d.render
  unfold defaultStep unquotedStep
  extract_lets isInt zero literal typed
  have hzero : '\n' ∉ zero.toList := by
    unfold zero
    split <;> decide
  split
  · have hcondition : Language.go.Apart s!"if {value} == nil || *{value} == {zero} \x7b" :=
      ((((hif.append (by decide)).append hvalue.feed).append (by decide)).append hzero).append
        (by decide)
    have hset : Language.go.Apart ("value := " ++ if isInt then "int64(" else "") := by
      split <;> decide
    have htyped : typed = (if isInt then "int64(" else "") ++
        if isInt then d.render ++ ")" else Literal.doubleQuoted d.render := by
      unfold typed literal
      split <;> simp [String.append_assoc]
    have hpointed : Language.go.Apart (value ++ " = &value") := hvalue.append (by decide)
    rw [htyped, ← String.append_assoc]
    exact .apart hcondition (.textIf hset hquoted (.apart hpointed hbrace))
  · have hcondition : Language.go.Apart s!"if {value} == {zero} \x7b" :=
      ((hif.append (by decide)).append hzero).append (by decide)
    have hset : Language.go.Apart (value ++ " = ") := hvalue.append (by decide)
    exact .apart hcondition (.textIf hset hquoted hbrace)

/-- A Go step for an enumeration quotes all its texts. -/
theorem carries_enumStep (allowed : List String) :
    Language.go.Carries (enumStep m value allowed) [] := by
  unfold enumStep
  extract_lets texts condition
  have hlisted := Literal.notMem_listed Literal.notMem_doubleQuoted allowed
  have htexts : '\n' ∉ texts.toList :=
    Text.notMem_append.2 ⟨Text.notMem_append.2 ⟨by decide, hlisted⟩, by decide⟩
  have hcondition : '\n' ∉ condition.toList := by
    unfold condition
    split <;> simp [toString, hvalue.feed, htexts]
  have hif : Language.go.Apart ("if " ++ condition ++ " \x7b") :=
    (Text.Apart.append (by decide) hcondition).append (by decide)
  exact .apart hif (.apart (apart_failure _ _) (.apart (by decide) (.empty .nil)))

/-- A step carries nothing but the digits of a default. -/
theorem carries_step : Language.go.Carries (step m value s) (unquotedStep m s) := by
  have hbrace : Language.go.Apart "\x7d" := by decide
  cases s with
  | default d => exact carries_defaultStep hvalue d
  | required =>
      have hmissing : '\n' ∉ (missing m.field.type.kind value).toList := by
        unfold missing
        split <;> exact Text.notMem_append.2 ⟨hvalue.feed, by decide⟩
      have hif : Language.go.Apart ("if " ++ missing m.field.type.kind value ++ " \x7b") :=
        (Text.Apart.append (by decide) hmissing).append (by decide)
      exact .apart hif (.apart (apart_failure _ _) (.apart hbrace (.empty .nil)))
  | oneOf allowed => exact carries_enumStep hvalue allowed
  | elements type =>
      have hfor : Language.go.Apart ("for index := range " ++ value ++ " \x7b") :=
        (Text.Apart.append (by decide) hvalue.feed).append (by decide)
      have hif : Language.go.Apart
          ("if err := " ++ value ++ "[index].Validate(); err != nil \x7b") :=
        (Text.Apart.append (by decide) hvalue.feed).append (by decide)
      exact .apart hfor (.apart hif (.apart (by decide)
        (.apart hbrace (.apart hbrace (.empty .nil)))))

end

end Go

/-! ## Rust -/

namespace Rust

/-- A Rust member carries its summary. -/
theorem carries_member
    (hidentifier : Language.rust.identifier .field m.field.name = .ok m.identifier)
    (htype : '\n' ∉ m.type.toList) : Language.rust.Carries (member m) [m.summary] := by
  have hfeed : '\n' ∉ m.identifier.toList := by
    rw [← Language.casing_of_identifier hidentifier]
    exact Language.notMem_casing (.inl (by decide)) m.field.name
  have hcomment : Language.rust.Apart "// " := by decide
  have hrename : Language.rust.Carries (rename m) [] := by
    have hattribute : Language.rust.Apart
        ("#[serde(rename = " ++ Literal.rust m.field.name ++ ")]") :=
      (Text.Apart.append (by decide) (Literal.notMem_rust _)).append (by decide)
    rw [rename]
    split
    · exact .nil
    · exact .apart hattribute .nil
  have hmember : Language.rust.Apart ("pub " ++ m.identifier ++ ": " ++ m.type ++ ",") :=
    (((Text.Apart.append (by decide) hfeed).append (by decide)).append htype).append (by decide)
  exact .text hcomment (hrename.append (.apart hmember .nil))

/-- A Rust declaration carries the texts that it does not quote. -/
theorem carries_declaration (h : d.IsPlain .rust) :
    Language.rust.Carries (declaration options d) (unquoted d) := by
  have hcomment : Language.rust.Apart "// " := by decide
  have hderive : Language.rust.Apart ("#[derive(" ++ conversions d.role ++ ", Debug, Clone)]") := by
    have hall : ∀ traits ∈ ["Serialize, Deserialize", "Serialize", "Deserialize"],
        Language.rust.Apart ("#[derive(" ++ traits ++ ", Debug, Clone)]") := by decide
    cases d.role <;> exact hall _ (by simp [conversions])
  have hopening : Language.rust.Apart ("pub struct " ++ d.name ++ " \x7b") :=
    (Text.Apart.append (by decide) h.notMem_name).append (by decide)
  have hmembers : Language.rust.Carries ([Draft.emptyLine].intercalate (d.members.map member))
      (d.members.flatMap fun m => [m.summary]) :=
    .intercalate fun m hm => carries_member (h.identifiers m hm) (h.types m hm)
  have hhead : Language.rust.Carries
      [.line 0 ("// " ++ comment d),
        .line 0 ("#[derive(" ++ conversions d.role ++ ", Debug, Clone)]"),
        .line 0 ("pub struct " ++ d.name ++ " \x7b")] [comment d] :=
    .text hcomment (.apart hderive (.apart hopening .nil))
  have hclosing : Language.rust.Carries [.line 0 "\x7d"] [] := .apart (by decide) .nil
  have hall := (hhead.append hmembers).append hclosing
  rw [List.append_nil, ← List.map_eq_flatMap] at hall
  exact hall

/-! ### Validation -/

theorem apart_failure (field message : String) :
    Language.rust.Apart
      ("return Err(" ++ Literal.rust (fieldMessage field message) ++ ".to_string());") :=
  (Text.Apart.append (by decide) (Literal.notMem_rust _)).append (by decide)

/-- The test for an absent value is on one line where the value is. -/
theorem notMem_missing? {kind : Kind} {condition : String} (hvalue : '\n' ∉ value.toList)
    (h : missing? kind value = some condition) : '\n' ∉ condition.toList := by
  have horigin := Schema.notMem_render_int originSecond
  unfold missing? at h
  split at h
  · exact Option.some.inj h ▸ Text.notMem_append.2 ⟨hvalue, by decide⟩
  · exact Option.some.inj h ▸ Text.notMem_append.2 ⟨hvalue, by decide⟩
  · exact Option.some.inj h ▸ Text.notMem_append.2 ⟨hvalue, by decide⟩
  · obtain rfl := Option.some.inj h
    exact Text.notMem_append.2 ⟨Text.notMem_append.2 ⟨hvalue, by decide⟩, horigin⟩
  · contradiction

/-- Whether a kind is tested for absence does not depend on the value. -/
theorem missing?_eq_none_iff {kind : Kind} :
    missing? kind value = none ↔ missing? kind "" = none := by
  cases kind <;> simp [missing?]

section

variable (hvalue : Language.rust.Apart value)
include hvalue

theorem carries_defaultStep (d : DefaultValue) :
    Language.rust.Carries (defaultStep m value d) (unquotedStep m (.default d)) := by
  have hbrace : Language.rust.Carries [.line 2 "\x7d", Draft.emptyLine] [] :=
    .apart (by decide) (.empty .nil)
  have hquoted : '\n' ∉ (Literal.rust d.render ++ ".to_string()").toList :=
    Text.notMem_append.2 ⟨Literal.notMem_rust _, by decide⟩
  unfold defaultStep unquotedStep
  extract_lets isInt literal condition assigned
  have hcondition : '\n' ∉ condition.toList := by
    unfold condition
    split <;> split <;> exact Text.notMem_append.2 ⟨hvalue.feed, by decide⟩
  have hif : Language.rust.Apart ("if " ++ condition ++ " \x7b") :=
    (Text.Apart.append (by decide) hcondition).append (by decide)
  have hset : Language.rust.Apart (value ++ " = " ++ if m.optional then "Some(" else "") := by
    refine (hvalue.append (by decide)).append ?_
    split <;> decide
  have hend : '\n' ∉ (if m.optional then ");" else ";").toList := by
    split <;> decide
  have hline : s!"{value} = {assigned};" =
      value ++ " = " ++ (if m.optional then "Some(" else "") ++
        if isInt then d.render ++ (if m.optional then ");" else ";")
        else Literal.rust d.render ++ ".to_string()" ++ if m.optional then ");" else ";" := by
    unfold assigned literal
    split <;> split <;> simp only [toString, String.append_assoc] <;> rfl
  rw [hline]
  exact .apart hif (.textIf hset (Text.notMem_append.2 ⟨hquoted, hend⟩) hbrace)

/-- A Rust step for a required field carries the texts that it does not quote. -/
theorem carries_requiredStep :
    Language.rust.Carries (requiredStep m value) (unquotedStep m .required) := by
  unfold requiredStep unquotedStep
  cases hmissing : missing? m.field.type.kind value with
  | none =>
      have hcomment : Language.rust.Apart "// " := by decide
      have hnote : s!"// {m.field.name}: presence is enforced when deserializing." =
          "// " ++ (m.field.name ++ ": presence is enforced when deserializing.") :=
        String.append_assoc
      simp only [missing?_eq_none_iff.1 hmissing]
      rw [hnote]
      exact .text hcomment (.empty .nil)
  | some condition =>
      obtain ⟨other, hother⟩ : ∃ other, missing? m.field.type.kind "" = some other := by
        rw [← Option.ne_none_iff_exists', Ne, ← @missing?_eq_none_iff value, hmissing]
        exact Option.some_ne_none _
      have hcondition : '\n' ∉ condition.toList := notMem_missing? hvalue.feed hmissing
      have hif : Language.rust.Apart ("if " ++ condition ++ " \x7b") :=
        (Text.Apart.append (by decide) hcondition).append (by decide)
      simp only [hother]
      exact .apart hif (.apart (apart_failure _ _) (.apart (by decide) (.empty .nil)))

theorem carries_enumStep (allowed : List String) :
    Language.rust.Carries (enumStep m value allowed) [] := by
  have hbrace : Language.rust.Apart "\x7d" := by decide
  have hlisted := Literal.notMem_listed Literal.notMem_rust allowed
  unfold enumStep
  extract_lets texts message
  have htexts : '\n' ∉ texts.toList :=
    Text.notMem_append.2 ⟨Text.notMem_append.2 ⟨by decide, hlisted⟩, by decide⟩
  split
  · have hlet : Language.rust.Apart ("if let Some(value) = " ++ value ++ ".as_deref() \x7b") :=
      (Text.Apart.append (by decide) hvalue.feed).append (by decide)
    have hif : Language.rust.Apart
        ("if !value.is_empty() && !" ++ texts ++ ".contains(&value) \x7b") :=
      (Text.Apart.append (by decide) htexts).append (by decide)
    exact .apart hlet (.apart hif (.apart (apart_failure _ _)
      (.apart hbrace (.apart hbrace (.empty .nil)))))
  · have hif : Language.rust.Apart ("if !" ++ value ++ ".is_empty() && !" ++ texts ++
        ".contains(&" ++ value ++ ".as_str()) \x7b") :=
      (((((Text.Apart.append (by decide) hvalue.feed).append (by decide)).append htexts).append
        (by decide)).append hvalue.feed).append (by decide)
    exact .apart hif (.apart (apart_failure _ _) (.apart hbrace (.empty .nil)))

omit hvalue in
/-- The loop over elements holds no text of the schema. -/
theorem carries_elementsLoop (depth : Nat) {items : String} (hitems : '\n' ∉ items.toList) :
    Language.rust.Carries (elementsLoop depth items) [] := by
  have hfor : Language.rust.Apart
      ("for (i, item) in " ++ items ++ ".iter_mut().enumerate() \x7b") :=
    (Text.Apart.append (by decide) hitems).append (by decide)
  have hbrace : Language.rust.Apart "\x7d" := by decide
  exact .apart hfor (.apart (by decide) (.apart (by decide)
    (.apart hbrace (.apart hbrace .nil))))

theorem carries_elementsStep : Language.rust.Carries (elementsStep m value) [] := by
  unfold elementsStep
  split
  · have hlet : Language.rust.Apart ("if let Some(items) = " ++ value ++ ".as_mut() \x7b") :=
      (Text.Apart.append (by decide) hvalue.feed).append (by decide)
    have hloop := carries_elementsLoop 3 (by decide : '\n' ∉ "items".toList)
    exact (Draft.Carries.apart hlet hloop).append (.apart (by decide) (.empty .nil))
  · exact (carries_elementsLoop 2 hvalue.feed).append (.empty .nil)

end

/-- A Rust step carries the texts that it does not quote. -/
theorem carries_step (hidentifier : '\n' ∉ m.identifier.toList) :
    Language.rust.Carries (step m s) (unquotedStep m s) := by
  have hvalue : Language.rust.Apart ("self." ++ m.identifier) :=
    Text.Apart.append (by decide) hidentifier
  cases s with
  | default d => exact carries_defaultStep hvalue d
  | required => exact carries_requiredStep hvalue
  | oneOf allowed => exact carries_enumStep hvalue allowed
  | elements type => exact carries_elementsStep hvalue

/-! ### Stubs -/

/-- The body of a plain Rust stub quotes all its texts. -/
theorem carries_body {s : Stub} (h : s.IsPlain) : Language.rust.Carries (body s) [] := by
  have hpayload : '\n' ∉ (if s.input.isSome then "Some(json)" else "None").toList := by
    split <;> decide
  have hinvocation : Language.rust.Apart ("self.call(" ++ Literal.rust s.method.name ++ ", " ++
      (if s.input.isSome then "Some(json)" else "None") ++ ").await?;") :=
    (((Text.Apart.append (by decide) (Literal.notMem_rust _)).append (by decide)).append
      hpayload).append (by decide)
  have hjson : Language.rust.Carries
      (if s.input.isSome then [.line 2 "let json = serde_json::to_vec(input)?;"] else []) [] := by
    split
    · exact .apart (by decide) .nil
    · exact .nil
  refine hjson.append ?_
  cases houtput : s.output with
  | none => exact .apart hinvocation (.apart (by decide) .nil)
  | some name =>
      have hres := Text.Apart.append (by decide : Language.rust.Apart "let res: bytes::Bytes = ")
        hinvocation.feed
      have hname : Language.rust.Apart
          ("let output: " ++ name ++ " = serde_json::from_slice(&res)?;") :=
        (Text.Apart.append (by decide) (h.output name houtput)).append (by decide)
      exact .apart hres (.apart hname (.apart (by decide) .nil))

/-- The signature of a plain Rust stub is apart from imports. -/
theorem apart_signature {s : Stub} (h : s.IsPlain) : Language.rust.Apart (signature s) := by
  unfold signature
  extract_lets input result
  have hinput : '\n' ∉ input.toList := by
    unfold input
    cases hsome : s.input with
    | none => decide
    | some name => exact Text.notMem_append.2 ⟨by decide, h.input name hsome⟩
  have hresult : '\n' ∉ result.toList := by
    unfold result
    cases hsome : s.output with
    | none => decide
    | some name => exact h.output name hsome
  have hopening : Language.rust.Apart ("pub async fn " ++ s.function ++ "(&self") :=
    (Text.Apart.append (by decide) h.function).append (by decide)
  exact (((hopening.append hinput).append (by decide)).append hresult).append (by decide)

/-- The code of a plain Rust stub quotes all its texts. -/
theorem carries_stubCode {s : Stub} (h : s.IsPlain) :
    Language.rust.Carries (Language.rust.stubCode s) [] :=
  .apart (apart_signature h) ((carries_body h).append (.apart (by decide) .nil))

end Rust

/-! ## TypeScript -/

namespace TypeScript

/-- The access to a property is on one line where its key is. -/
theorem notMem_propertyAccess {name : String} (h : '\n' ∉ (propertyKey name).toList) :
    '\n' ∉ (propertyAccess name).toList := by
  rw [propertyKey] at h
  rw [propertyAccess]
  split
  · next hplain =>
    rw [if_pos hplain] at h
    exact Text.notMem_append.2 ⟨by decide, h⟩
  · have hliteral := Literal.notMem_doubleQuoted name
    exact Text.notMem_append.2 ⟨Text.notMem_append.2 ⟨by decide, hliteral⟩, by decide⟩

/-- A comment on one line is straight. -/
theorem straight_comment {text : String} (depth : Nat) (h : '\n' ∉ text.toList) :
    (comment depth text).Straight := by
  simp [comment, h]

/-- A TypeScript member is straight where its summary and its key are on one line. -/
theorem straight_member (htexts : ∀ text ∈ [m.summary, propertyKey m.identifier],
    '\n' ∉ text.toList) (htype : '\n' ∉ m.type.toList) : (member m).Straight := by
  rw [List.forall_mem_cons, List.forall_mem_singleton] at htexts
  have hmark : '\n' ∉ (if m.optional then "?" else "").toList := by
    split <;> decide
  rw [member, Draft.straight_append]
  refine ⟨straight_comment 1 htexts.1, ?_⟩
  simp only [Draft.straight_line, Draft.straight_nil, and_true, Text.notMem_append]
  exact ⟨⟨⟨htexts.2, hmark⟩, by decide⟩, htype⟩

/-- A TypeScript declaration is straight where the texts that it does not quote are. -/
theorem straight_declaration (h : d.IsPlain .typescript)
    (htexts : ∀ text ∈ unquoted d, '\n' ∉ text.toList) : (declaration options d).Straight := by
  rw [unquoted, List.forall_mem_cons, List.forall_mem_flatMap] at htexts
  have hopening : '\n' ∉ ("export interface " ++ d.name ++ " \x7b").toList :=
    Text.notMem_append.2 ⟨Text.notMem_append.2 ⟨by decide, h.notMem_name⟩, by decide⟩
  have hmembers : Draft.Straight ([Draft.emptyLine].intercalate (d.members.map member)) :=
    .intercalate fun m hm => straight_member (htexts.2 m hm) (h.types m hm)
  rw [declaration]
  simp only [Draft.straight_append, Draft.straight_line, Draft.straight_nil, and_true]
  exact ⟨⟨⟨straight_comment 0 htexts.1, hopening⟩, hmembers⟩, by decide⟩

/-- A TypeScript step is straight where the texts that it does not quote are. -/
theorem straight_step (htexts : ∀ text ∈ unquotedStep m s, '\n' ∉ text.toList) :
    (step m s).Straight := by
  have hkey : '\n' ∉ (propertyKey m.identifier).toList := by
    cases s <;> exact htexts _ List.mem_cons_self
  have hvalue : '\n' ∉ ("value" ++ propertyAccess m.identifier).toList :=
    Text.notMem_append.2 ⟨by decide, notMem_propertyAccess hkey⟩
  rw [step, Draft.straight_append]
  generalize "value" ++ propertyAccess m.identifier = value at hvalue
  refine ⟨?_, Draft.straight_line.2 ⟨by simp, Draft.straight_nil⟩⟩
  cases s with
  | default d =>
      have hliteral : '\n' ∉ (if m.field.type.kind == .int then d.render
          else Literal.doubleQuoted d.render).toList := by
        split
        · next hint =>
          rw [unquotedStep, if_pos hint] at htexts
          exact htexts _ (by simp)
        · exact Literal.notMem_doubleQuoted _
      rw [stepBody]
      generalize (if m.field.type.kind == .int then d.render else _) = literal at hliteral
      simp [toString, hvalue, hliteral]
  | required =>
      have hmissing : '\n' ∉ (missing m.field.type.kind value).toList := by
        unfold missing
        split <;> simp [toString, hvalue]
      simp [stepBody, failure, hmissing, Literal.notMem_doubleQuoted]
  | oneOf allowed =>
      have hlisted := Literal.notMem_listed Literal.notMem_doubleQuoted allowed
      rw [stepBody]
      generalize ", ".intercalate (allowed.map Literal.doubleQuoted) = texts at hlisted
      simp [failure, hvalue, hlisted, Literal.notMem_doubleQuoted]
  | elements type =>
      have hchild := Language.notMem_of_declaration .typescript type
      simp [stepBody, hvalue, hchild]

end TypeScript

/-! ## Parts of documents -/

namespace Language

/-- The lines of a declaration carry what stands in them without quotes. -/
theorem carries_declaration (hlanguage : language = .go ∨ language = .rust)
    (h : d.IsPlain language) (options : Options) :
    language.Carries (language.dialect.declaration options d)
      (language.unquotedDeclaration options d) := by
  obtain rfl | rfl := hlanguage
  · exact Go.carries_declaration h
  · exact @Rust.carries_declaration d options h

/-- A step carries the texts that it does not quote. -/
theorem carries_stepDraft (hlanguage : language = .go ∨ language = .rust)
    (h : d.IsPlain language) (hm : m ∈ d.members) :
    language.Carries (language.stepDraft d m s) (language.unquotedStep m s) := by
  have hidentifier := h.identifiers m hm
  have hfeed {role : Role} (hne : language ≠ .typescript)
      (hof : language.identifier role m.field.name = .ok m.identifier) :
      '\n' ∉ m.identifier.toList := by
    rw [← casing_of_identifier hof]
    exact notMem_casing (.inl hne) m.field.name
  obtain rfl | rfl := hlanguage
  · exact Go.carries_step (Go.apart_value h.name (hfeed (by decide) hidentifier))
  · exact Rust.carries_step (hfeed (by decide) hidentifier)

/-- So do the lines of a validation. -/
theorem carries_validation (hlanguage : language = .go ∨ language = .rust)
    (h : d.IsPlain language) (plan : Plan) :
    language.Carries (language.dialect.validation d plan) (language.unquotedRules d plan) := by
  have hhead : language.Carries (language.validationHead d) [] := by
    obtain rfl | rfl := hlanguage
    · have hfunc : Language.go.Apart
          s!"func ({Go.receiver d.name} *{d.name}) Validate() error \x7b" :=
        (((Text.Apart.append (by decide) (Go.notMem_receiver h.name)).append (by decide)).append
          h.notMem_name).append (by decide)
      exact .apart (by decide) (.apart hfunc .nil)
    · have himpl : Language.rust.Apart ("impl " ++ d.name ++ " \x7b") :=
        (Text.Apart.append (by decide) h.notMem_name).append (by decide)
      exact .apart (by decide) (.apart himpl (.apart (by decide) .nil))
  have htail : language.Carries (validationTail language) [] := by
    obtain rfl | rfl := hlanguage
    · exact .apart (by decide) (.apart (by decide) .nil)
    · exact .apart (by decide) (.apart (by decide) (.apart (by decide) .nil))
  have hruby : language ≠ .ruby := by
    obtain rfl | rfl := hlanguage <;> decide
  have hsteps : language.Carries
      ((d.ruled plan).flatMap fun entry => entry.2.flatMap fun s =>
        language.stepDraft d entry.1 s) (language.unquotedRules d plan) :=
    .flatMap fun entry hentry => .flatMap fun s _ =>
      carries_stepDraft hlanguage h (Declaration.mem_members_of_mem_ruled hentry)
  have hall := (hhead.append hsteps).append htail
  rwa [List.nil_append, List.append_nil, ← validation_eq hruby] at hall

/-- Texts of one line leave a declaration as it is drafted. -/
theorem straight_declaration (hlanguage : language ≠ .ruby) (h : d.IsPlain language)
    (htexts : ∀ text ∈ language.unquotedDeclaration options d, '\n' ∉ text.toList) :
    (language.dialect.declaration options d).Straight := by
  cases language with
  | go => exact (carries_declaration (.inl rfl) h options).straight htexts
  | rust => exact (carries_declaration (.inr rfl) h options).straight htexts
  | typescript => exact @TypeScript.straight_declaration d options h htexts
  | ruby => contradiction

/-- Texts of one line leave a validation as it is drafted. -/
theorem straight_validation (hlanguage : language ≠ .ruby) (h : d.IsPlain language)
    (htexts : ∀ text ∈ language.unquotedRules d plan, '\n' ∉ text.toList) :
    (language.dialect.validation d plan).Straight := by
  cases language with
  | go => exact (carries_validation (.inl rfl) h plan).straight htexts
  | rust => exact (carries_validation (.inr rfl) h plan).straight htexts
  | typescript =>
      rw [unquotedRules, List.forall_mem_flatMap] at htexts
      rw [validation_eq hlanguage, Draft.straight_append, Draft.straight_append]
      refine ⟨⟨?_, ?_⟩, ?_⟩
      · simp [validationHead, TypeScript.comment, toString, h.notMem_name]
      · refine .flatMap fun entry hentry => .flatMap fun s hs => ?_
        exact TypeScript.straight_step (List.forall_mem_flatMap.1 (htexts entry hentry) s hs)
      · simp [validationTail]
  | ruby => contradiction

/-! ## Stubs -/

/-- Remarks of one line each stay so. -/
theorem straight_stubRemarks {texts : List String} (htexts : ∀ text ∈ texts, '\n' ∉ text.toList) :
    (language.stubRemarks texts).Straight := by
  have hline (depth : Nat) {marker text : String} (hmarker : '\n' ∉ marker.toList)
      (htext : text ∈ texts) : Draft.Straight [.line depth (marker ++ text)] :=
    Draft.straight_line.2 ⟨Text.notMem_append.2 ⟨hmarker, htexts text htext⟩, Draft.straight_nil⟩
  cases language with
  | go => exact Draft.straight_nil
  | rust =>
      rw [stubRemarks, List.map_eq_flatMap]
      exact .flatMap fun text htext => hline 1 (by decide) htext
  | typescript => exact .flatMap fun text htext => TypeScript.straight_comment 1 (htexts text htext)
  | ruby =>
      rw [stubRemarks, List.map_eq_flatMap]
      exact .flatMap fun text htext => hline 2 (by decide) htext

end Language

/-- A single-quoted literal is on one line where its text is. -/
theorem Literal.notMem_singleQuoted {text : String} (h : '\n' ∉ text.toList) :
    '\n' ∉ (singleQuoted text).toList := by
  have hescape : ∀ c ∈ text.toList, '\n' ∉ escapeSingle c := by
    intro c hc
    have hne : '\n' ≠ c := fun heq => h (heq ▸ hc)
    rw [escapeSingle]
    split <;> simp [hne]
  rw [singleQuoted, String.toList_ofList, singleQuotedChars]
  simpa using hescape

section

variable {s : Stub} (h : s.IsPlain)
include h

theorem TypeScript.notMem_opening : '\n' ∉ (opening s).toList := by
  have hinput : '\n' ∉ (match s.input with
      | none => ""
      | some name => "params: " ++ name).toList := by
    cases hsome : s.input with
    | none => simp
    | some name => exact Text.notMem_append.2 ⟨by decide, h.input name hsome⟩
  have houtput : '\n' ∉ (s.output.getD "void").toList := by
    cases hsome : s.output with
    | none => decide
    | some name => exact h.output name hsome
  unfold opening
  simp only [Text.notMem_append]
  exact ⟨⟨⟨⟨⟨⟨by decide, h.function⟩, by decide⟩, hinput⟩, by decide⟩, houtput⟩, by decide⟩

/-- The body of a TypeScript stub is straight where the name of the method is. -/
theorem TypeScript.straight_body (hname : '\n' ∉ s.method.name.toList) : (body s).Straight := by
  have hliteral := Literal.notMem_singleQuoted hname
  have hparams : '\n' ∉ (if s.input.isSome then ", params" else "").toList := by
    split <;> decide
  unfold body
  cases hsome : s.output with
  | none => simp [hliteral, hparams]
  | some name => simp [hliteral, hparams, h.output name hsome]

theorem Ruby.notMem_opening : '\n' ∉ (opening s).toList := by
  have hparams : '\n' ∉ (if s.input.isSome then "(params)" else "").toList := by
    split <;> decide
  exact Text.notMem_append.2 ⟨Text.notMem_append.2 ⟨by decide, h.function⟩, hparams⟩

omit h in
/-- The body of a Ruby stub is straight where the name of the method is. -/
theorem Ruby.straight_body (hname : '\n' ∉ s.method.name.toList) : (body s).Straight := by
  have hliteral := Literal.notMem_singleQuoted hname
  have hparams : '\n' ∉ (if s.input.isSome then ", params" else "").toList := by
    split <;> decide
  unfold body
  cases s.output <;> simp [toString, hliteral, hparams]

/-- The code of a stub holds no line feeds but those in the name of its method, which Rust alone
escapes. -/
theorem Language.straight_stubCode (hname : language = .rust ∨ '\n' ∉ s.method.name.toList) :
    (language.stubCode s).Straight := by
  cases language with
  | go => exact Draft.straight_nil
  | rust => exact (Rust.carries_stubCode h).straight (List.forall_mem_nil _)
  | typescript =>
      have hname := hname.resolve_left (by decide)
      rw [stubCode, Draft.straight_append, Draft.straight_line]
      exact ⟨⟨TypeScript.notMem_opening h, TypeScript.straight_body h hname⟩, by simp⟩
  | ruby =>
      have hname := hname.resolve_left (by decide)
      rw [stubCode, Draft.straight_line]
      exact ⟨Ruby.notMem_opening h, Ruby.straight_body hname⟩

end

end RpcBindings
