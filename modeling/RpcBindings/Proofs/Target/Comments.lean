import RpcBindings.Proofs.Emission.Undescribed
import RpcBindings.Proofs.Name.Casing
import RpcBindings.Proofs.Source.Comments
import RpcBindings.Proofs.Text.Capital
import RpcBindings.Target.Registry

/-!
# RpcBindings.Proofs.Target.Comments

The comments of Go, Rust and Ruby documents.  What a schema says of its types, methods
and fields comes as remarks, each written into comments of one line.  A document has the
code of its bare outline just where no remark overruns its line further than it does
without the description (`annotates_part`, `annotates_stub`).
-/

namespace RpcBindings

/-- The marker of comments that end with their line.  TypeScript documents keep their
comments between two marks. -/
def Language.lineMarker? : Language → Option String
  | .go | .rust => some "//"
  | .ruby => some "#"
  | .typescript => none

/-- What opens a line comment of a language can open a comment line. -/
theorem Language.isMarker {language : Language} {marker : String}
    (h : language.lineMarker? = some marker) : Text.IsMarker marker := by
  cases language <;> simp only [lineMarker?, Option.some.injEq, reduceCtorEq] at h <;>
    subst h <;> exact ⟨by simp; decide, by decide⟩

/-- The unit of indentation is an indentation. -/
theorem Language.isIndent (language : Language) : Text.IsIndent language.dialect.indentUnit := by
  cases language <;> exact ⟨List.all_eq_true.1 (by decide), by decide⟩

/-! ## Remarks -/

/-- Something that is said in a comment. -/
structure Remark where
  text : String
  /-- What is left of it without the description. -/
  bare : String

namespace Remark

/-- Whether the description leaves the code alone: with it the remark overruns its line
as far as without it. -/
def Confined (marker : String) (remark : Remark) : Prop :=
  Text.overrun marker remark.bare = Text.overrun marker remark.text

instance (marker : String) (remark : Remark) : Decidable (remark.Confined marker) :=
  inferInstanceAs (Decidable (_ = _))

/-- A remark that is nothing but a description. -/
def ofDescription (description : String) : Remark := ⟨description, ""⟩

end Remark

/-- What is said of a field above its member. -/
def Field.remark (field : Field) : Remark where
  text := (if field.description.isEmpty then s!"the {field.name} field." else field.description) ++
    field.sentences
  bare := field.sentences

/-- What is said of a field above the method that takes it. -/
def Field.parameterRemark (field : Field) : Remark where
  text := Text.trimEnd
    (field.name ++ " " ++ Text.trim (Text.capitalize field.description ++ field.sentences))
  bare := Text.trimEnd (field.name ++ " " ++ Text.trim field.sentences)

/-- What is said of a structure. -/
def DeclarationRole.remark : DeclarationRole → Remark
  | .type description => .ofDescription description
  | .input | .output => .ofDescription ""

namespace Remark

variable {marker : String} {remark : Remark}

/-- A remark that ends with its bare text has no shorter overrun. -/
theorem growsUnless (h : ∃ front, remark.text = front ++ remark.bare) :
    GrowsUnless (remark.Confined marker) (Text.overrun marker remark.bare)
      (Text.overrun marker remark.text) := by
  obtain ⟨front, hfront⟩ := h
  refine ⟨?_, Iff.rfl⟩
  rw [hfront]
  exact Text.length_overrun_le front remark.bare

/-- And the same overrun where it is on one line up to there. -/
theorem confined (h : ∃ front, remark.text = front ++ remark.bare ∧ '\n' ∉ front.toList) :
    remark.Confined marker := by
  obtain ⟨front, hfront, hfeed⟩ := h
  rw [Confined, hfront, Text.overrun_append_of_notMem hfeed]

/-- A description on one line is confined to its comment. -/
theorem confined_ofDescription {description : String} (h : '\n' ∉ description.toList) :
    (ofDescription description).Confined marker :=
  confined ⟨description, String.append_empty.symm, h⟩

end Remark

/-- The remark of a field with a name and a description on one line is confined. -/
theorem Field.confined_remark {marker : String} {field : Field} (hname : '\n' ∉ field.name.toList)
    (hdescription : '\n' ∉ field.description.toList) : field.remark.Confined marker := by
  refine Remark.confined ⟨_, rfl, ?_⟩
  split
  · exact Text.notMem_append.2
      ⟨Text.notMem_append.2 ⟨by decide +kernel, hname⟩, by decide +kernel⟩
  · exact hdescription

/-! ## Structures -/

/-- The summary of a member is the one of its field, and its identifier stands on one
line. -/
structure Member.IsSummarized (m : Member) : Prop where
  identifier : '\n' ∉ m.identifier.toList
  summary : m.field.summary m.identifier = .ok m.summary

/-- The description of a declaration and those of its members leave the code alone. -/
def Declaration.Confined (marker : String) (d : Declaration) : Prop :=
  d.role.remark.Confined marker ∧ ∀ m ∈ d.members, m.field.remark.Confined marker

section

variable {marker : String} {m : Member} {d : Declaration}

/-- The code of a member's comment grows unless the field's remark is confined. -/
theorem Member.growsUnless (h : m.IsSummarized) :
    GrowsUnless (m.field.remark.Confined marker) (Text.overrun marker (" " ++ m.bare.summary))
      (Text.overrun marker (" " ++ m.summary)) := by
  obtain ⟨sentences, hsentences, hsummary⟩ := bind_eq_ok_iff.1 h.summary
  have hfield : m.field.sentences = sentences := by
    rw [Field.sentences, hsentences]
    rfl
  have htext : m.summary = m.identifier ++ " is " ++ m.field.remark.text := by
    rw [← Except.ok.inj hsummary, ← hfield]
    exact String.append_assoc
  have hfront : '\n' ∉ (" " ++ (m.identifier ++ " is ")).toList := by
    simp only [Text.notMem_append]
    exact ⟨by decide, h.identifier, by decide⟩
  rw [htext, ← String.append_assoc, Text.overrun_append_of_notMem hfront,
    Text.overrun_append_of_notMem (by decide)]
  exact Remark.growsUnless ⟨_, rfl⟩

/-- The code of a declaration's comment grows unless its remark is confined. -/
theorem growsUnless_comment (hname : '\n' ∉ d.name.toList) :
    GrowsUnless (d.role.remark.Confined marker) (Text.overrun marker (" " ++ Go.comment d.bare))
      (Text.overrun marker (" " ++ Go.comment d)) := by
  have hspace : '\n' ∉ (" " : String).toList := by decide
  rw [Text.overrun_append_of_notMem hspace, Text.overrun_append_of_notMem hspace]
  obtain ⟨name, role, members, rules⟩ := d
  cases role with
  | type description =>
      have hempty : Text.overrun marker name = Text.overrun marker "" := by
        rw [Text.overrun_of_notMem hname, Text.overrun_of_notMem (by simp)]
      have hbare : Go.comment (Declaration.bare ⟨name, .type description, members, rules⟩) = name :=
        rfl
      have hcomment : Text.overrun marker
          (Go.comment ⟨name, .type description, members, rules⟩) =
            Text.overrun marker description := by
        have hfront : '\n' ∉ (name ++ " ").toList := Text.notMem_append.2 ⟨hname, by decide⟩
        by_cases hdescription : description = ""
        · subst hdescription
          exact hempty
        · have hsummary : Go.comment ⟨name, .type description, members, rules⟩ =
              name ++ " " ++ description := by
            simp only [Go.comment, typeSummary, String.isEmpty_iff, if_neg hdescription]
            rfl
          rw [hsummary, Text.overrun_append_of_notMem hfront]
      rw [hbare, hempty, hcomment]
      exact Remark.growsUnless ⟨description, String.append_empty.symm⟩
  | input => exact (GrowsUnless.refl _).congr (iff_of_true trivial rfl)
  | output => exact (GrowsUnless.refl _).congr (iff_of_true trivial rfl)

theorem isMarker_slashes : Text.IsMarker "//" :=
  Language.isMarker (rfl : Language.go.lineMarker? = some "//")

/-- A comment opens with two slashes and a blank. -/
theorem slashes_append (text : String) : "// " ++ text = "//" ++ (" " ++ text) := by
  rw [← String.append_assoc]
  rfl

/-- The comment above a member. -/
theorem Member.annotates_comment {unit line : String} (hunit : Text.IsIndent unit)
    (h : m.IsSummarized) (hline : line ≠ "") :
    Draft.Annotates unit "//" (m.field.remark.Confined "//")
      [.line 1 ("// " ++ m.bare.summary), .line 1 line]
      [.line 1 ("// " ++ m.summary), .line 1 line] := by
  rw [slashes_append, slashes_append]
  exact .comment isMarker_slashes hunit (Member.growsUnless h) hline

/-- The comment above a structure, and those in it. -/
theorem annotates_structure {unit line : String} {more tail : Draft} {member : Member → Draft}
    (hunit : Text.IsIndent unit) (hname : '\n' ∉ d.name.toList) (hline : line ≠ "")
    (hmembers : ∀ m ∈ d.members, Draft.Annotates unit "//" (m.field.remark.Confined "//")
      (member m.bare) (member m)) :
    Draft.Annotates unit "//" (d.Confined "//")
      ([.line 0 ("// " ++ Go.comment d.bare), .line 0 line] ++ more ++
        [Draft.emptyLine].intercalate (d.bare.members.map member) ++ tail)
      ([.line 0 ("// " ++ Go.comment d), .line 0 line] ++ more ++
        [Draft.emptyLine].intercalate (d.members.map member) ++ tail) := by
  have hopening : Draft.Annotates unit "//" (d.role.remark.Confined "//")
      [.line 0 ("// " ++ Go.comment d.bare), .line 0 line]
      [.line 0 ("// " ++ Go.comment d), .line 0 line] := by
    rw [slashes_append, slashes_append]
    exact .comment isMarker_slashes hunit (growsUnless_comment hname) hline
  have hfields : Draft.Annotates unit "//" (∀ m ∈ d.members, m.field.remark.Confined "//")
      ([Draft.emptyLine].intercalate (d.members.map fun m => member m.bare))
      ([Draft.emptyLine].intercalate (d.members.map member)) :=
    .intercalate hmembers
  have hbare : d.bare.members.map member = d.members.map fun m => member m.bare := List.map_map
  rw [hbare]
  exact ((hopening.append_right more).append hfields).append_right tail

end

/-- A part is annotated as its declaration is, if its validation takes no notice of
descriptions. -/
theorem Dialect.annotates_part {dialect : Dialect} {options : Options} {marker : String} {P : Prop}
    {d : Declaration}
    (hdeclaration : Draft.Annotates dialect.indentUnit marker P
      (dialect.declaration options d.bare) (dialect.declaration options d))
    (hvalidation : ∀ plan, dialect.validation d.bare plan.undescribed = dialect.validation d plan) :
    Draft.Annotates dialect.indentUnit marker P (dialect.part options d.bare)
      (dialect.part options d) := by
  have hrules : d.bare.rules = d.rules.map Plan.undescribed := rfl
  rw [part, part, hrules]
  cases d.rules with
  | none => exact (hdeclaration.append_right _).append_right _
  | some plan =>
      simp only [Option.map_some, hvalidation]
      exact (hdeclaration.append_right _).append_right _

/-! ## Go -/

namespace Go

variable {options : Options} {d : Declaration}

/-- The declaration of a Go document is annotated by its confined descriptions. -/
theorem annotates_declaration (hname : '\n' ∉ d.name.toList)
    (hmembers : ∀ m ∈ d.members, m.IsSummarized) :
    Draft.Annotates dialect.indentUnit "//" (d.Confined "//") (declaration options d.bare)
      (declaration options d) := by
  have hmember (m : Member) (hm : m ∈ d.members) :
      Draft.Annotates dialect.indentUnit "//" (m.field.remark.Confined "//")
        (member options m.bare) (member options m) :=
    Member.annotates_comment Language.go.isIndent (hmembers m hm) (by simp)
  have hstruct : "type " ++ d.name ++ " struct \x7b" ≠ "" := by simp
  exact @annotates_structure d _ _ [] _ _ Language.go.isIndent hname hstruct hmember

/-- A Go validation does not depend on descriptions. -/
theorem validation_bare (d : Declaration) (plan : Plan) :
    validation d.bare plan.undescribed = validation d plan := by
  have hstep (m : Member) (value : String) (s : Step) : step m.bare value s = step m value s := by
    cases s <;> rfl
  have hsteps (m : Member) (value : String) : step m.bare value = step m value :=
    funext (hstep m value)
  have hname : d.bare.name = d.name := rfl
  have hidentifier (m : Member) : m.bare.identifier = m.identifier := rfl
  simp only [validation, d.ruled_bare, List.flatMap_map, hsteps, hname, hidentifier]

/-- A declaration of a Go document and its validation are annotated by confined descriptions. -/
theorem annotates_part (hname : '\n' ∉ d.name.toList) (hmembers : ∀ m ∈ d.members, m.IsSummarized) :
    Draft.Annotates dialect.indentUnit "//" (d.Confined "//") (dialect.part options d.bare)
      (dialect.part options d) :=
  Dialect.annotates_part (annotates_declaration hname hmembers) (validation_bare d)

end Go

/-! ## Rust -/

namespace Rust

variable {options : Options} {d : Declaration}

/-- The member of a Rust structure is annotated by a confined remark. -/
theorem annotates_member {m : Member} (h : m.IsSummarized) :
    Draft.Annotates dialect.indentUnit "//" (m.field.remark.Confined "//")
      (member m.bare) (member m) := by
  have hrename : rename m.bare = rename m := rfl
  rw [member, member, hrename, rename]
  split
  · exact Member.annotates_comment Language.rust.isIndent h (by simp)
  · exact (Member.annotates_comment Language.rust.isIndent h (by simp)).append_right _

theorem annotates_declaration (hname : '\n' ∉ d.name.toList)
    (hmembers : ∀ m ∈ d.members, m.IsSummarized) :
    Draft.Annotates dialect.indentUnit "//" (d.Confined "//") (declaration options d.bare)
      (declaration options d) := by
  have hmember (m : Member) (hm : m ∈ d.members) := annotates_member (hmembers m hm)
  have hconversions : conversions d.bare.role = conversions d.role := by
    cases hrole : d.role <;> simp [Declaration.bare, hrole, DeclarationRole.bare, conversions]
  have hderive : "#[derive(" ++ conversions d.role ++ ", Debug, Clone)]" ≠ "" := by simp
  rw [declaration, declaration, hconversions]
  exact @annotates_structure d _ _ [.line 0 ("pub struct " ++ d.name ++ " \x7b")] _ _
    Language.rust.isIndent hname hderive hmember

theorem validation_bare (d : Declaration) (plan : Plan) :
    validation d.bare plan.undescribed = validation d plan := by
  have hsteps (m : Member) : step m.bare = step m := by
    funext s
    cases s <;> rfl
  have hname : d.bare.name = d.name := rfl
  simp only [validation, d.ruled_bare, List.flatMap_map, hsteps, hname]

theorem annotates_part (hname : '\n' ∉ d.name.toList) (hmembers : ∀ m ∈ d.members, m.IsSummarized) :
    Draft.Annotates dialect.indentUnit "//" (d.Confined "//") (dialect.part options d.bare)
      (dialect.part options d) :=
  Dialect.annotates_part (@annotates_declaration options d hname hmembers) (validation_bare d)

/-- The description of a method is written only if there is one. -/
theorem annotates_stub {s : Stub} (hfunction : '\n' ∉ s.function.toList) :
    Draft.Annotates dialect.indentUnit "//"
      ((Remark.ofDescription s.method.description).Confined "//") (stub s.bare) (stub s) := by
  by_cases hdescription : s.method.description = ""
  · have hbare : stub s.bare = stub s := by
      have hundescribed : s.bare.method.description = s.method.description := hdescription.symm
      rw [stub, stub, hundescribed]
      rfl
    rw [hbare]
    exact (Draft.Annotates.refl _ _ _).congr (iff_of_true trivial (by rw [hdescription]; rfl))
  · let comment := " " ++ s.function ++ " " ++ s.method.description
    have hcode : GrowsUnless ((Remark.ofDescription s.method.description).Confined "//")
        (([] : List String).flatMap (Text.overrun "//"))
        ([comment].flatMap (Text.overrun "//")) := by
      have hfront : '\n' ∉ (" " ++ s.function ++ " ").toList := by
        simp only [Text.notMem_append]
        exact ⟨⟨by decide, hfunction⟩, by decide⟩
      rw [List.flatMap_singleton, Text.overrun_append_of_notMem hfront]
      exact Remark.growsUnless ⟨_, String.append_empty.symm⟩
    have hsignature : signature s ≠ "" :=
      fun h => absurd (String.append_eq_empty_iff.1 h).2 (by decide)
    have hcomment : Draft.Annotates dialect.indentUnit "//" _
        (Draft.commented "//" 1 [] (signature s))
        (Draft.commented "//" 1 [comment] (signature s)) :=
      .commented isMarker_slashes Language.rust.isIndent hcode hsignature
    have hempty : s.method.description.isEmpty = false := by simpa using hdescription
    have htext : s!"// {s.function} {s.method.description}" = "//" ++ comment := by
      simp only [comment, ← String.append_assoc]
      rfl
    have hsame : signature s.bare = signature s := rfl
    have hnone : s.bare.method.description.isEmpty = true := rfl
    rw [stub, stub, htext, hempty, hsame, hnone]
    simp only [List.append_assoc]
    exact .append_left [Draft.emptyLine] (hcomment.append_right _)

end Rust

/-! ## Ruby -/

/-- The sentence on the allowed texts is a name. -/
theorem isName_allowed (texts : List String) :
    Text.IsName (Text.capitalize (enumMessage texts) ++ ".") := by
  obtain ⟨rest, hrest⟩ : ∃ rest, (enumMessage texts).toList = 'm' :: rest := by
    unfold enumMessage
    rw [String.toList_append]
    exact ⟨_, rfl⟩
  have hcapital : Text.capitalize (enumMessage texts) = "M" ++ String.ofList rest := by
    rw [Text.capitalize, hrest]
    apply String.toList_injective
    simp only [String.toList_ofList, String.toList_append]
    rfl
  rw [hcapital]
  exact Text.IsName.append_stop (by decide) _

/-- The sentences on a field stand behind a blank, if there are any. -/
theorem Field.sentences_eq (field : Field) :
    field.sentences = "" ∨
      ∃ sentence, field.sentences = " " ++ sentence ∧ Text.IsName sentence := by
  unfold Field.sentences Field.constraintSentences
  extract_lets allowed
  have hallowed : allowed = "" ∨ ∃ sentence, allowed = " " ++ sentence ∧ Text.IsName sentence := by
    unfold allowed
    split
    · exact .inl rfl
    · exact .inl rfl
    · exact .inr ⟨_, String.append_assoc, isName_allowed _⟩
  split
  · exact hallowed
  · cases Json.render field.default with
    | error e => exact .inl rfl
    | ok json =>
        have hdefault : Text.IsName ("This" ++ (" field defaults to " ++ json) ++ ".") :=
          Text.IsName.append_stop (by decide) _
        change allowed ++ (" This field defaults to " ++ json ++ ".") = "" ∨
          ∃ sentence, allowed ++ (" This field defaults to " ++ json ++ ".") = " " ++ sentence ∧ _
        obtain hnone | ⟨sentence, hsome, hname⟩ := hallowed
        · refine .inr ⟨_, ?_, hdefault⟩
          rw [hnone, String.empty_append]
          simp only [← String.append_assoc]
          rfl
        · refine .inr ⟨_, ?_, hname.append_stop (" This field defaults to " ++ json)⟩
          rw [hsome]
          simp only [String.append_assoc]

/-- What is written behind a blank overruns its line as far as without the blank. -/
theorem Text.overrun_trimEnd_space {marker s : String} (hs : IsTrimmed s) :
    overrun marker (trimEnd (" " ++ s)) = overrun marker s := by
  by_cases hempty : s = ""
  · subst hempty
    rfl
  · have hsolid : EndsSolid (" " ++ s).toList := by
      have hne : s.toList ≠ [] := by simpa using hempty
      intro c hc
      rw [String.toList_append, List.getLast?_append_of_ne_nil _ hne] at hc
      exact hs.ending c hc
    rw [trimEnd_eq_self hsolid, overrun_append_of_notMem (by decide)]

namespace Field

variable {field : Field}

/-- What is said of a field stands behind its name and a blank. -/
theorem parameterRemark_eq (hname : Text.IsName field.name) :
    field.parameterRemark.bare =
        field.name ++ Text.trimEnd (" " ++ Text.trim field.sentences) ∧
      field.parameterRemark.text = field.name ++
        Text.trimEnd (" " ++ Text.trim (Text.capitalize field.description ++ field.sentences)) := by
  rw [parameterRemark, String.append_assoc, String.append_assoc]
  exact ⟨Text.trimEnd_append hname.trimmed.ending _, Text.trimEnd_append hname.trimmed.ending _⟩

/-- The code of a parameter's comment grows unless the remark is confined. -/
theorem parameterRemark_growsUnless (hname : Text.IsName field.name) :
    GrowsUnless (field.parameterRemark.Confined "#") (Text.overrun "#" field.parameterRemark.bare)
      (Text.overrun "#" field.parameterRemark.text) := by
  obtain ⟨hbare, htext⟩ := parameterRemark_eq hname
  obtain ⟨front, hfront, -⟩ :=
    Text.exists_trim_append (Text.capitalize field.description) field.sentences_eq
  have hlength (s : String) (hs : Text.IsTrimmed s) :
      (Text.overrun "#" (field.name ++ Text.trimEnd (" " ++ s))).length =
        (Text.overrun "#" field.name).length + (Text.overrun "#" s).length := by
    have hsum := Text.length_overrun_append '#' hname (Text.trimEnd (" " ++ s))
    rwa [Text.overrun_trimEnd_space hs] at hsum
  refine ⟨?_, Iff.rfl⟩
  rw [hbare, htext, hlength _ (Text.isTrimmed_trim _), hlength _ (Text.isTrimmed_trim _), hfront]
  exact Nat.add_le_add_left (Text.length_overrun_le front _) _

/-- The remark of a parameter with a name and a description on one line is confined. -/
theorem confined_parameterRemark {marker : String} (hname : Text.IsName field.name)
    (hfeed : '\n' ∉ field.name.toList) (hdescription : '\n' ∉ field.description.toList) :
    field.parameterRemark.Confined marker := by
  obtain ⟨hbare, htext⟩ := parameterRemark_eq hname
  obtain ⟨front, hfront, hmem⟩ :=
    Text.exists_trim_append (Text.capitalize field.description) field.sentences_eq
  have hfrontFeed : '\n' ∉ front.toList := by
    intro hc
    obtain hc | hc := hmem _ hc
    · exact Text.notMem_capitalize hdescription hc
    · exact absurd hc (by decide)
  rw [Remark.Confined, hbare, htext, Text.overrun_append_of_notMem hfeed,
    Text.overrun_append_of_notMem hfeed, Text.overrun_trimEnd_space (Text.isTrimmed_trim _),
    Text.overrun_trimEnd_space (Text.isTrimmed_trim _), hfront,
    Text.overrun_append_of_notMem hfrontFeed]

end Field

/-- The comment on a parameter: its type stands on one line, and its summary is the one
of its field. -/
structure Parameter.IsDocumented (p : Parameter) : Prop where
  type : '\n' ∉ p.type.toList
  name : Text.IsName p.field.name
  summary : p.summary = Text.trim (Text.capitalize p.field.description ++ p.field.sentences)

/-- The comments above a method; only an input has parameters. -/
structure Stub.IsDocumented (s : Stub) : Prop where
  function : '\n' ∉ s.function.toList
  parameters : ∀ p ∈ s.parameters, p.IsDocumented
  input : s.input = none → s.parameters = []

namespace Ruby

theorem isMarker_hash : Text.IsMarker "#" :=
  Language.isMarker (rfl : Language.ruby.lineMarker? = some "#")

/-- What stands in front of the name of a parameter. -/
def parameterHead (p : Parameter) : String :=
  " @option params [" ++ p.type ++ "] :"

/-- What the comment on a parameter says behind the marker. -/
def parameterText (p : Parameter) : String :=
  parameterHead p ++ Text.trimEnd (p.field.name ++ " " ++ p.summary)

/-- A parameter is one comment line. -/
theorem parameter_eq (p : Parameter) : parameter p = .line 2 ("#" ++ parameterText p) := by
  have hhead : "#" ++ parameterHead p = "# @option params [" ++ p.type ++ "] :" := by
    have hmark : "#" ++ " @option params [" = "# @option params [" := rfl
    unfold parameterHead
    rw [← hmark]
    simp only [String.append_assoc]
  have hsolid : Text.EndsSolid ("#" ++ parameterHead p).toList := by
    have hends : "] :".toList = [']', ' ', ':'] := rfl
    intro c hc
    rw [hhead, String.toList_append, hends, List.getLast?_append_of_ne_nil _ (by simp)] at hc
    obtain rfl : ':' = c := Option.some.inj hc
    decide
  have htext : s!"# @option params [{p.type}] :{p.field.name} {p.summary}" =
      "#" ++ parameterHead p ++ (p.field.name ++ " " ++ p.summary) := by
    rw [hhead]
    simp only [← String.append_assoc]
    rfl
  unfold parameter parameterText
  rw [htext, Text.trimEnd_append hsolid, String.append_assoc]

/-- The code of a parameter's line grows unless its remark is confined. -/
theorem parameter_growsUnless {p : Parameter} (h : p.IsDocumented) :
    GrowsUnless (p.field.parameterRemark.Confined "#") (Text.overrun "#" (parameterText p.bare))
      (Text.overrun "#" (parameterText p)) := by
  have hfront : '\n' ∉ " @option params [".toList := by decide +kernel
  have hback : '\n' ∉ "] :".toList := by decide +kernel
  have hhead : '\n' ∉ (parameterHead p).toList :=
    Text.notMem_append.2 ⟨Text.notMem_append.2 ⟨hfront, h.type⟩, hback⟩
  have hbare : '\n' ∉ (parameterHead p.bare).toList := hhead
  unfold parameterText
  rw [Text.overrun_append_of_notMem hhead, Text.overrun_append_of_notMem hbare, h.summary]
  exact Field.parameterRemark_growsUnless h.name

/-- What introduces the parameters of a method. -/
def inputComments : List String := ["", " @param [Hash] params the input for this method."]

def outputComments : List String := [" @return [Hash] the output of this method."]

/-- What the comments above a method say behind the marker. -/
def comments (s : Stub) : List String :=
  [" " ++ if (Text.capitalize s.method.description).isEmpty then s.function
    else Text.capitalize s.method.description] ++
  (if s.input.isSome then inputComments ++ s.parameters.map parameterText else []) ++
  (if s.output.isSome then outputComments else [])

/-- The line that opens a method. -/
def opening (s : Stub) : String :=
  "def " ++ s.function ++ if s.input.isSome then "(params)" else ""

/-- What stands behind that line. -/
def body (s : Stub) : Draft :=
  let arguments :=
    Literal.singleQuoted s.method.name ++ (if s.input.isSome then ", params" else "")
  (if s.output.isSome then [.line 3 s!"JSON.parse(call({arguments}))"]
   else [.line 3 ("call " ++ arguments), .line 3 "nil"]) ++
  [.line 2 "end"]

/-- A Ruby stub is an empty line, its comments with the opening line, and its body. -/
theorem stub_eq (s : Stub) : stub s =
    [Draft.emptyLine] ++ (Draft.commented "#" 2 (comments s) (opening s) ++ body s) := by
  have hparameters : s.parameters.map parameter =
      s.parameters.map fun p => Stroke.line 2 ("#" ++ parameterText p) :=
    List.map_congr_left fun p _ => parameter_eq p
  have hhash (text : String) : "# " ++ text = "#" ++ (" " ++ text) := by
    rw [← String.append_assoc]
    rfl
  have hparams : "# @param [Hash] params the input for this method." =
    "#" ++ " @param [Hash] params the input for this method." := rfl
  have hreturn : "# @return [Hash] the output of this method." =
    "#" ++ " @return [Hash] the output of this method." := rfl
  unfold stub comments inputComments outputComments Draft.commented opening body
  dsimp only
  rw [hparameters, hhash, hparams, hreturn]
  cases s.input <;> cases s.output <;> simp [Function.comp_def]

/-- The name of a method stands in for its description. -/
theorem description_growsUnless {s : Stub} (hfunction : '\n' ∉ s.function.toList) :
    GrowsUnless ((Remark.ofDescription (Text.capitalize s.method.description)).Confined "#")
      (Text.overrun "#" (" " ++ s.function))
      (Text.overrun "#" (" " ++ if (Text.capitalize s.method.description).isEmpty then s.function
        else Text.capitalize s.method.description)) := by
  have hspace : '\n' ∉ (" " : String).toList := by decide
  by_cases hempty : Text.capitalize s.method.description = ""
  · rw [hempty]
    exact (GrowsUnless.refl _).congr (iff_of_true trivial rfl)
  · have hnone : Text.overrun "#" s.function = Text.overrun "#" "" := by
      rw [Text.overrun_of_notMem hfunction, Text.overrun_of_notMem (by simp)]
    rw [if_neg (by simpa using hempty), Text.overrun_append_of_notMem hspace,
      Text.overrun_append_of_notMem hspace, hnone]
    exact Remark.growsUnless ⟨_, String.append_empty.symm⟩

/-- The code of a stub's comments grows unless each of its remarks is confined. -/
theorem comments_growsUnless {s : Stub} (h : s.IsDocumented) :
    GrowsUnless ((Remark.ofDescription (Text.capitalize s.method.description)).Confined "#" ∧
        ∀ p ∈ s.parameters, p.field.parameterRemark.Confined "#")
      ((comments s.bare).flatMap (Text.overrun "#")) ((comments s).flatMap (Text.overrun "#")) := by
  have hparameters : GrowsUnless (∀ p ∈ s.parameters, p.field.parameterRemark.Confined "#")
      (s.parameters.flatMap fun p => Text.overrun "#" (parameterText p.bare))
      (s.parameters.flatMap fun p => Text.overrun "#" (parameterText p)) :=
    .flatMap fun p hp => parameter_growsUnless (h.parameters p hp)
  have hbare : s.bare.parameters = s.parameters.map Parameter.bare := rfl
  have hinput : GrowsUnless (∀ p ∈ s.parameters, p.field.parameterRemark.Confined "#")
      ((if s.input.isSome then inputComments ++ s.bare.parameters.map parameterText
        else []).flatMap (Text.overrun "#"))
      ((if s.input.isSome then inputComments ++ s.parameters.map parameterText
        else []).flatMap (Text.overrun "#")) := by
    rw [hbare, List.map_map]
    cases hinput : s.input with
    | none =>
        simp only [Option.isSome_none, Bool.false_eq_true, if_false, h.input hinput]
        exact (GrowsUnless.refl _).congr (by simp)
    | some name =>
        simp only [Option.isSome_some, if_true, List.flatMap_append, List.flatMap_map,
          Function.comp_apply]
        exact ((GrowsUnless.refl _).append hparameters).congr (by rw [true_and])
  have hcut (s : Stub) : (comments s).flatMap (Text.overrun "#") =
      Text.overrun "#" (" " ++ if (Text.capitalize s.method.description).isEmpty then s.function
        else Text.capitalize s.method.description) ++
      (if s.input.isSome then inputComments ++ s.parameters.map parameterText
        else []).flatMap (Text.overrun "#") ++
      (if s.output.isSome then outputComments else []).flatMap (Text.overrun "#") := by
    rw [comments, List.flatMap_append, List.flatMap_append, List.flatMap_singleton]
  have houtput := GrowsUnless.refl ((if s.output.isSome then outputComments else []).flatMap
    (Text.overrun "#"))
  rw [hcut, hcut]
  have hall := ((description_growsUnless h.function).append hinput).append houtput
  exact hall.congr (by rw [and_true])

/-- A Ruby stub is annotated by its confined descriptions. -/
theorem annotates_stub {s : Stub} (h : s.IsDocumented) :
    Draft.Annotates dialect.indentUnit "#"
      ((Remark.ofDescription (Text.capitalize s.method.description)).Confined "#" ∧
        ∀ p ∈ s.parameters, p.field.parameterRemark.Confined "#") (stub s.bare) (stub s) := by
  have hopening : opening s ≠ "" := by
    unfold opening
    simp
  have hbare : opening s.bare = opening s := rfl
  have hbody : body s.bare = body s := rfl
  rw [stub_eq, stub_eq, hbare, hbody]
  exact .append_left _ ((Draft.Annotates.commented isMarker_hash Language.ruby.isIndent
    (comments_growsUnless h) hopening).append_right _)

end Ruby

end RpcBindings
