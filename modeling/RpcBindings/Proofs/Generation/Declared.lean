import RpcBindings.Proofs.Target.Unquoted
import RpcBindings.Proofs.Typing.Marks

/-!
# RpcBindings.Proofs.Generation.Declared

Declarations as they stand in documents.  All that an outline names is declared in it, and
each declaration and each validation has its opening lines in the document, whatever the
schema describes.  Where the texts that are written without quotes stay on one line, the
document has all their lines as they are drafted (`generate_closed`).
-/

namespace RpcBindings

/-! ## Lines -/

namespace Language

variable {language : Language} {options : Options} {schema : Schema} {outline : Outline}
  {d : Declaration} {plan : Plan}

/-- The lines of a declaration as they are drafted. -/
def declarationLines (language : Language) (options : Options) (d : Declaration) : List String :=
  (language.dialect.declaration options d).spread language.dialect.indentUnit

/-- The lines of a validation as they are drafted. -/
def rulesLines (language : Language) (d : Declaration) (plan : Plan) : List String :=
  (language.dialect.validation d plan).spread language.dialect.indentUnit

/-- The unit of indentation has no line feed. -/
theorem notMem_indentUnit (language : Language) : '\n' ∉ language.dialect.indentUnit.toList :=
  fun hc => absurd (language.isIndent_indentUnit _ hc) (by decide)

/-- What is drafted in lines without line feeds, up to one that is not empty, stands in the
document. -/
theorem hasLines_of_straight {part front : Draft} {depth : Nat} {text : String}
    (hpart : part.Straight) (heq : part = front ++ [.line depth text]) (htext : text ≠ "")
    (hinside : part <:+: language.dialect.draft options schema outline) :
    Text.HasLines
      (Draft.render language.dialect.indentUnit (language.dialect.draft options schema outline))
      (part.spread language.dialect.indentUnit) := by
  refine hpart.infix_render language.notMem_indentUnit hinside fun line hline => ?_
  have hspread : Draft.spread language.dialect.indentUnit [.line depth text] =
      [Stroke.textOf language.dialect.indentUnit depth text] := rfl
  rw [heq, Draft.spread_append, hspread, List.getLast?_concat] at hline
  rw [← Option.some.inj hline]
  exact Stroke.textOf_ne_empty depth htext

section

variable (hlanguage : language ≠ .ruby) (hd : d ∈ outline.declarations) (h : d.IsPlain language)
include hlanguage hd h

/-- A declaration is written as it is drafted, if its texts stay on one line. -/
theorem hasLines_declaration
    (htexts : ∀ text ∈ language.unquotedDeclaration options d, '\n' ∉ text.toList) :
    Text.HasLines
      (Draft.render language.dialect.indentUnit (language.dialect.draft options schema outline))
      (language.declarationLines options d) := by
  obtain ⟨front, -, heq⟩ := declaration_eq hlanguage options d
  exact hasLines_of_straight (straight_declaration hlanguage h htexts) heq (by decide)
    (Dialect.declaration_infix_draft hd)

/-- So is its validation. -/
theorem hasLines_rules (hplan : d.rules = some plan)
    (htexts : ∀ text ∈ language.unquotedRules d plan, '\n' ∉ text.toList) :
    Text.HasLines
      (Draft.render language.dialect.indentUnit (language.dialect.draft options schema outline))
      (language.rulesLines d plan) := by
  obtain ⟨front, -, heq⟩ := validation_brace hlanguage d plan
  exact hasLines_of_straight (straight_validation hlanguage h htexts) heq (by decide)
    (Dialect.validation_infix_draft hd hplan)

end

end Language

/-! ## Names -/

namespace Emitter

variable {language : Language} {schema : Schema} {options : Options} {e : Emitter}
  {outline : Outline}

/-- The names in a declaration are identifiers and types. -/
theorem isPlain_of_mem {d : Declaration} (hcreate : create language schema options = .ok e)
    (hdeclares : List.Forall₂ e.Declares schema.subjects outline.declarations)
    (hshape : ∀ fields ∈ schema.fieldLists, ∀ field ∈ fields, field.type.HasShape)
    (hd : d ∈ outline.declarations) : d.IsPlain language := by
  obtain ⟨hlanguage, hschema, -⟩ := (owns_of_create hcreate).1
  obtain ⟨subject, hsubject, hof⟩ := exists_left_of_forall₂ hdeclares hd
  refine ⟨hof.isWordChar hcreate, fun m hm => ?_, fun m hm => ?_⟩
  · have hidentifier := (hof.hasMember hm).2.identifier
    rwa [hlanguage] at hidentifier
  · obtain ⟨hfield, hmember⟩ := hof.hasMember hm
    exact TypeSystem.notMem_expressField
      (hshape _ (Schema.fields_mem_fieldLists hsubject) _ hfield) hmember.type

/-- The names in a stub are identifiers. -/
theorem Calls.isPlain {method : Method} {s : Stub} (h : e.Calls method s)
    (hcreate : create language schema options = .ok e) : s.IsPlain := by
  have hdeclared {name identifier : String} (hname : e.declarationName name = .ok identifier) :
      '\n' ∉ identifier.toList := by
    rw [← Language.casing_of_identifier (identifier_of_declarationName hcreate hname)]
    exact Language.notMem_of_declaration _ _
  refine ⟨?_, fun name hinput => hdeclared (h.input name hinput),
    fun name houtput => hdeclared (h.output name houtput)⟩
  rw [← casing_of_methodName hcreate h.function]
  exact Language.notMem_casing (.inr (by decide)) method.name

end Emitter

/-! ## Documents -/

namespace Schema

variable {schema : Schema} {settings : Settings} {target : Target} {document : String}

/-- **Documents declare what they name.**  A document with declarations is written
from an outline in which every structure that a member type, the validation of
elements or a stub names is declared, and the document has the lines that open each
declared structure and its validation.  It has all the lines of a declaration, or of a
validation, in which no text that stands without quotes holds a line feed. -/
theorem generate_closed (hshape : ∀ entry ∈ schema.ownedFields, entry.2.type.HasShape)
    (htarget : Target.ofName? settings.target = some target) (htypes : target.includeTypes = true)
    (h : (schema.generate settings).outcome = .ok document) :
    ∃ outline,
      document = Draft.render target.language.dialect.indentUnit
        (target.language.dialect.draft (settings.options schema target) schema outline) ∧
      outline.Closed schema target.language ∧
      ∀ d ∈ outline.declarations,
        Text.HasLines document (target.language.structureLines d.name) ∧
          (d.rules.isSome → Text.HasLines document (target.language.validationLines d.name)) ∧
          ((∀ text ∈ target.language.unquotedDeclaration (settings.options schema target) d,
              '\n' ∉ text.toList) →
            Text.HasLines document
              (target.language.declarationLines (settings.options schema target) d)) ∧
          ∀ plan, d.rules = some plan →
            (∀ text ∈ target.language.unquotedRules d plan, '\n' ∉ text.toList) →
              Text.HasLines document (target.language.rulesLines d plan) := by
  obtain ⟨-, e, outline, hcreate, houtline, rfl⟩ := (generate_eq_ok_iff htarget).1 h
  have hshape := (forall_fieldLists_iff (P := fun field => field.type.HasShape)).2 hshape
  obtain ⟨hclosed, hwords⟩ := Emitter.closed_outline hcreate htypes houtline hshape
  have hdeclares := Emitter.declares_of_create hcreate htypes houtline
  have hruby : target.language ≠ .ruby := by
    have hall : ∀ target ∈ Target.all, target.includeTypes = true → target.language ≠ .ruby := by
      decide
    exact hall target (List.mem_of_find?_eq_some htarget) htypes
  refine ⟨outline, rfl, hclosed, fun d hd => ?_⟩
  have hplain := Emitter.isPlain_of_mem hcreate hdeclares hshape hd
  refine ⟨?_, fun hrules => ?_, fun htexts => ?_, fun plan hplan htexts => ?_⟩
  · exact Language.hasLines_structure hd (hwords d hd)
  · exact Language.hasLines_validation hd hrules (hwords d hd)
  · exact Language.hasLines_declaration hruby hd hplain htexts
  · exact Language.hasLines_rules hruby hd hplain hplan htexts

/-- A schema with a method that takes trees and gives their roots. -/
def forest : Schema where
  name := "forest"
  description := ""
  types := trees.types
  methods := [
    { name := "plant"
      description := ""
      inputs := [
        { name := "trees", type := .array (.reference "Node"), description := "", required := true
          default := .null, enum := none }]
      outputs := [
        { name := "root", type := .reference "Node", description := "", required := false
          default := .null, enum := none }] }]
  goTags := []
  typeNames_nodup := by decide
  methodNames_nodup := by decide

/-- A client with validation. -/
def validatedClient : Settings where
  target := "rust-client"
  validate := some true

theorem forest_generate_closed :
    ∃ document, (forest.generate validatedClient).outcome = .ok document ∧ ∃ outline,
      document = Draft.render Target.rustClient.language.dialect.indentUnit
        (Target.rustClient.language.dialect.draft
          (validatedClient.options forest Target.rustClient) forest outline) ∧
      outline.Closed forest Target.rustClient.language ∧
      ∀ d ∈ outline.declarations,
        Text.HasLines document (Target.rustClient.language.structureLines d.name) ∧
          (d.rules.isSome →
            Text.HasLines document (Target.rustClient.language.validationLines d.name)) ∧
          ((∀ text ∈ Target.rustClient.language.unquotedDeclaration
                (validatedClient.options forest Target.rustClient) d, '\n' ∉ text.toList) →
            Text.HasLines document
              (Target.rustClient.language.declarationLines
                (validatedClient.options forest Target.rustClient) d)) ∧
          ∀ plan, d.rules = some plan →
            (∀ text ∈ Target.rustClient.language.unquotedRules d plan, '\n' ∉ text.toList) →
              Text.HasLines document (Target.rustClient.language.rulesLines d plan) := by
  have htarget : Target.ofName? validatedClient.target = some Target.rustClient := rfl
  have hshape : ∀ entry ∈ forest.ownedFields, entry.2.type.HasShape := by
    rw [forall_ownedFields_iff (P := fun field => field.type.HasShape)]
    refine ⟨?_, ?_⟩
    · exact fun type htype field hfield =>
        ((wellFormed_trees.types type htype).properties.fields field hfield).type.shape
    · intro method hmethod
      obtain rfl := List.mem_singleton.1 hmethod
      simp only [List.mem_singleton, forall_eq]
      exact ⟨.array (.reference "Node"), .reference "Node"⟩
  obtain ⟨document, hdocument⟩ :
      ∃ document, (forest.generate validatedClient).outcome = .ok document :=
    ⟨_, (generate_eq_ok_iff htarget).2 ⟨by decide, _, _, rfl, rfl, rfl⟩⟩
  exact ⟨document, hdocument, generate_closed hshape htarget rfl hdocument⟩

end Schema

end RpcBindings
