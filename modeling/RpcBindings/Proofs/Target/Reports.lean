import RpcBindings.Proofs.Generation.Closed
import RpcBindings.Proofs.Target.Steps

/-!
# RpcBindings.Proofs.Target.Reports

The errors that a written validation reports.  The body of a validation returns an
error for every step of its plan that fails by itself or looks into elements, in the
order of the plan, and each is read as the message that the evaluation of the plan
gives.  Rust leaves out the presence of sequences and maps; that and only that comes
in addition which leaks from the notes about it (`reports_iff`).
-/

namespace RpcBindings

/-- What comes in addition is nothing, if nothing is changed by it. -/
theorem flatMap_append_eq_iff {α β : Type} {xs : List α} {f g : α → List β} :
    (xs.flatMap fun x => f x ++ g x) = xs.flatMap g ↔ ∀ x ∈ xs, f x = [] := by
  have hlength : (xs.flatMap fun x => f x ++ g x).length =
      (xs.flatMap f).length + (xs.flatMap g).length := by
    induction xs with
    | nil => rfl
    | cons x rest ih => simp only [List.flatMap_cons, List.length_append, ih]; omega
  constructor
  · intro heq
    rw [heq] at hlength
    exact List.flatMap_eq_nil_iff.1 (List.length_eq_zero_iff.1 (by omega))
  · intro hnil
    apply List.flatMap_congr
    intro x hx
    rw [hnil x hx, List.nil_append]

/-! ## What plans report -/

namespace Plan

/-- All steps in order, each with its field. -/
def checks (plan : Plan) : List (Field × Step) :=
  plan.fields.flatMap fun rules => rules.steps.map fun s => (rules.field, s)

/-- What the validation by a plan says of its failures, in order. -/
def reported (language : Language) (index : Nat) (child : String) (plan : Plan) : List String :=
  plan.checks.filterMap fun check => check.2.reported? language check.1 index child

end Plan

/-! ## Written validations -/

namespace Language

variable {language : Language} {index : Nat} {child : String} {d : Declaration} {plan : Plan}
  {m : Member} {s : Step}

/-- One step of validation in a language. -/
def stepDraft (d : Declaration) (m : Member) (s : Step) : Language → Draft
  | .go => Go.step m (Go.receiver d.name ++ "." ++ m.identifier) s
  | .rust => Rust.step m s
  | .typescript => TypeScript.step m s
  | .ruby => []

/-- The text of a validation. -/
def validationText (language : Language) (d : Declaration) (plan : Plan) : String :=
  "\n".intercalate (Draft.lines language.dialect.indentUnit (language.dialect.validation d plan))

/-- What stands before the steps of a validation. -/
def validationHead (d : Declaration) : Language → Draft
  | .go =>
    [.line 0 "// Validate implementation.",
     .line 0 s!"func ({Go.receiver d.name} *{d.name}) Validate() error \x7b"]
  | .rust =>
    [.line 0 "// Validate implementation.", .line 0 ("impl " ++ d.name ++ " \x7b"),
     .line 1 "pub fn validate(&mut self) -> Result<(), String> \x7b"]
  | .typescript =>
    TypeScript.comment 0 s!"validate{d.name} checks value, applying defaults in place." ++
    [.line 0 s!"export function validate{d.name}(value: {d.name}): string | undefined \x7b"]
  | .ruby => []

/-- What stands behind the steps of a validation. -/
def validationTail : Language → Draft
  | .go => [.line 1 "return nil", .line 0 "\x7d"]
  | .rust => [.line 2 "Ok(())", .line 1 "\x7d", .line 0 "\x7d"]
  | .typescript => [.line 1 "return undefined", .line 0 "\x7d"]
  | .ruby => []

/-- A validation is its head, the steps of each member in order, and its tail. -/
theorem validation_eq (hlanguage : language ≠ .ruby) :
    language.dialect.validation d plan =
      language.validationHead d ++
        (d.ruled plan).flatMap (fun entry => entry.2.flatMap fun s =>
          language.stepDraft d entry.1 s) ++ validationTail language := by
  cases language with
  | ruby => contradiction
  | _ => rfl

/-- The head of a validation returns no error. -/
theorem errors_validationHead (hname : ∀ c ∈ d.name.toList, Name.isWordChar c = true) :
    Draft.errors language index child (language.validationHead d) = [] := by
  have hfeed : '\n' ∉ d.name.toList := fun hc => absurd (hname _ hc) (by decide)
  cases language with
  | go =>
      have hfunc : Text.Settled s!"func ({Go.receiver d.name} *{d.name}) Validate() error \x7b" :=
        ((((Text.Settled.append (by decide) (Go.notMem_receiver hname)).append (by decide)).append
          hfeed).append (by decide))
      rw [validationHead, Draft.errors_quiet (by decide), Draft.errors_quiet hfunc.steady.quiet,
        Draft.errors_nil]
  | rust =>
      have himpl : Text.Settled ("impl " ++ d.name ++ " \x7b") :=
        (Text.Settled.append (by decide) hfeed).append (by decide)
      rw [validationHead, Draft.errors_quiet (by decide), Draft.errors_quiet himpl.steady.quiet,
        Draft.errors_quiet (by decide), Draft.errors_nil]
  | typescript =>
      have hcomment : Text.Settled
          (" * " ++ s!"validate{d.name} checks value, applying defaults in place.") := by
        apply Text.Settled.append (by decide)
        exact Text.notMem_append.2 ⟨Text.notMem_append.2 ⟨by decide, hfeed⟩, by decide⟩
      have hfunction : Text.Settled
          s!"export function validate{d.name}(value: {d.name}): string | undefined \x7b" :=
        ((((Text.Settled.append (by decide) hfeed).append (by decide)).append hfeed).append
          (by decide))
      rw [validationHead, TypeScript.comment, Draft.errors_append, Draft.errors_quiet (by decide),
        Draft.errors_quiet hcomment.steady.quiet, Draft.errors_quiet (by decide), Draft.errors_nil,
        Draft.errors_quiet hfunction.steady.quiet, Draft.errors_nil, List.append_nil]
  | ruby => rfl

/-- The tail of a validation returns no error. -/
theorem errors_validationTail :
    Draft.errors language index child (validationTail language) = [] := by
  cases language with
  | go =>
      have hreturn : "return nil" = "return " ++ Language.go.success := rfl
      rw [validationTail, Draft.errors_success hreturn (by decide), Draft.errors_quiet (by decide),
        Draft.errors_nil]
  | rust =>
      rw [validationTail, Draft.errors_quiet (by decide), Draft.errors_quiet (by decide),
        Draft.errors_quiet (by decide), Draft.errors_nil]
  | typescript =>
      have hreturn : "return undefined" = "return " ++ Language.typescript.success := rfl
      rw [validationTail, Draft.errors_success hreturn (by decide), Draft.errors_quiet (by decide),
        Draft.errors_nil]
  | ruby => rfl

/-- A validation is written line by line. -/
theorem onlyLines_validation (hlanguage : language ≠ .ruby) :
    (language.dialect.validation d plan).OnlyLines := by
  have hhead : (language.validationHead d).OnlyLines := by
    cases language <;> simp [Draft.OnlyLines, validationHead, TypeScript.comment]
  have htail : (validationTail language).OnlyLines := by
    cases language <;> simp [Draft.OnlyLines, validationTail]
  rw [validation_eq hlanguage]
  intro stroke hstroke
  simp only [List.mem_append, List.mem_flatMap] at hstroke
  obtain (hstroke | ⟨entry, -, s, -, hstroke⟩) | hstroke := hstroke
  · exact hhead stroke hstroke
  · cases language with
    | go => exact Go.onlyLines_step stroke hstroke
    | rust => exact Rust.onlyLines_step stroke hstroke
    | typescript => exact TypeScript.onlyLines_step stroke hstroke
    | ruby => contradiction
  · exact htail stroke hstroke

/-- The text of a validation returns what its lines return. -/
theorem errorsAmong_validationText (language : Language) (d : Declaration) (plan : Plan) :
    language.errorsAmong index child (Text.returnsOf (language.validationText d plan)) =
      Draft.errors language index child (language.dialect.validation d plan) := by
  rw [validationText, Draft.returnsOf_intercalate_lines language.isIndent_indentUnit, Draft.errors]

/-- A step returns its error, behind what its note returns. -/
theorem errors_stepDraft (hm : language.identifier .field m.field.name = .ok m.identifier)
    (h : Schema.Suits m.field s) (hlanguage : language ≠ .ruby) :
    Draft.errors language index child (language.stepDraft d m s) =
      (s.leaked language m.field).map (fun expression =>
          (language.error? index child expression).map String.ofList) ++
        (s.reported? language m.field index child).toList.map some := by
  have hleaked (hrust : language ≠ .rust) : s.leaked language m.field = [] := by
    cases s <;> simp [Step.leaked, notesPresence, hrust]
  cases language with
  | go =>
      rw [hleaked (by decide)]
      exact Go.errors_step (Go.steady_member hm) h
  | rust => exact Rust.errors_step hm h
  | typescript =>
      rw [hleaked (by decide)]
      exact TypeScript.errors_step h
  | ruby => contradiction

end Language

namespace Emitter

variable {language : Language} {schema : Schema} {options : Options} {e : Emitter}
  {outline : Outline} {subject : Subject} {d : Declaration} {plan : Plan}

/-- The steps of a plan return their errors one after the other. -/
theorem errors_validation (hcreate : create language schema options = .ok e)
    (hof : e.Declares subject d) (hplan : d.rules = some plan) (hlanguage : language ≠ .ruby)
    (hnames : (subject.fields.map (·.name)).Nodup) (index : Nat) (child : String) :
    language.errorsAmong index child (Text.returnsOf (language.validationText d plan)) =
      plan.checks.flatMap fun check =>
        (check.2.leaked language check.1).map (fun expression =>
            (language.error? index child expression).map String.ofList) ++
          (check.2.reported? language check.1 index child).toList.map some := by
  have hlang : e.language = language := (owns_of_create hcreate).1.language
  obtain ⟨-, rules, rfl, hrules⟩ := hof.plan_eq hplan
  -- Names are distinct, so every field of the plan is validated on its own member.
  have hruled := (List.forall₂_and_left _ _).2
    ⟨fun rules h => h, ruled_eq_map hnames hrules (map_field_of_members hof.members)⟩
  rw [Language.errorsAmong_validationText, Language.validation_eq hlanguage,
    Draft.errors_append, Draft.errors_append,
    Language.errors_validationHead (hof.isWordChar hcreate),
    Language.errors_validationTail, List.nil_append, List.append_nil, Draft.errors_flatMap,
    Plan.checks, List.flatMap_assoc]
  symm
  apply flatMap_eq_of_forall₂ hruled
  rintro r entry ⟨hr, hm, hsource, hsteps⟩
  rw [Draft.errors_flatMap, hsteps, List.flatMap_map]
  apply List.flatMap_congr
  intro s hs
  have hsuits := Schema.suits_of_fieldSteps (Schema.fieldSteps_of_mem_rulesOf hrules hr) s hs
  have hidentifier := (hof.hasMember hm).2.identifier
  rw [hlang] at hidentifier
  rw [← hsource] at hsuits ⊢
  exact (Language.errors_stepDraft hidentifier hsuits hlanguage).symm

/-- **Validations report the errors of their plans.**  The errors that the body of a
validation returns are the messages of its plan, in order, just where no note of
presence returns one of its own; names of one line leave no room for that. -/
theorem outline_reports_iff (hcreate : create language schema options = .ok e)
    (hlanguage : language ≠ .ruby)
    (hnames : ∀ fields ∈ schema.fieldLists, (fields.map (·.name)).Nodup)
    (houtline : e.outline.outcome = .ok outline) :
    ∀ d ∈ outline.declarations, ∀ plan, d.rules = some plan → ∀ index child,
      (language.errorsAmong index child (Text.returnsOf (language.validationText d plan)) =
          (plan.reported language index child).map some ↔
        ∀ check ∈ plan.checks, check.2.leaked language check.1 = []) ∧
      ((∀ check ∈ plan.checks, check.2 = .required →
          language.notesPresence check.1.type.kind → '\n' ∉ check.1.name.toList) →
        language.errorsAmong index child (Text.returnsOf (language.validationText d plan)) =
          (plan.reported language index child).map some) := by
  intro d hd plan hplan index child
  obtain ⟨subject, hsubject, hof⟩ := exists_subject houtline hd
  have hschema : e.schema = schema := (owns_of_create hcreate).1.schema
  rw [hschema] at hsubject
  have herrors := errors_validation hcreate hof hplan hlanguage
    (hnames _ (Schema.fields_mem_fieldLists hsubject)) index child
  have hiff : language.errorsAmong index child (Text.returnsOf (language.validationText d plan)) =
      (plan.reported language index child).map some ↔
        ∀ check ∈ plan.checks, check.2.leaked language check.1 = [] := by
    rw [herrors, Plan.reported, List.filterMap_eq_flatMap_toList, List.map_flatMap,
      flatMap_append_eq_iff]
    simp only [List.map_eq_nil_iff]
  refine ⟨hiff, fun hfeeds => hiff.2 fun check hcheck => Step.leaked_eq_nil ?_⟩
  intro hrequired hnotes
  exact hfeeds check hcheck hrequired hnotes

theorem trees_outline_reports_iff :
    ∃ e outline, create .rust Schema.trees {} = .ok e ∧ e.outline.outcome = .ok outline ∧
      ∀ d ∈ outline.declarations, ∀ plan, d.rules = some plan → ∀ index child,
        (Language.rust.errorsAmong index child
              (Text.returnsOf (Language.rust.validationText d plan)) =
            (plan.reported .rust index child).map some ↔
          ∀ check ∈ plan.checks, check.2.leaked .rust check.1 = []) ∧
        ((∀ check ∈ plan.checks, check.2 = .required →
            Language.rust.notesPresence check.1.type.kind → '\n' ∉ check.1.name.toList) →
          Language.rust.errorsAmong index child
              (Text.returnsOf (Language.rust.validationText d plan)) =
            (plan.reported .rust index child).map some) := by
  have hnames : ∀ fields ∈ Schema.trees.fieldLists, (fields.map (·.name)).Nodup := by decide
  obtain ⟨e, outline, hcreate, houtline⟩ : ∃ e outline,
      create .rust Schema.trees {} = .ok e ∧ e.outline.outcome = .ok outline := ⟨_, _, rfl, rfl⟩
  exact ⟨e, outline, hcreate, houtline, outline_reports_iff hcreate (by decide) hnames houtline⟩

/-- A schema with a field whose name goes on over several lines. -/
def interrupted : Schema where
  name := ""
  description := ""
  types := [
    { name := "Box"
      description := ""
      properties := [
        { name := "a\nreturn Err(\"boo\".to_string());\n//", type := .array (.primitive .string)
          description := "what is in it", required := true, default := .null, enum := none }] }]
  methods := []
  goTags := ["json"]
  typeNames_nodup := by decide
  methodNames_nodup := List.nodup_nil

/-- The validation of this schema in Rust returns an error where none is reported. -/
theorem outline_interrupted_leaks :
    ∃ e outline d plan, create .rust interrupted {} = .ok e ∧ e.outline.outcome = .ok outline ∧
      d ∈ outline.declarations ∧ d.rules = some plan ∧ plan.reported .rust 0 "" = [] ∧
        Language.rust.errorsAmong 0 "" (Text.returnsOf (Language.rust.validationText d plan)) =
          [some "boo"] := by
  refine ⟨_, _, _, _, rfl, rfl, .head _, rfl, by decide, ?_⟩
  decide +kernel

end Emitter

end RpcBindings
