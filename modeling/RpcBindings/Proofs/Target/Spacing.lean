import RpcBindings.Proofs.Emission.Within
import RpcBindings.Proofs.Source.Spacing
import RpcBindings.Proofs.Target.Reports

/-!
# RpcBindings.Proofs.Target.Spacing

Drafts of documents with declarations, under options and under fewer of them.  A
document consists of lines, and every gap in it stands behind a closing brace; so all
its gaps are written (`spaced_draft`).  Under fewer options a document has fewer
strokes (`sublist_draft`): the validations are gone, or the client at its end.
-/

namespace RpcBindings

/-! ## Single lines -/

namespace Dialect

/-- A line at some depth of indentation. -/
def lineAt (dialect : Dialect) (depth : Nat) (text : String) : String :=
  Stroke.textOf dialect.indentUnit depth text

variable {dialect : Dialect}

theorem lineAt_zero (dialect : Dialect) (text : String) : dialect.lineAt 0 text = text :=
  Stroke.textOf_zero _ text

section

variable (hunit : ∀ c ∈ dialect.indentUnit.toList, Text.isIndent c = true)
include hunit

/-- The indentation of a line goes with that of its text. -/
theorem dropWhile_lineAt (depth : Nat) (text : String) :
    (dialect.lineAt depth text).toList.dropWhile Text.isIndent =
      text.toList.dropWhile Text.isIndent :=
  Stroke.dropWhile_textOf hunit depth text

/-- A line whose text has no line feed has none. -/
theorem notMem_lineAt {depth : Nat} {text : String} (h : '\n' ∉ text.toList) :
    '\n' ∉ (dialect.lineAt depth text).toList :=
  Stroke.notMem_textOf (fun hc => absurd (hunit _ hc) (by decide)) h

end

end Dialect

namespace Language

variable {language : Language} {options more : Options} {schema : Schema} {outline : Outline}
  {d : Declaration} {plan : Plan} {unit : String}

/-! ## Lines -/

/-- The header of a document is written line by line. -/
theorem onlyLines_header : (language.dialect.header options schema).OnlyLines := by
  cases language with
  | go =>
      simp only [dialect, Go.dialect, Go.header, Draft.emptyLine]
      split <;> simp
  | rust =>
      simp only [dialect, Rust.dialect, Rust.header, Draft.emptyLine]
      split <;> split <;> simp
  | typescript =>
      simp only [dialect, TypeScript.dialect, TypeScript.header, Draft.emptyLine]
      split <;> split <;> simp
  | ruby => simp [dialect, Ruby.dialect, Ruby.header, Draft.emptyLine]

/-- A stub is written line by line. -/
theorem onlyLines_stub (language : Language) (s : Stub) : (language.dialect.stub s).OnlyLines := by
  cases language with
  | go => exact Draft.onlyLines_nil
  | rust =>
      simp only [dialect, Rust.dialect, Rust.stub, Draft.emptyLine]
      split <;> split <;> split <;> simp
  | typescript =>
      simp only [dialect, TypeScript.dialect, TypeScript.stub, TypeScript.comment, Draft.emptyLine]
      cases s.output <;> simp
  | ruby =>
      have hparameters : Draft.OnlyLines (s.parameters.map Ruby.parameter) :=
        List.forall_mem_map.2 fun p _ => ⟨2, _, rfl⟩
      simp only [dialect, Ruby.dialect, Ruby.stub, Draft.emptyLine]
      cases s.input <;> cases s.output <;> simp [hparameters]

/-- Every stroke of a client is written; that of Ruby begins with a block. -/
theorem spaced_client (language : Language) (options : Options) (stubs : List Stub) :
    Draft.Spaced unit (language.dialect.client options stubs) := by
  have hstubs := Draft.OnlyLines.flatMap fun s (_ : s ∈ stubs) => onlyLines_stub language s
  have hhead : Draft.Spaced unit (language.dialect.clientHead options) := by
    cases language with
    | ruby => exact Draft.spaced_block unit _
    | _ =>
        refine Draft.OnlyLines.spaced ?_
        simp [dialect, Go.dialect, Rust.dialect, TypeScript.dialect, Draft.emptyLine]
  have htail : language.dialect.clientTail.OnlyLines := by
    cases language <;>
      simp [dialect, Go.dialect, Rust.dialect, TypeScript.dialect, Ruby.dialect, Draft.emptyLine]
  exact (hhead.append hstubs.spaced).append htail.spaced

/-- A declaration ends with a closing brace. -/
theorem declaration_eq (hlanguage : language ≠ .ruby) (options : Options) (d : Declaration) :
    ∃ front : Draft, front.OnlyLines ∧
      language.dialect.declaration options d = front ++ [.line 0 "\x7d"] := by
  have hmembers {write : Member → Draft} (h : ∀ m, (write m).OnlyLines) :
      Draft.OnlyLines ([Draft.emptyLine].intercalate (d.members.map write)) :=
    Draft.OnlyLines.intercalate (List.forall_mem_map.2 fun m _ => h m)
  cases language with
  | go =>
      have hmember (m : Member) : (Go.member options m).OnlyLines := by simp [Go.member]
      exact ⟨_, by simp [hmembers hmember], rfl⟩
  | rust =>
      have hmember (m : Member) : (Rust.member m).OnlyLines := by
        simp only [Rust.member, Rust.rename]
        split <;> simp
      exact ⟨_, by simp [hmembers hmember], rfl⟩
  | typescript =>
      have hmember (m : Member) : (TypeScript.member m).OnlyLines := by
        simp [TypeScript.member, TypeScript.comment]
      exact ⟨_, by simp [hmembers hmember, TypeScript.comment], rfl⟩
  | ruby => contradiction

/-- A declaration is written line by line. -/
theorem onlyLines_declaration (hlanguage : language ≠ .ruby) (options : Options) (d : Declaration) :
    (language.dialect.declaration options d).OnlyLines := by
  obtain ⟨front, hfront, heq⟩ := declaration_eq hlanguage options d
  simp [heq, hfront]

/-- So does a validation. -/
theorem validation_brace (hlanguage : language ≠ .ruby) (d : Declaration) (plan : Plan) :
    ∃ front : Draft, front.OnlyLines ∧
      language.dialect.validation d plan = front ++ [.line 0 "\x7d"] := by
  have hlines : (language.dialect.validation d plan).OnlyLines := onlyLines_validation hlanguage
  obtain ⟨tail, htail⟩ : ∃ tail : Draft, validationTail language = tail ++ [.line 0 "\x7d"] := by
    cases language with
    | go => exact ⟨[.line 1 "return nil"], rfl⟩
    | rust => exact ⟨[.line 2 "Ok(())", .line 1 "\x7d"], rfl⟩
    | typescript => exact ⟨[.line 1 "return undefined"], rfl⟩
    | ruby => contradiction
  rw [validation_eq hlanguage, htail, ← List.append_assoc] at hlines ⊢
  exact ⟨_, (Draft.onlyLines_append.1 hlines).1, rfl⟩

/-! ## Gaps -/

/-- A declaration and its validation are spaced. -/
theorem spaced_part (hlanguage : language ≠ .ruby) :
    Draft.Spaced unit (language.dialect.part options d) := by
  have hgap {draft front : Draft} (hfront : front.OnlyLines)
      (heq : draft = front ++ [.line 0 "\x7d"]) : Draft.Spaced unit (draft ++ [.gap]) := by
    rw [heq, List.append_assoc]
    exact hfront.spaced.gap 0 (by decide)
  obtain ⟨front, hfront, heq⟩ := declaration_eq hlanguage options d
  refine (hgap hfront heq).append ?_
  split
  · exact Draft.spaced_nil unit
  · next plan _ =>
    obtain ⟨front, hfront, heq⟩ := validation_brace hlanguage d plan
    exact hgap hfront heq

/-- Every gap of a document with declarations is written. -/
theorem spaced_draft (hlanguage : language ≠ .ruby) :
    Draft.Spaced unit (language.dialect.draft options schema outline) := by
  refine (onlyLines_header.spaced.append
    (Draft.Spaced.flatMap fun d _ => spaced_part hlanguage)).append ?_
  split
  · exact spaced_client language options outline.stubs
  · exact Draft.spaced_nil unit

/-- What goes on behind the notice has lines. -/
theorem lines_notice_ne_nil {notice : String} (hnotice : notice ≠ "") (draft : Draft) :
    Draft.dropEmptyEnd (Draft.lines unit (.line 0 notice :: draft)) ≠ [] := by
  obtain ⟨written, hwritten⟩ :=
    Draft.prefix_foldl_write unit draft (Draft.lines unit [.line 0 notice])
  have hlines : Draft.lines unit (.line 0 notice :: draft) = [] ++ [notice] ++ written := by
    rw [← List.singleton_append, Draft.lines_append, ← hwritten]
    simp [Draft.lines, Stroke.write, hnotice]
  rw [hlines, Draft.dropEmptyEnd_append hnotice]
  simp

/-- Every document has a line that is not empty. -/
theorem lines_draft_ne_nil :
    Draft.dropEmptyEnd (Draft.lines unit (language.dialect.draft options schema outline)) ≠ [] := by
  cases language with
  | ruby => exact lines_notice_ne_nil (by decide : "# " ++ generatedNotice ≠ "") _
  | _ => exact lines_notice_ne_nil (by decide : "// " ++ generatedNotice ≠ "") _

/-- What ends with a brace has lines. -/
theorem lines_brace_ne_nil (draft : Draft) :
    Draft.dropEmptyEnd (Draft.lines unit (draft ++ [.line 0 "\x7d"])) ≠ [] := by
  have hlines : Draft.lines unit (draft ++ [.line 0 "\x7d"]) =
      Draft.lines unit draft ++ ["\x7d"] ++ [] := by
    rw [Draft.lines_append, List.append_nil]
    rfl
  rw [hlines, Draft.dropEmptyEnd_append (by decide)]
  simp

/-- The lines of a finished declaration are those that its drafted lines are cut into. -/
theorem split_declaration (hlanguage : language ≠ .ruby) (unit : String) (options : Options)
    (d : Declaration) :
    Text.split '\n' (Draft.render unit (language.dialect.declaration options d)) =
      (Draft.lines unit (language.dialect.declaration options d)).flatMap (Text.split '\n') ++
        [""] := by
  obtain ⟨front, -, heq⟩ := declaration_eq hlanguage options d
  have hkept : Draft.dropEmptyEnd (Draft.lines unit (front ++ [.line 0 "\x7d"])) =
      Draft.lines unit (front ++ [.line 0 "\x7d"]) := by
    apply Draft.dropEmptyEnd_eq_self
    rw [Draft.lines_append]
    exact ⟨"\x7d", List.getLast?_concat, by decide⟩
  rw [heq, Draft.split_render _ _ (lines_brace_ne_nil front), hkept]

/-! ## Fewer options -/

section

variable (h : options.Within more)
include h

/-- A declaration is drafted the same under fewer options. -/
theorem declaration_within :
    language.dialect.declaration options (d.under options) =
      language.dialect.declaration more d := by
  have htags : options.tags = more.tags := by rw [h.rest]
  cases language with
  | go =>
      have hmember : Go.member options = Go.member more := by
        funext m
        rw [Go.member, Go.member, Go.tags, Go.tags, htags]
      simp only [dialect, Go.dialect, Go.declaration, hmember]
      rfl
  | _ => rfl

/-- More options add lines to the header and remove none. -/
theorem sublist_header :
    (language.dialect.header options schema).Sublist (language.dialect.header more schema) := by
  have htypes := h.includeTypes
  have hpackage : options.package = more.package := by rw [h.rest]
  have hfetch : options.fetchLibrary = more.fetchLibrary := by rw [h.rest]
  cases language with
  | go => simp only [dialect, Go.dialect, Go.header, hpackage, List.Sublist.refl]
  | rust => simp only [dialect, Rust.dialect, Rust.header, htypes, List.Sublist.refl]
  | typescript =>
      have hoptional {asked given : Bool} (himp : asked = true → given = true) (draft : Draft) :
          (if asked then draft else []).Sublist (if given then draft else []) := by
        cases asked with
        | false => exact List.nil_sublist _
        | true => rw [himp rfl]
      simp only [dialect, TypeScript.dialect, TypeScript.header, hfetch]
      refine ((List.Sublist.refl _).append (hoptional h.client _)).append (hoptional ?_ _)
      simp only [Bool.and_eq_true]
      exact And.imp_left h.validate
  | ruby => exact .refl _

/-- More options add lines to a part and remove none. -/
theorem sublist_part :
    (language.dialect.part options (d.under options)).Sublist (language.dialect.part more d) := by
  rw [Dialect.part, Dialect.part, declaration_within h]
  refine List.Sublist.append (.refl _) ?_
  by_cases hvalidate : options.validate
  · rw [Declaration.under_of_validate hvalidate]
  · rw [Declaration.under, if_neg hvalidate]
    exact List.nil_sublist _

/-- A document under fewer options has fewer strokes. -/
theorem sublist_draft :
    (language.dialect.draft options schema (outline.under options)).Sublist
      (language.dialect.draft more schema outline) := by
  have hmodule : options.rubyModule = more.rubyModule := by rw [h.rest]
  have hclass : options.rubyClass = more.rubyClass := by rw [h.rest]
  have hhead : language.dialect.clientHead options = language.dialect.clientHead more := by
    cases language with
    | ruby => simp only [dialect, Ruby.dialect, Ruby.clientHead, hmodule, hclass]
    | _ => rfl
  rw [Dialect.draft, Dialect.draft]
  refine ((sublist_header h).append ?_).append ?_
  · rw [Outline.under, List.flatMap_map]
    exact List.Sublist.flatMap_right _ fun d _ => sublist_part h
  · split
    · next hclient =>
      rw [if_pos (h.client hclient), Outline.under, if_pos hclient, Dialect.client,
        Dialect.client, hhead]
    · exact List.nil_sublist _

end

end Language

end RpcBindings
