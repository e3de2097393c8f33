import RpcBindings.Proofs.Name.Casing
import RpcBindings.Proofs.Name.Scope
import RpcBindings.Proofs.Target.Errors
import RpcBindings.Proofs.Validation.Plans

/-!
# RpcBindings.Proofs.Target.Steps

The errors that the written steps of validation return.  A step that fails by itself
returns its message, and the loop over elements the message of a failed element,
in every language; the other lines of a step return nothing.  Only Rust, which takes
the presence of sequences and maps for granted, notes so in the place of a check.  The
note holds the name of the field as it is, so a name of several lines may return
something of its own (`leaked`).
-/

namespace RpcBindings

/-! ## What steps report -/

/-- Whether a language notes that a required value of the kind is present. -/
def Language.notesPresence (language : Language) (kind : Kind) : Bool :=
  language == .rust && (kind == .array || kind == .object)

/-- The note in the place of a check for presence. -/
def Rust.presenceNote (name : String) : String :=
  s!"// {name}: presence is enforced when deserializing."

namespace Step

variable {field : Field}

/-- What the written step says when it fails; for an element, there are its index and
what the element says. -/
def reported? (language : Language) (field : Field) (index : Nat) (child : String) :
    Step → Option String
  | .required =>
    if language.notesPresence field.type.kind then none
    else message? field.name .required
  | .elements _ => some (elementMessage index child)
  | s => s.message? field.name

/-- What the note that is written for a step returns, successes apart. -/
def leaked (language : Language) (field : Field) : Step → List (List Char)
  | .required =>
    if language.notesPresence field.type.kind then
      (Text.returnsOf (Rust.presenceNote field.name)).filter (· != language.success.toList)
    else []
  | _ => []

/-- A name on one line leaks nothing from its note. -/
theorem leaked_eq_nil {language : Language} {s : Step} (h : s = .required →
      language.notesPresence field.type.kind = true → '\n' ∉ field.name.toList) :
    s.leaked language field = [] := by
  unfold leaked
  split
  · split
    · next hnotes =>
      have hfront : Text.Settled ("// " ++ field.name) :=
        Text.Settled.append (by decide) (h rfl hnotes)
      have hnote : Text.Settled (Rust.presenceNote field.name) := hfront.append (by decide)
      rw [Text.returnsOf_of_quiet hnote.steady.quiet, List.filter_nil]
    · rfl
  · rfl

end Step

/-! ## What is written into lines -/

namespace Schema

/-- A whole number is written in digits, perhaps behind a sign. -/
theorem mem_render_int {i : Int} {c : Char} (hc : c ∈ (DefaultValue.render (.int i)).toList) :
    c.isDigit = true ∨ c = '-' := by
  have hdigits {n : Nat} (hc : c ∈ n.repr.toList) : c.isDigit = true := by
    rw [Nat.toList_repr] at hc
    exact Nat.isDigit_of_mem_toDigits (by decide) (by decide) hc
  cases i with
  | ofNat n => exact .inl (hdigits hc)
  | negSucc n =>
      have hsign : c ∈ ("-" ++ (n + 1).repr).toList := hc
      rw [String.toList_append, List.mem_append] at hsign
      obtain hsign | hc := hsign
      · exact .inr (List.mem_singleton.1 hsign)
      · exact .inl (hdigits hc)

/-- A written integer is on one line. -/
theorem notMem_render_int (i : Int) : '\n' ∉ (DefaultValue.render (.int i)).toList := fun hc =>
  absurd (mem_render_int hc) (by decide)

/-- The default of a whole number is one. -/
theorem exists_int_of_suits {field : Field} {d : DefaultValue} (h : Suits field (.default d))
    (hkind : field.type.kind = .int) : ∃ i, d = .int i := by
  have hdefault : defaultOf field = some d := h
  rw [defaultOf, hkind] at hdefault
  split at hdefault
  · exact ⟨_, (Option.some.inj hdefault).symm⟩
  · contradiction
  · contradiction

/-- The literal of a default stays on one line. -/
theorem notMem_literal {field : Field} {d : DefaultValue} {write : String → String}
    (hwrite : ∀ s, '\n' ∉ (write s).toList) (h : Suits field (.default d)) :
    '\n' ∉ (if field.type.kind == .int then d.render else write d.render).toList := by
  split
  · next hkind =>
    obtain ⟨i, rfl⟩ := exists_int_of_suits h (beq_iff_eq.1 hkind)
    exact notMem_render_int i
  · exact hwrite _

end Schema

/-- A list of literals is on one line where each of them is. -/
theorem Literal.notMem_listed {write : String → String} (hwrite : ∀ s, '\n' ∉ (write s).toList)
    (texts : List String) : '\n' ∉ (", ".intercalate (texts.map write)).toList := by
  apply Text.notMem_intercalate (by decide)
  rw [List.forall_mem_map]
  exact fun s _ => hwrite s

variable {index : Nat} {child : String} {m : Member} {value : String} {draft : Draft} {s : Step}

/-! ## Go -/

namespace Go

/-- A Go report of failure returns its message. -/
theorem errors_failure (field message : String) :
    Draft.errors .go index child (failure field message :: draft) =
      some (fieldMessage field message) :: Draft.errors .go index child draft := by
  refine Draft.errors_return ?_ ?_ ?_ (error?_field index child field message)
  · simp only [← String.append_assoc]
    rfl
  · simp only [Text.notMem_append, Literal.notMem_doubleQuoted, not_false_eq_true, and_true]
    decide
  · intro heq
    have hhead := congrArg (fun s => s.toList.head?) heq
    simp [String.toList_append, Language.success] at hhead

section

variable (hvalue : Text.Steady value)
include hvalue

/-- A Go step for a default returns no error. -/
theorem errors_defaultStep {d : DefaultValue} (h : Schema.Suits m.field (.default d)) :
    Draft.errors .go index child (defaultStep m value d) = [] := by
  have hif : Text.Steady ("if " ++ value) := Text.Steady.append (by decide) hvalue
  unfold defaultStep
  extract_lets isInt zero literal typed
  have hzero : Text.Steady zero := by
    unfold zero
    split <;> decide
  have hliteral : '\n' ∉ literal.toList :=
    Schema.notMem_literal Literal.notMem_doubleQuoted h
  split
  · have hcondition : Text.Steady s!"if {value} == nil || *{value} == {zero} \x7b" :=
      ((((hif.append (by decide)).append hvalue).append (by decide)).append hzero).append
        (by decide)
    have htyped : '\n' ∉ typed.toList := by
      unfold typed
      split
      · exact Text.notMem_append.2 ⟨Text.notMem_append.2 ⟨by decide, hliteral⟩, by decide⟩
      · exact hliteral
    have hset : Text.Settled ("value := " ++ typed) := Text.Settled.append (by decide) htyped
    have hpointed : Text.Steady (value ++ " = &value") := hvalue.append (by decide)
    rw [Draft.errors_quiet hcondition.quiet, Draft.errors_quiet hset.steady.quiet,
      Draft.errors_quiet hpointed.quiet, Draft.errors_quiet (by decide), Draft.errors_emptyLine,
      Draft.errors_nil]
  · have hcondition : Text.Steady s!"if {value} == {zero} \x7b" :=
      ((hif.append (by decide)).append hzero).append (by decide)
    have hset : Text.Settled s!"{value} = {literal}" :=
      (hvalue.append_settled (by decide)).append hliteral
    rw [Draft.errors_quiet hcondition.quiet, Draft.errors_quiet hset.steady.quiet,
      Draft.errors_quiet (by decide), Draft.errors_emptyLine, Draft.errors_nil]

/-- The Go test for an absent value is steady. -/
theorem steady_missing (kind : Kind) : Text.Steady (missing kind value) := by
  unfold missing
  split <;> exact hvalue.append (by decide)

/-- A Go step for an enumeration returns its message and no other. -/
theorem errors_enumStep (allowed : List String) :
    Draft.errors .go index child (enumStep m value allowed) =
      [some (fieldMessage m.field.name (enumMessage allowed))] := by
  unfold enumStep
  extract_lets texts condition
  have hlisted := Literal.notMem_listed Literal.notMem_doubleQuoted allowed
  have htexts : Text.Steady texts :=
    (Text.Settled.append (by decide) hlisted).steady.append (by decide)
  have hcondition : Text.Steady condition := by
    unfold condition
    split
    · have hset : Text.Steady s!"{value} != nil && *{value} != \"\" && !oneOf(*{value}, " :=
        ((((hvalue.append (by decide)).append hvalue).append (by decide)).append hvalue).append
          (by decide)
      exact (hset.append htexts).append (by decide)
    · have hset : Text.Steady s!"{value} != \"\" && !oneOf({value}, " :=
        ((hvalue.append (by decide)).append hvalue).append (by decide)
      exact (hset.append htexts).append (by decide)
  have hif : Text.Steady ("if " ++ condition ++ " \x7b") :=
    hcondition.enclosed (by decide) (by decide)
  rw [Draft.errors_quiet hif.quiet, errors_failure, Draft.errors_quiet (by decide),
    Draft.errors_emptyLine, Draft.errors_nil]

/-- A Go step for elements returns the error of an element and no other. -/
theorem errors_elementsStep :
    Draft.errors .go index child (elementsStep value) = [some (elementMessage index child)] := by
  have hfor : Text.Steady ("for index := range " ++ value ++ " \x7b") :=
    hvalue.enclosed (by decide) (by decide)
  have hif : Text.Steady ("if err := " ++ value ++ "[index].Validate(); err != nil \x7b") :=
    hvalue.enclosed (by decide) (by decide)
  have hreturn : "return fmt.Errorf(\"element %d: %s\", index, err.Error())" =
      "return " ++ "fmt.Errorf(\"element %d: %s\", index, err.Error())" := rfl
  rw [elementsStep, Draft.errors_quiet hfor.quiet, Draft.errors_quiet hif.quiet,
    Draft.errors_return hreturn (by decide) (by decide) (error?_elements index child),
    Draft.errors_quiet (by decide), Draft.errors_quiet (by decide), Draft.errors_emptyLine,
    Draft.errors_nil]

/-- A Go step returns the message that it stands for, and nothing else. -/
theorem errors_step (h : Schema.Suits m.field s) :
    Draft.errors .go index child (step m value s) =
      (s.reported? .go m.field index child).toList.map some := by
  cases s with
  | default d => exact errors_defaultStep hvalue h
  | oneOf allowed => exact errors_enumStep hvalue allowed
  | elements type => exact errors_elementsStep hvalue
  | required =>
      have hif : Text.Steady ("if " ++ missing m.field.type.kind value ++ " \x7b") :=
        (steady_missing hvalue _).enclosed (by decide) (by decide)
      rw [step, Draft.errors_quiet hif.quiet, errors_failure, Draft.errors_quiet (by decide),
        Draft.errors_emptyLine, Draft.errors_nil]
      rfl

end

/-- The value of a member, whatever the letter that its receiver is called by. -/
theorem steady_member {name : String}
    (hm : Language.go.identifier .field m.field.name = .ok m.identifier) :
    Text.Steady (receiver name ++ "." ++ m.identifier) := by
  have hreceiver : Text.Settled (receiver name ++ ".") := by
    have hdot {m : Text.Mark} (hm : m ≠ .caught) : m.next '.' = .inside := by
      cases m with
      | caught => contradiction
      | _ => rfl
    intro m hm
    rw [receiver, String.toList_append, String.toList_ofList, Text.mark_append]
    cases name.toList with
    | nil => exact hdot (by rintro rfl; exact absurd hm (by decide))
    | cons c rest => exact hdot (Text.Mark.next_ne_caught hm)
  have hfeed : '\n' ∉ m.identifier.toList := by
    rw [← Language.casing_of_identifier hm, Language.casing, Name.exported, String.toList_ofList]
    exact fun hfeed => absurd (Name.isWordChar_exportedChars hfeed) (by decide)
  exact (hreceiver.append hfeed).steady

/-- A Go step is written line by line. -/
theorem onlyLines_step : Draft.OnlyLines (step m value s) := by
  cases s with
  | default d =>
      rw [step, defaultStep]
      split <;> simp [Draft.OnlyLines, Draft.emptyLine]
  | _ => simp [Draft.OnlyLines, step, enumStep, elementsStep, failure, Draft.emptyLine]

end Go

/-! ## Rust -/

namespace Rust

theorem errors_failure (depth : Nat) (field message : String) :
    Draft.errors .rust index child (failure depth field message :: draft) =
      some (fieldMessage field message) :: Draft.errors .rust index child draft := by
  refine Draft.errors_return ?_ ?_ ?_ (error?_field index child field message)
  · simp only [← String.append_assoc]
    rfl
  · simp only [Text.notMem_append, Literal.notMem_rust, not_false_eq_true, and_true]
    decide
  · intro heq
    have hhead := congrArg (fun s => s.toList.head?) heq
    simp [String.toList_append, Language.success] at hhead

section

variable (hvalue : Text.Steady value)
include hvalue

theorem errors_defaultStep {d : DefaultValue} (h : Schema.Suits m.field (.default d)) :
    Draft.errors .rust index child (defaultStep m value d) = [] := by
  unfold defaultStep
  extract_lets isInt literal condition assigned
  have hliteral : '\n' ∉ literal.toList :=
    Schema.notMem_literal (fun s => Text.notMem_append.2 ⟨Literal.notMem_rust s, by decide⟩) h
  have hcondition : Text.Steady condition := by
    unfold condition
    split <;> split <;> exact hvalue.append (by decide)
  have hassigned : '\n' ∉ assigned.toList := by
    unfold assigned
    split
    · exact Text.notMem_append.2 ⟨Text.notMem_append.2 ⟨by decide, hliteral⟩, by decide⟩
    · exact hliteral
  have hif : Text.Steady ("if " ++ condition ++ " \x7b") :=
    hcondition.enclosed (by decide) (by decide)
  have hset : Text.Settled s!"{value} = {assigned};" :=
    ((hvalue.append_settled (by decide)).append hassigned).append (by decide)
  rw [Draft.errors_quiet hif.quiet, Draft.errors_quiet hset.steady.quiet,
    Draft.errors_quiet (by decide), Draft.errors_emptyLine, Draft.errors_nil]

theorem steady_missing {kind : Kind} {condition : String}
    (h : missing? kind value = some condition) :
    Text.Steady condition := by
  unfold missing? at h
  split at h
  · exact Option.some.inj h ▸ hvalue.append (by decide)
  · exact Option.some.inj h ▸ hvalue.append (by decide)
  · exact Option.some.inj h ▸ hvalue.append (by decide)
  · obtain rfl := Option.some.inj h
    have hinstant : Text.Settled (value ++ ".timestamp() == ") :=
      hvalue.append_settled (by decide)
    exact (hinstant.append (Schema.notMem_render_int originSecond)).steady
  · contradiction

theorem errors_enumStep (allowed : List String) :
    Draft.errors .rust index child (enumStep m value allowed) =
      [some (fieldMessage m.field.name (enumMessage allowed))] := by
  unfold enumStep
  extract_lets texts message
  have hlisted := Literal.notMem_listed Literal.notMem_rust allowed
  have htexts : Text.Steady texts :=
    (Text.Settled.append (by decide) hlisted).steady.append (by decide)
  split
  · have hlet : Text.Steady ("if let Some(value) = " ++ value ++ ".as_deref() \x7b") :=
      hvalue.enclosed (by decide) (by decide)
    have hif : Text.Steady ("if !value.is_empty() && !" ++ texts ++ ".contains(&value) \x7b") :=
      htexts.enclosed (by decide) (by decide)
    rw [Draft.errors_quiet hlet.quiet, Draft.errors_quiet hif.quiet, errors_failure,
      Draft.errors_quiet (by decide), Draft.errors_quiet (by decide), Draft.errors_emptyLine,
      Draft.errors_nil]
  · have hif : Text.Steady ("if !" ++ value ++ ".is_empty() && !" ++ texts ++ ".contains(&" ++
        value ++ ".as_str()) \x7b") :=
      ((((hvalue.enclosed (by decide) (by decide)).append htexts).append (by decide)).append
        hvalue).append (by decide)
    rw [Draft.errors_quiet hif.quiet, errors_failure, Draft.errors_quiet (by decide),
      Draft.errors_emptyLine, Draft.errors_nil]

/-- The loop over elements returns the error of an element, and then what follows it. -/
theorem errors_elementsLoop (depth : Nat) :
    Draft.errors .rust index child (elementsLoop depth value ++ draft) =
      some (elementMessage index child) :: Draft.errors .rust index child draft := by
  have hfor : Text.Steady ("for (i, item) in " ++ value ++ ".iter_mut().enumerate() \x7b") :=
    hvalue.enclosed (by decide) (by decide)
  have hreturn : "return Err(format!(\"element \x7b\x7d: \x7b\x7d\", i, err));" =
      "return " ++ "Err(format!(\"element \x7b\x7d: \x7b\x7d\", i, err));" := rfl
  simp only [elementsLoop, List.cons_append, List.nil_append]
  rw [Draft.errors_quiet hfor.quiet, Draft.errors_quiet (by decide),
    Draft.errors_return hreturn (by decide) (by decide) (error?_elements index child),
    Draft.errors_quiet (by decide), Draft.errors_quiet (by decide)]

theorem errors_elementsStep :
    Draft.errors .rust index child (elementsStep m value) =
      [some (elementMessage index child)] := by
  unfold elementsStep
  split
  · have hitems : Text.Steady "items" := by decide
    have hlet : Text.Steady ("if let Some(items) = " ++ value ++ ".as_mut() \x7b") :=
      hvalue.enclosed (by decide) (by decide)
    rw [List.append_assoc, List.singleton_append, Draft.errors_quiet hlet.quiet,
      errors_elementsLoop hitems, Draft.errors_quiet (by decide), Draft.errors_emptyLine,
      Draft.errors_nil]
  · rw [errors_elementsLoop hvalue, Draft.errors_emptyLine, Draft.errors_nil]

/-- Sequences and maps have a note in the place of a check. -/
theorem errors_requiredStep (h : Schema.Suits m.field .required) :
    Draft.errors .rust index child (requiredStep m value) =
      (Step.required.leaked .rust m.field).map (fun expression =>
          (Language.rust.error? index child expression).map String.ofList) ++
        (Step.required.reported? .rust m.field index child).toList.map some := by
  have hkind : m.field.type.kind.isChecked = true := h
  unfold requiredStep
  cases hmissing : missing? m.field.type.kind value with
  | none =>
      have hnotes : Language.rust.notesPresence m.field.type.kind = true := by
        cases hfield : m.field.type.kind <;> simp_all [missing?, Kind.isChecked] <;> rfl
      have hreturns : Draft.returns [.line 2 (presenceNote m.field.name), Draft.emptyLine] =
          Text.returnsOf (presenceNote m.field.name) := by
        have hempty : Text.returnsOf "" = [] := Text.returnsOf_of_quiet (by decide)
        rw [Draft.returns_line, Draft.emptyLine, Draft.returns_line, hempty]
        exact List.append_nil _
      rw [Step.leaked, if_pos hnotes, Step.reported?, if_pos hnotes, Option.toList_none,
        List.map_nil, List.append_nil, ← hreturns]
      rfl
  | some condition =>
      have hnotes : Language.rust.notesPresence m.field.type.kind = false := by
        cases hfield : m.field.type.kind <;> simp_all [missing?] <;> rfl
      have hif : Text.Steady ("if " ++ condition ++ " \x7b") :=
        (steady_missing hvalue hmissing).enclosed (by decide) (by decide)
      simp only []
      rw [Draft.errors_quiet hif.quiet, errors_failure, Draft.errors_quiet (by decide),
        Draft.errors_emptyLine, Draft.errors_nil, Step.leaked, Step.reported?, hnotes]
      rfl

end

/-- The access to a Rust member is steady. -/
theorem steady_member (hm : Language.rust.identifier .field m.field.name = .ok m.identifier) :
    Text.Steady ("self." ++ m.identifier) := by
  apply Text.Settled.steady
  apply Text.Settled.append (by decide)
  intro hfeed
  rw [← Language.casing_of_identifier hm] at hfeed
  exact absurd (Name.isWordChar_rustMember hfeed) (by decide)

/-- A step returns its error, behind what its note returns. -/
theorem errors_step (hm : Language.rust.identifier .field m.field.name = .ok m.identifier)
    (h : Schema.Suits m.field s) :
    Draft.errors .rust index child (step m s) =
      (s.leaked .rust m.field).map (fun expression =>
          (Language.rust.error? index child expression).map String.ofList) ++
        (s.reported? .rust m.field index child).toList.map some := by
  have hvalue := steady_member hm
  cases s with
  | default d => exact errors_defaultStep hvalue h
  | required => exact errors_requiredStep hvalue h
  | oneOf allowed => exact errors_enumStep hvalue allowed
  | elements type => exact errors_elementsStep hvalue

theorem onlyLines_step : Draft.OnlyLines (step m s) := by
  cases s with
  | default d => simp [Draft.OnlyLines, step, defaultStep, Draft.emptyLine]
  | required =>
      rw [step, requiredStep]
      split <;> simp [Draft.OnlyLines, failure, Draft.emptyLine]
  | oneOf allowed =>
      rw [step, enumStep]
      split <;> simp [Draft.OnlyLines, failure, Draft.emptyLine]
  | elements type =>
      rw [step, elementsStep]
      split <;> simp [Draft.OnlyLines, elementsLoop, Draft.emptyLine]

end Rust

/-! ## TypeScript -/

namespace TypeScript

theorem errors_failure (field message : String) :
    Draft.errors .typescript index child (failure field message :: draft) =
      some (fieldMessage field message) :: Draft.errors .typescript index child draft := by
  refine Draft.errors_return rfl (Literal.notMem_doubleQuoted _) ?_
    (error?_field index child field message)
  intro heq
  have hhead := congrArg (fun s => s.toList.head?) heq
  simp [Literal.doubleQuoted, Json.string, Json.stringChars, Language.success] at hhead

/-- A name without quotes has no line feed, except perhaps at its end. -/
theorem notMem_of_isPlainKey {name : String} (h : isPlainKey name = true) :
    '\n' ∉ name.toList ∨ ∃ key, '\n' ∉ key.toList ∧ name = key ++ "\n" := by
  -- What is tested is the name without the line feed at its end.
  unfold isPlainKey at h
  extract_lets cs key at h
  have hkey : '\n' ∉ key := by
    clear_value key
    cases key with
    | nil => contradiction
    | cons c rest =>
        rw [Bool.and_eq_true, List.all_eq_true] at h
        rw [List.mem_cons]
        rintro (rfl | hfeed)
        · exact absurd h.1 (by decide)
        · exact absurd (h.2 _ hfeed) (by decide)
  by_cases hlast : cs.getLast? = some '\n'
  · have hdrop : key = cs.dropLast := by
      unfold key
      rw [hlast, beq_self_eq_true, if_pos rfl]
    refine .inr ⟨String.ofList key, by rwa [String.toList_ofList], ?_⟩
    apply String.toList_injective
    rw [String.toList_append, String.toList_ofList, hdrop]
    exact (List.dropLast_append_getLast? _ hlast).symm
  · have hsame : key = cs := by
      unfold key
      rw [if_neg (by simpa using hlast)]
    rw [hsame] at hkey
    exact .inl hkey

/-- The access to a TypeScript property is steady. -/
theorem steady_propertyAccess (name : String) : Text.Steady ("value" ++ propertyAccess name) := by
  have hdot {key : String} (hkey : '\n' ∉ key.toList) : Text.Steady ("." ++ key) :=
    (Text.Settled.append (by decide) hkey).steady
  apply Text.Steady.append (by decide)
  unfold propertyAccess
  split
  · next hplain =>
    obtain hname | ⟨key, hkey, rfl⟩ := notMem_of_isPlainKey hplain
    · exact hdot hname
    · rw [← String.append_assoc]
      exact (hdot hkey).append (by decide)
  · have hopen : Text.Settled ("[" ++ Literal.doubleQuoted name) :=
      Text.Settled.append (by decide) (Literal.notMem_doubleQuoted name)
    exact hopen.steady.append (by decide)

section

variable (hvalue : Text.Steady value)
include hvalue

theorem steady_missing (kind : Kind) : Text.Steady (missing kind value) := by
  unfold missing
  split
  · exact hvalue.append (by decide)
  · exact hvalue.append (by decide)
  · exact ((hvalue.append (by decide)).append hvalue).append (by decide)
  · exact Text.Steady.append (by decide) hvalue

theorem errors_defaultStep {d : DefaultValue} (h : Schema.Suits m.field (.default d)) :
    Draft.errors .typescript index child (stepBody m value (.default d)) = [] := by
  have hliteral := Schema.notMem_literal Literal.notMem_doubleQuoted h
  have hif : Text.Steady ("if (!" ++ value ++ ") \x7b") :=
    hvalue.enclosed (by decide) (by decide)
  have hset : Text.Settled s!"{value} = {if m.field.type.kind == .int then d.render
      else Literal.doubleQuoted d.render}" :=
    (hvalue.append_settled (by decide)).append hliteral
  rw [stepBody, Draft.errors_quiet hif.quiet, Draft.errors_quiet hset.steady.quiet,
    Draft.errors_quiet (by decide), Draft.errors_nil]

theorem errors_enumStep (allowed : List String) :
    Draft.errors .typescript index child (stepBody m value (.oneOf allowed)) =
      [some (fieldMessage m.field.name (enumMessage allowed))] := by
  have hopen : Text.Settled ("if (" ++ value ++ " && ![") :=
    (Text.Steady.append (by decide) hvalue).append_settled (by decide)
  have htexts := hopen.append (Literal.notMem_listed Literal.notMem_doubleQuoted allowed)
  have hif := ((htexts.steady.append (by decide : Text.Steady "].includes(")).append hvalue).append
    (by decide : Text.Steady ")) \x7b")
  rw [stepBody, Draft.errors_quiet hif.quiet, errors_failure, Draft.errors_quiet (by decide),
    Draft.errors_nil]

theorem errors_elementsStep (type : String) :
    Draft.errors .typescript index child (stepBody m value (.elements type)) =
      [some (elementMessage index child)] := by
  have hfor : Text.Steady ("for (const [i, item] of (" ++ value ++ " ?? []).entries()) \x7b") :=
    hvalue.enclosed (by decide) (by decide)
  have hcall : Text.Settled ("const err = validate" ++
      Language.typescript.casing .declaration type) :=
    Text.Settled.append (by decide) (Language.notMem_of_declaration _ _)
  have hreturn : "return \x60element $\x7bi\x7d: $\x7berr\x7d\x60" =
      "return " ++ "\x60element $\x7bi\x7d: $\x7berr\x7d\x60" := rfl
  rw [stepBody, Draft.errors_quiet hfor.quiet,
    Draft.errors_quiet (hcall.steady.append (by decide)).quiet, Draft.errors_quiet (by decide),
    Draft.errors_return hreturn (by decide) (by decide) (error?_elements index child),
    Draft.errors_quiet (by decide), Draft.errors_quiet (by decide), Draft.errors_nil]

/-- The body of a TypeScript step returns the message that the step stands for, and nothing else. -/
theorem errors_stepBody (h : Schema.Suits m.field s) :
    Draft.errors .typescript index child (stepBody m value s) =
      (s.reported? .typescript m.field index child).toList.map some := by
  cases s with
  | default d => exact errors_defaultStep hvalue h
  | oneOf allowed => exact errors_enumStep hvalue allowed
  | elements type => exact errors_elementsStep hvalue type
  | required =>
      have hif : Text.Steady ("if (" ++ missing m.field.type.kind value ++ ") \x7b") :=
        (steady_missing hvalue _).enclosed (by decide) (by decide)
      rw [stepBody, Draft.errors_quiet hif.quiet, errors_failure, Draft.errors_quiet (by decide),
        Draft.errors_nil]
      rfl

end

/-- A TypeScript step returns the message that it stands for, and nothing else. -/
theorem errors_step (h : Schema.Suits m.field s) :
    Draft.errors .typescript index child (step m s) =
      (s.reported? .typescript m.field index child).toList.map some := by
  rw [step, Draft.errors_append, errors_stepBody (steady_propertyAccess _) h,
    Draft.errors_emptyLine, Draft.errors_nil, List.append_nil]

theorem onlyLines_step : Draft.OnlyLines (step m s) := by
  cases s <;> simp [Draft.OnlyLines, step, stepBody, failure, Draft.emptyLine]

end TypeScript

end RpcBindings
