import RpcBindings.Proofs.Source.Literal
import RpcBindings.Proofs.Source.Returns
import RpcBindings.Target.Registry

/-!
# RpcBindings.Proofs.Target.Errors

Reading the errors that a validation returns.  Each language has its own way to write
an error: Go puts the field and the message into a structure that a helper formats,
Rust and TypeScript write the whole text; for the elements of an array each of them
formats the index and the error of the element.  The readers here take the expressions
apart by the rules of the languages.
-/

namespace RpcBindings

/-! ## Formats -/

/-- Puts values in the place of the holes of a format, in order. -/
def fill (isHole : Char → Char → Bool) : List Char → List (List Char) → Option (List Char)
  | c :: d :: rest, values =>
    if isHole c d then
      match values with
      | [] => none
      | value :: values => (fill isHole rest values).map (value ++ ·)
    else (fill isHole (d :: rest) values).map (c :: ·)
  | cs, [] => some cs
  | _, _ => none

/-- A literal that is the format of a call, with the arguments that follow it. -/
def formatted (escapes : Literal.Escapes) (isHole : Char → Char → Bool) (arguments : String)
    (values : List (List Char)) (cs : List Char) : Option (List Char) := do
  let (format, rest) ← Literal.read escapes cs
  if rest == arguments.toList then fill isHole format values else none

/-! ## Errors of the languages -/

namespace Go

def isHole (c d : Char) : Bool :=
  c == '%' && (d == 'd' || d == 's')

/-- The text that the helper makes of a structure. -/
def errorText? (field message : List Char) : Option (List Char) :=
  helpers.findSome? fun line => do
    let rest ← Text.after? "\treturn fmt.Sprintf(".toList line.toList
    formatted Literal.sharedEscapes isHole ", e.Field, e.Message)" [field, message] rest

/-- The text of an error for a field. -/
def fieldError? (cs : List Char) : Option (List Char) := do
  let rest ← Text.after? "ValidationError\x7bField: ".toList cs
  let (field, rest) ← Literal.read Literal.sharedEscapes rest
  let rest ← Text.after? ", Message: ".toList rest
  let (message, rest) ← Literal.read Literal.sharedEscapes rest
  if rest == "\x7d".toList then errorText? field message else none

/-- The text of an error for an element. -/
def elementError? (index : Nat) (child : String) (cs : List Char) : Option (List Char) := do
  let rest ← Text.after? "fmt.Errorf(".toList cs
  formatted Literal.sharedEscapes isHole ", index, err.Error())"
    [(toString index).toList, child.toList] rest

/-- The text of an error. -/
def error? (index : Nat) (child : String) (cs : List Char) : Option (List Char) :=
  (fieldError? cs).or (elementError? index child cs)

end Go

namespace Rust

def isHole (c d : Char) : Bool :=
  c == '\x7b' && d == '\x7d'

/-- The text of an error for a field. -/
def fieldError? (cs : List Char) : Option (List Char) := do
  let rest ← Text.after? "Err(".toList cs
  let (text, rest) ← Literal.read Literal.rustEscapes rest
  if rest == ".to_string());".toList then some text else none

/-- The text of an error for an element. -/
def elementError? (index : Nat) (child : String) (cs : List Char) : Option (List Char) := do
  let rest ← Text.after? "Err(format!(".toList cs
  formatted Literal.rustEscapes isHole ", i, err));" [(toString index).toList, child.toList] rest

/-- The text of an error. -/
def error? (index : Nat) (child : String) (cs : List Char) : Option (List Char) :=
  (fieldError? cs).or (elementError? index child cs)

end Rust

namespace TypeScript

/-- The text of a template up to its closing mark; inside a substitution, the name of
the variable so far is known. -/
def template? (bindings : List (List Char × List Char)) :
    Option (List Char) → List Char → Option (List Char)
  | none, ['\x60'] => some []
  | none, '$' :: '\x7b' :: rest => template? bindings (some []) rest
  | none, c :: rest =>
    if c == '\x60' || c == '\\' then none else (template? bindings none rest).map (c :: ·)
  | some name, '\x7d' :: rest =>
    match bindings.lookup name with
    | none => none
    | some value => (template? bindings none rest).map (value ++ ·)
  | some name, c :: rest => template? bindings (some (name ++ [c])) rest
  | _, [] => none

/-- The text of an error for a field. -/
def fieldError? (cs : List Char) : Option (List Char) := do
  let (text, rest) ← Literal.read Literal.sharedEscapes cs
  if rest.isEmpty then some text else none

/-- The text of an error for an element. -/
def elementError? (index : Nat) (child : String) (cs : List Char) : Option (List Char) := do
  let rest ← Text.after? ['\x60'] cs
  template? [("i".toList, (toString index).toList), ("err".toList, child.toList)] none rest

/-- The text of an error. -/
def error? (index : Nat) (child : String) (cs : List Char) : Option (List Char) :=
  (fieldError? cs).or (elementError? index child cs)

end TypeScript

namespace Language

/-- The expression that stands for success. -/
def success : Language → String
  | .go => "nil"
  | .rust => "Ok(());"
  | .typescript => "undefined"
  | .ruby => ""

/-- The text of the error that an expression stands for; inside the loop over elements
there are the index of an element and the text of its error. -/
def error? (index : Nat) (child : String) : Language → List Char → Option (List Char)
  | .go => Go.error? index child
  | .rust => Rust.error? index child
  | .typescript => TypeScript.error? index child
  | .ruby => fun _ => none

/-- Indentation consists of blanks or tabs. -/
theorem isIndent_indentUnit (language : Language) :
    ∀ c ∈ language.dialect.indentUnit.toList, Text.isIndent c = true :=
  List.all_eq_true.1 (by cases language <;> decide)

/-- The texts of the errors among some returned expressions. -/
def errorsAmong (language : Language) (index : Nat) (child : String)
    (expressions : List (List Char)) : List (Option String) :=
  (expressions.filter (· != language.success.toList)).map fun expression =>
    (language.error? index child expression).map String.ofList

end Language

namespace Draft

variable {language : Language} {index : Nat} {child text expression message : String}
  {depth : Nat} {draft more : Draft}

/-- The texts of the errors that the lines of a draft return. -/
def errors (language : Language) (index : Nat) (child : String) (draft : Draft) :
    List (Option String) :=
  language.errorsAmong index child draft.returns

@[simp] theorem errors_nil : errors language index child [] = [] := rfl

theorem errors_append :
    errors language index child (draft ++ more) =
      errors language index child draft ++ errors language index child more := by
  rw [errors, returns_append, Language.errorsAmong, List.filter_append, List.map_append]
  rfl

theorem errors_flatMap {α : Type} (xs : List α) (f : α → Draft) :
    errors language index child (xs.flatMap f) =
      xs.flatMap fun x => errors language index child (f x) := by
  induction xs with
  | nil => rfl
  | cons x rest ih => rw [List.flatMap_cons, List.flatMap_cons, errors_append, ih]

/-- Quiet lines return no errors. -/
theorem errors_quiet (h : Text.Quiet text) :
    errors language index child (.line depth text :: draft) =
      errors language index child draft := by
  have hreturns : returns (.line depth text :: draft) = returns draft := by
    rw [returns_line, Text.returnsOf_of_quiet h, List.nil_append]
  rw [errors, hreturns, errors]

theorem errors_emptyLine :
    errors language index child (emptyLine :: draft) = errors language index child draft :=
  errors_quiet (by decide)

/-- A return of an error is read as its message. -/
theorem errors_return (hline : text = "return " ++ expression)
    (hfeed : '\n' ∉ expression.toList) (hsuccess : expression ≠ language.success)
    (herror : language.error? index child expression.toList = some message.toList) :
    errors language index child (.line depth text :: draft) =
      some message :: errors language index child draft := by
  have hreturns : returns (.line depth text :: draft) = expression.toList :: returns draft := by
    rw [returns_line, hline, Text.returnsOf_return hfeed, List.singleton_append]
  have hkept : (expression.toList != language.success.toList) = true := by
    rw [bne_iff_ne]
    exact fun heq => hsuccess (String.toList_injective heq)
  rw [errors, hreturns, errors, Language.errorsAmong, List.filter_cons, if_pos hkept,
    List.map_cons, herror, Option.map_some, String.ofList_toList, Language.errorsAmong]

/-- The return of success is no error. -/
theorem errors_success (hline : text = "return " ++ language.success)
    (hfeed : '\n' ∉ language.success.toList) :
    errors language index child (.line depth text :: draft) =
      errors language index child draft := by
  have hreturns : returns (.line depth text :: draft) =
      language.success.toList :: returns draft := by
    rw [returns_line, hline, Text.returnsOf_return hfeed, List.singleton_append]
  rw [errors, hreturns, errors, Language.errorsAmong, List.filter_cons, bne_self_eq_false,
    if_neg Bool.false_ne_true, Language.errorsAmong]

end Draft

/-! ## What is written is read -/

variable (index : Nat) (child field message : String)

theorem toList_fieldMessage :
    (fieldMessage field message).toList =
      "Field: ".toList ++ (field.toList ++ (", Message: ".toList ++ message.toList)) := by
  have heq : fieldMessage field message = "Field: " ++ field ++ ", Message: " ++ message := rfl
  simp only [heq, String.toList_append, List.append_assoc]

theorem toList_elementMessage :
    (elementMessage index child).toList =
      "element ".toList ++ ((toString index).toList ++ (": ".toList ++ child.toList)) := by
  have heq : elementMessage index child = "element " ++ toString index ++ ": " ++ child := rfl
  simp only [heq, String.toList_append, List.append_assoc]

namespace Go

/-- The text of an error is put together from a field and a message. -/
theorem errorText?_eq (field message : List Char) :
    errorText? field message =
      some ("Field: ".toList ++ (field ++ (", Message: ".toList ++ message))) := by
  have heq : errorText? field message =
      some ("Field: ".toList ++ (field ++ (", Message: ".toList ++ (message ++ [])))) := rfl
  rw [heq, List.append_nil]

/-- A Go error on a field is read with its field and its message. -/
theorem error?_field :
    Language.go.error? index child ("ValidationError\x7bField: " ++ Literal.doubleQuoted field ++
      ", Message: " ++ Literal.doubleQuoted message ++ "\x7d").toList =
        some (fieldMessage field message).toList := by
  have hfield : fieldError? ("ValidationError\x7bField: " ++ Literal.doubleQuoted field ++
      ", Message: " ++ Literal.doubleQuoted message ++ "\x7d").toList =
        some (fieldMessage field message).toList := by
    simp only [fieldError?, String.toList_append, List.append_assoc, Text.after?_append,
      Option.bind_eq_bind, Option.bind_some, Literal.read_doubleQuoted, beq_self_eq_true, if_true,
      errorText?_eq, toList_fieldMessage]
  rw [Language.error?, error?, hfield, Option.some_or]

/-- A Go error on an element is read with its index and the error below it. -/
theorem error?_elements :
    Language.go.error? index child "fmt.Errorf(\"element %d: %s\", index, err.Error())".toList =
      some (elementMessage index child).toList := by
  have heq : Language.go.error? index child
      "fmt.Errorf(\"element %d: %s\", index, err.Error())".toList =
      some ("element ".toList ++
        ((toString index).toList ++ (": ".toList ++ (child.toList ++ [])))) := rfl
  rw [heq, List.append_nil, toList_elementMessage]

end Go

namespace Rust

theorem error?_field :
    Language.rust.error? index child
        ("Err(" ++ Literal.rust (fieldMessage field message) ++ ".to_string());").toList =
      some (fieldMessage field message).toList := by
  have hfield : fieldError?
      ("Err(" ++ Literal.rust (fieldMessage field message) ++ ".to_string());").toList =
        some (fieldMessage field message).toList := by
    simp only [fieldError?, String.toList_append, List.append_assoc, Text.after?_append,
      Option.bind_eq_bind, Option.bind_some, Literal.read_rust, beq_self_eq_true, if_true]
  rw [Language.error?, error?, hfield, Option.some_or]

theorem error?_elements :
    Language.rust.error? index child
      "Err(format!(\"element \x7b\x7d: \x7b\x7d\", i, err));".toList =
      some (elementMessage index child).toList := by
  have heq : Language.rust.error? index child
      "Err(format!(\"element \x7b\x7d: \x7b\x7d\", i, err));".toList =
        some ("element ".toList ++
          ((toString index).toList ++ (": ".toList ++ (child.toList ++ [])))) := rfl
  rw [heq, List.append_nil, toList_elementMessage]

end Rust

namespace TypeScript

theorem error?_field :
    Language.typescript.error? index child
        (Literal.doubleQuoted (fieldMessage field message)).toList =
      some (fieldMessage field message).toList := by
  have hread := Literal.read_doubleQuoted (fieldMessage field message) []
  rw [List.append_nil] at hread
  have hfield : fieldError? (Literal.doubleQuoted (fieldMessage field message)).toList =
      some (fieldMessage field message).toList := by
    simp only [fieldError?, hread, Option.bind_eq_bind, Option.bind_some, List.isEmpty_nil, if_true]
  rw [Language.error?, error?, hfield, Option.some_or]

theorem error?_elements :
    Language.typescript.error? index child "\x60element $\x7bi\x7d: $\x7berr\x7d\x60".toList =
      some (elementMessage index child).toList := by
  have heq : Language.typescript.error? index child
      "\x60element $\x7bi\x7d: $\x7berr\x7d\x60".toList =
      some ("element ".toList ++
        ((toString index).toList ++ (": ".toList ++ (child.toList ++ [])))) := rfl
  rw [heq, List.append_nil, toList_elementMessage]

end TypeScript

end RpcBindings
