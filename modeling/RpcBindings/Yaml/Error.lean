import RpcBindings.Calendar
import RpcBindings.Decimal.Reading
import RpcBindings.Text.Quoted

/-!
# RpcBindings.Yaml.Error

Why a text describes no datum.  Everything that is wrong with the structure of a document is one
cause; what is wrong with a single number, word or date in it has causes of its own.
-/

namespace RpcBindings.Yaml

/-- What is wrong with a number, a word or a date that a document holds. -/
inductive ScalarError where
  /-- A text is no whole number in a base. -/
  | integer (base : Nat) (text : String)
  /-- A text is no floating-point number. -/
  | float (text : String)
  /-- A number that is not written to a power of two has more digits than are read. -/
  | tooLong (digits : Nat)
  /-- Nothing is written where a number should be. -/
  | noNumber
  /-- A number to base sixty has a place that is beyond all floating-point values. -/
  | placeTooGreat
  /-- A text, in small letters, is no truth value. -/
  | truthValue (text : String)
  /-- A text has not the form of a timestamp. -/
  | timestampForm
  /-- A mapping is called a timestamp. -/
  | timestampOfMapping
  | calendar (e : CalendarError)
  /-- An escape names a number that is no code point. -/
  | codePoint
  /-- An escape names a number of 32 bits, the first of them set. -/
  | codeTooGreat

/-- The kind of a scalar error. -/
def ScalarError.kind : ScalarError → String
  | .noNumber => "IndexError"
  | .placeTooGreat | .codeTooGreat => "OverflowError"
  | .truthValue _ => "KeyError"
  | .timestampForm => "AttributeError"
  | .timestampOfMapping => "TypeError"
  | _ => "ValueError"

/-- The wording of a scalar error; of a long text that is no whole number it shows the beginning. -/
def ScalarError.message : ScalarError → String
  | .integer base text =>
    s!"invalid literal for int() with base {base}: " ++
      String.ofList ((Text.quoted text).toList.take 200)
  | .float text => "could not convert string to float: " ++ Text.quoted text
  | .tooLong digits =>
    s!"Exceeds the limit ({Decimal.mostDigits} digits) for integer string conversion: " ++
      s!"value has {digits} digits; use sys.set_int_max_str_digits() to increase the limit"
  | .noNumber => "string index out of range"
  | .placeTooGreat => "int too large to convert to float"
  | .truthValue text => Text.quoted text
  | .timestampForm => "'NoneType' object has no attribute 'groupdict'"
  | .timestampOfMapping => "expected string or bytes-like object, got 'list'"
  | .calendar e => e.message
  | .codePoint => "chr() arg not in range(0x110000)"
  | .codeTooGreat => "Python int too large to convert to C int"

/-- Why a text gives no datum. -/
inductive Error where
  /-- The text, its structure or one of its tags is not well formed. -/
  | malformed
  | scalar (e : ScalarError)
  /-- A text would hold a lone surrogate, or a node hold itself. -/
  | beyond

/-- The result of a step that only a malformed document makes impossible. -/
def orMalformed {α : Type} : Option α → Except Error α
  | some a => .ok a
  | none => .error .malformed

/-- A step that may find a document malformed is one that may find anything wrong. -/
instance : MonadLift Option (Except Error) := ⟨orMalformed⟩

end RpcBindings.Yaml
