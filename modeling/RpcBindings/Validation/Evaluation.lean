import RpcBindings.Validation.Plan

/-!
# RpcBindings.Validation.Evaluation

Validating payloads by plans.  Fields are taken in the order of the plan and their steps in order;
defaults are written into the payload on the way, and the first step that fails ends the
evaluation.  The payload is given back as it was left then, so what was validated before the
failure keeps its defaults.
-/

namespace RpcBindings

/-- Why a payload cannot be evaluated at all. -/
inductive EvaluationError where
  /-- There is no plan for a type. -/
  | noPlan (type : String)
  /-- An element that must be a mapping is something else. -/
  | elementNotMapping (field : String) (index : Nat) (typeName : String)
  /-- The value of an array field has no elements to go through. -/
  | notIterable (typeName : String)
deriving DecidableEq

def EvaluationError.message : EvaluationError → String
  | .noPlan type => s!"No validation plan for type '{type}'"
  | .elementNotMapping field index typeName =>
    field ++ "[" ++ toString index ++ "] must be a mapping, got " ++ typeName
  | .notIterable typeName => s!"'{typeName}' object is not iterable"

/-- The earliest instant, as texts write it. -/
def originText : String := "0001-01-01T00:00:00Z"

/-- Whether a value counts as absent for a kind.  A number is absent when it equals zero, whether
it is written as a truth value, a whole number or a float; a text when it is empty; an instant when
it is the earliest one, whatever its zone. -/
def Value.isZero (kind : Kind) (v : Value) : Bool :=
  match v, kind with
  | .null, _ => true
  | v, .int | v, .float => v.isNumericZero
  | .text s, .string => s.isEmpty
  | .instant t, .timestamp => t.isOrigin
  | .text s, .timestamp => s.isEmpty || s == originText
  | _, _ => false

/-- Whether a value passes a restriction to texts: null and the empty text always do. -/
def Value.isAllowed (allowed : List String) : Value → Bool
  | .null => true
  | .text s => s.isEmpty || allowed.contains s
  | _ => false

/-- The first element of a value whose elements can be no mappings: texts consist of characters and
bytes of numbers, and the members of a set and the keys of a mapping are never collections. -/
def Value.firstAtom? : Value → Option Value
  | .text s => s.toList.head?.map fun c => .text (String.singleton c)
  | .bytes bs => bs.head?.map fun b => .int b.toNat
  | .set items => items.head?
  | .map entries => entries.head?.map (·.1)
  | _ => none

/-- The outcome of an evaluation: nothing is wrong, or the message of the first failure. -/
abbrev Verdict := Except EvaluationError (Option String)

/-- The evaluation of a mapping: the verdict and the mapping as it was left. -/
abbrev Evaluation := Entries → Verdict × Entries

namespace Evaluation

/-- Evaluates elements in order, from a position on, up to the first that fails. -/
def runElements (child : Evaluation) (field : String) : Nat → List Value → Verdict × List Value
  | _, [] => (.ok none, [])
  | index, .map entries :: rest =>
    match child entries with
    | (.ok none, entries) =>
      let (verdict, rest) := runElements child field (index + 1) rest
      (verdict, .map entries :: rest)
    | (.ok (some message), entries) =>
      (.ok (some (elementMessage index message)), .map entries :: rest)
    | (.error e, entries) => (.error e, .map entries :: rest)
  | index, v :: rest => (.error (.elementNotMapping field index v.typeName), v :: rest)

/-- The verdict on a value whose elements can be no mappings: it must not have any. -/
def refuseAtoms (field : String) (v : Value) : Verdict :=
  if !v.isTruthy then .ok none
  else
    match v.firstAtom? with
    | some atom => .error (.elementNotMapping field 0 atom.typeName)
    | none => .error (.notIterable v.qualifiedTypeName)

/-- Evaluates the elements of a value, which a value that counts as absent does not have, and gives
the value as it was left. -/
def runItems (child : Evaluation) (field : String) : Value → Verdict × Value
  | .list items =>
    let (verdict, items) := runElements child field 0 items
    (verdict, .list items)
  | .pair first second =>
    match runElements child field 0 [first, second] with
    | (verdict, [first, second]) => (verdict, .pair first second)
    | (verdict, _) => (verdict, .pair first second)
  | v => (refuseAtoms field v, v)

/-- Runs one step of a field on its value, and gives the value as it was left; `evaluate` validates
a mapping by a plan. -/
def runStep (plans : Plans) (evaluate : Plan → Evaluation) (field : Field) (step : Step)
    (value : Value) : Verdict × Value :=
  match step with
  | .default d => (.ok none, if value.isZero field.type.kind then d.value else value)
  | .required =>
    (.ok (if value.isZero field.type.kind then step.message? field.name else none), value)
  | .oneOf allowed =>
    (.ok (if value.isAllowed allowed then none else step.message? field.name), value)
  | .elements type =>
    match plans.lookup type with
    | none => (.error (.noPlan type), value)
    | some plan => runItems (evaluate plan) field.name value

/-- Runs steps of a field in order, up to the first that fails. -/
def runSteps (plans : Plans) (evaluate : Plan → Evaluation) (field : Field) :
    List Step → Value → Verdict × Value
  | [], value => (.ok none, value)
  | step :: rest, value =>
    match runStep plans evaluate field step value with
    | (.ok none, value) => runSteps plans evaluate field rest value
    | stopped => stopped

/-- Runs the steps of a field on the value that a payload has for it.  Steps of a field see and
change nothing else of the payload. -/
def runField (plans : Plans) (evaluate : Plan → Evaluation) (rules : FieldRules) : Evaluation :=
  fun payload =>
    let name := rules.field.name
    let (verdict, value) :=
      runSteps plans evaluate rules.field rules.steps (Entries.get payload name)
    (verdict, Entries.assign payload name value)

/-- Runs the steps of fields in order, up to the first that fails. -/
def runFields (plans : Plans) (evaluate : Plan → Evaluation) : List FieldRules → Evaluation
  | [], payload => (.ok none, payload)
  | rules :: rest, payload =>
    match runField plans evaluate rules payload with
    | (.ok none, payload) => runFields plans evaluate rest payload
    | stopped => stopped

/-- Evaluates a mapping whose mappings are nested at most `depth` deep. -/
def within (plans : Plans) : Nat → Plan → Evaluation
  | 0, _, payload => (.ok none, payload)
  | depth + 1, plan, payload => runFields plans (within plans depth) plan.fields payload

end Evaluation

namespace Value

mutual

def depth : Value → Nat
  | .list items | .set items => depthOfItems items + 1
  | .pair key value => max key.depth value.depth + 1
  | .map entries => depthOfEntries entries + 1
  | _ => 0

def depthOfItems : List Value → Nat
  | [] => 0
  | item :: rest => max item.depth (depthOfItems rest)

def depthOfEntries : List (Value × Value) → Nat
  | [] => 0
  | (key, value) :: rest => max (max key.depth value.depth) (depthOfEntries rest)

end

end Value

/-- The message of the first failure in a payload, and the payload with its defaults. -/
def Plan.evaluate (plan : Plan) (plans : Plans) (payload : Entries) : Verdict × Entries :=
  Evaluation.within plans (Value.depthOfEntries payload + 1) plan payload

end RpcBindings
