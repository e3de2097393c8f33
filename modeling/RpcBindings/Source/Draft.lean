import RpcBindings.Text.Lines

/-!
# RpcBindings.Source.Draft

Source text in the making: a list of strokes that are turned into lines.  A stroke is a line at
some depth of indentation, a gap (one empty line, unless there is one already), or a block of ready
lines.  The finished text ends with exactly one line feed.
-/

namespace RpcBindings

/-- One addition to a source text. -/
inductive Stroke where
  /-- A line at a depth of indentation; an empty line is not indented. -/
  | line (depth : Nat) (text : String)
  /-- An empty line, unless the text is empty or ends with one. -/
  | gap
  /-- The lines of a text, taken as they are. -/
  | block (text : String)
deriving DecidableEq

/-- A source text in the making. -/
abbrev Draft := List Stroke

namespace Stroke

/-- The lines after a stroke, given the lines before it. -/
def write (unit : String) (lines : List String) : Stroke → List String
  | .line depth text =>
    lines ++ [if text.isEmpty then "" else String.join (List.replicate depth unit) ++ text]
  | .gap =>
    match lines.getLast? with
    | none | some "" => lines
    | some _ => lines ++ [""]
  | .block text => lines ++ Text.lines (Text.trimLineFeeds text)

end Stroke

namespace Draft

/-- The lines of a draft that is indented by `unit`. -/
def lines (unit : String) (draft : Draft) : List String :=
  draft.foldl (Stroke.write unit) []

/-- One draft after another is written onto the lines of the first. -/
theorem lines_append (unit : String) (draft more : Draft) :
    lines unit (draft ++ more) = more.foldl (Stroke.write unit) (lines unit draft) :=
  List.foldl_append

/-- Lines without the empty ones at the end. -/
def dropEmptyEnd (lines : List String) : List String :=
  (lines.reverse.dropWhile (·.isEmpty)).reverse

def render (unit : String) (draft : Draft) : String :=
  "\n".intercalate (dropEmptyEnd (lines unit draft)) ++ "\n"

def emptyLine : Stroke := .line 0 ""

/-- Ready lines. -/
def ready (lines : List String) : Draft :=
  lines.map (Stroke.line 0)

end Draft

end RpcBindings
