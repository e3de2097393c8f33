import RpcBindings.Decimal.Layout
import RpcBindings.Text.Quoted
import RpcBindings.Value.Basic

/-!
# RpcBindings.Value.Display

The form of data in messages: texts in quotes, collections in brackets, items separated by `, `.
-/

namespace RpcBindings.Value

mutual

def display : Value → String
  | .null => "None"
  | .bool b => if b then "True" else "False"
  | .int i => toString i
  | .float x => Decimal.Layout.shown.render x
  | .text s => Text.quoted s
  | .date d => d.display
  | .instant t => t.display
  | .bytes bs => Text.quotedBytes bs
  | .list items => "[" ++ ", ".intercalate (displayItems items) ++ "]"
  | .pair key value => "(" ++ display key ++ ", " ++ display value ++ ")"
  | .set items =>
    if items.isEmpty then "set()" else "\x7b" ++ ", ".intercalate (displayItems items) ++ "\x7d"
  | .map entries => "\x7b" ++ ", ".intercalate (displayEntries entries) ++ "\x7d"

def displayItems : List Value → List String
  | [] => []
  | item :: rest => display item :: displayItems rest

def displayEntries : List (Value × Value) → List String
  | [] => []
  | (key, value) :: rest => (display key ++ ": " ++ display value) :: displayEntries rest

end

end RpcBindings.Value
