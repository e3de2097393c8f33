import RpcBindings.Value.Basic

/-!
# RpcBindings.Value.Loader

Reading data from texts, which is left to a library.  It gives a tree of data, or says that a text
is no document; anything else that goes wrong in it breaks the program off.
-/

namespace RpcBindings

/-- A failure that nobody announces: its kind and its wording. -/
structure Break where
  kind : String
  message : String
deriving DecidableEq

/-- What becomes of a text that is read. -/
inductive Loaded where
  | datum (v : Value)
  /-- The text is no document, or there is more than plain data in it. -/
  | malformed
  | broken (e : Break)
  /-- The data cannot be followed to their ends: they hold themselves, or lie deeper than calls can
  be nested. -/
  | beyond

/-- A reader of documents. -/
class Loader where
  load : List Char → Loaded

end RpcBindings
