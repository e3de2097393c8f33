import RpcBindings.CommandLine.Help
import RpcBindings.Text.ControlSequence
import RpcBindings.Yaml.Document

/-!
# RpcBindings.Host

The usual surroundings of the program.  Texts are those of Unicode, without stand-ins for lone
surrogates, and the names of files are in UTF-8; documents are in YAML; and texts are put out
without control sequences, as they are where the output is no terminal.
-/

namespace RpcBindings

/-- A usage error as the user is told it. -/
def UsageError.display : UsageError → String
  | .nothing => helpText none
  | e => Text.withoutSequences ("Error: " ++ e.message ++ "\n")

/-- What is made of the arguments of a command line. -/
def Reading.ofArguments [Encoding] (arguments : List String) : Reading :=
  match Invocation.ofArguments arguments with
  | .ok (.help name) => .shown (helpText name)
  | .ok .version => .shown versionText
  | .ok (.run verbose asked) => .command verbose asked
  | .error (.unfitPath fault) => .broken ⟨"ValueError", fault.wording⟩
  | .error e => .rejected ⟨2, e.display, by decide⟩

namespace Host

scoped instance : Encoding where
  isWritable _ := true
  nameSize? c := some c.utf8Size
  nameSize?_ascii c h := by
    have hsmall : c.val ≤ 0x7f := UInt32.le_iff_toNat_le.2 (Nat.le_of_lt_succ h)
    simp [Char.utf8Size, hsmall]

scoped instance : Loader := ⟨Yaml.Document.load⟩

scoped instance : Console where
  print s := .ok (Text.withoutSequences s)
  tell := Text.withoutSequences

scoped instance {m : Type → Type} [Monad m] : ArgumentReader m where
  read arguments := return Reading.ofArguments arguments

end Host

end RpcBindings
