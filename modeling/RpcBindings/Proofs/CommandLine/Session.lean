import RpcBindings.Host
import RpcBindings.Proofs.CommandLine.Promise

/-!
# RpcBindings.Proofs.CommandLine.Session

Sessions of command lines, each of which finds the files that the one before
left.  Every turn leaves everything in a directory if it was, which is what a
command needs of the files; so what is known of when a command keeps its
promises holds on every turn of every session, whatever the command lines are,
whatever is there at first and whatever is refused.  Nothing is known of the
libraries but that the one that reads arguments leaves the files as they are.
-/

namespace RpcBindings

open Workspace (Untouched)

/-- A reader of arguments that leaves the files as they are. -/
class PassiveReader [ArgumentReader (StateM Workspace)] : Prop where
  passive : ∀ (arguments : List String) (w : Workspace),
    (Id.run ((ArgumentReader.read arguments : StateM Workspace Reading).run w)).2 = w

open scoped Host in
/-- The usual reader does not even take a look at them. -/
instance : PassiveReader := ⟨fun _ _ => rfl⟩

/-! ## Turns -/

/-- A command line, and the middle parts that are tried for the names of temporary files while it
runs. -/
structure Line where
  arguments : List String
  temporaryParts : List String

/-- One command line of a session: the files before it, its report and the files after it. -/
structure Turn where
  arguments : List String
  before : Workspace
  report : Report
  after : Workspace

namespace Turn

variable [Encoding] [Loader] [Console] [ArgumentReader (StateM Workspace)]

/-- Runs a command line in a workspace. -/
def ofLine (w : Workspace) (line : Line) : Turn :=
  let before := { w with temporaryParts := line.temporaryParts }
  let run := Id.run ((runArguments line.arguments : StateM Workspace Report).run before)
  ⟨line.arguments, before, run.1, run.2⟩

/-- What is made of the arguments of a turn. -/
def reading (turn : Turn) : Reading :=
  (Id.run ((ArgumentReader.read turn.arguments : StateM Workspace Reading).run turn.before)).1

/-- The command of a turn.  Help, the version and arguments that are not understood are none. -/
def command? (turn : Turn) : Option Command :=
  match turn.reading with
  | .command _ command => some command
  | _ => none

/-- Whether a turn comes to data that cannot be followed to their ends, so that what becomes of it
is left open. -/
def overreaches (turn : Turn) : Bool :=
  turn.report.failure.any (·.fate == .leftOpen)

/-- The command of a turn does all of its work on the files or leaves them; what is no command
leaves them. -/
def AllOrNothing (turn : Turn) : Prop :=
  match turn.command? with
  | some command => command.AllOrNothing turn.before turn.report turn.after
  | none => Untouched turn.before turn.after

/-- What the command of a turn writes is what it prints otherwise. -/
def PrintsAsWritten (turn : Turn) : Prop :=
  ∀ command, turn.command? = some command →
    command.PrintsAsWritten turn.before turn.report turn.after

/-- The command of a turn fails and leaves something. -/
def LeavesRemains (turn : Turn) : Prop :=
  ∃ command, turn.command? = some command ∧ command.LeavesRemains turn.before

/-- The document that goes to a file is not the text that the console prints for it. -/
def PrintsOtherwise (turn : Turn) : Prop :=
  ∃ command, turn.command? = some command ∧ command.PrintsOtherwise turn.before turn.report

variable [PassiveReader] {w : Workspace} {line : Line}

/-- What a turn does, by what is made of its arguments. -/
theorem run_ofLine (w : Workspace) (line : Line) :
    ((ofLine w line).report, (ofLine w line).after) =
      match (ofLine w line).reading with
      | .command verbose command => command.exec verbose (ofLine w line).before
      | .shown text => (⟨text, [], none⟩, (ofLine w line).before)
      | .rejected e => (.failed [] (.rejected e), (ofLine w line).before)
      | .broken e => (.failed [] (.broken e), (ofLine w line).before) := by
  have hpassive := PassiveReader.passive line.arguments (ofLine w line).before
  have hreading : (ofLine w line).reading = (Id.run ((ArgumentReader.read line.arguments :
    StateM Workspace Reading).run (ofLine w line).before)).1 := rfl
  have hrun : ((ofLine w line).report, (ofLine w line).after) =
    Id.run ((runArguments line.arguments :
      StateM Workspace Report).run (ofLine w line).before) := rfl
  rw [hrun, runArguments, StateT.run_bind, Id.run_bind, hpassive, ← hreading]
  cases (ofLine w line).reading <;> rfl

/-- A turn runs its command, or changes nothing. -/
theorem ofLine_cases (w : Workspace) (line : Line) :
    (∃ verbose command, (ofLine w line).command? = some command ∧
        command.exec verbose (ofLine w line).before =
          ((ofLine w line).report, (ofLine w line).after)) ∨
      (ofLine w line).command? = none ∧ (ofLine w line).after = (ofLine w line).before := by
  have hrun := run_ofLine w line
  unfold command?
  cases hreading : (ofLine w line).reading with
  | command verbose command =>
      rw [hreading] at hrun
      exact .inl ⟨verbose, command, rfl, hrun.symm⟩
  | shown | rejected | broken =>
      rw [hreading] at hrun
      exact .inr ⟨rfl, (Prod.mk.inj hrun).2⟩

/-- A turn keeps a tree rooted. -/
theorem rooted_ofLine (hroot : w.tree.Rooted) : (ofLine w line).after.tree.Rooted := by
  have hbefore : (ofLine w line).before.tree.Rooted := hroot
  obtain ⟨verbose, command, -, hexec⟩ | ⟨-, hsame⟩ := ofLine_cases w line
  · have hafter := command.rooted_exec verbose hbefore
    rw [hexec] at hafter
    exact hafter
  · rw [hsame]
    exact hbefore

/-- A turn changes all or nothing exactly where it leaves no remains. -/
theorem allOrNothing_ofLine_iff (hroot : w.tree.Rooted) :
    (ofLine w line).AllOrNothing ↔ ¬ (ofLine w line).LeavesRemains := by
  have hbefore : (ofLine w line).before.tree.Rooted := hroot
  unfold AllOrNothing LeavesRemains
  obtain ⟨verbose, command, hcommand, hexec⟩ | ⟨hcommand, hsame⟩ := ofLine_cases w line
  · rw [hcommand]
    simp only [Option.some.injEq, exists_eq_left']
    exact command.allOrNothing_iff hbefore hexec
  · rw [hcommand, hsame]
    simp only [reduceCtorEq, false_and, exists_false, not_false_eq_true, iff_true]
    exact .refl _

/-- A turn prints what it would write exactly where it does not print otherwise. -/
theorem printsAsWritten_ofLine_iff (hroot : w.tree.Rooted) :
    (ofLine w line).PrintsAsWritten ↔ ¬ (ofLine w line).PrintsOtherwise := by
  have hbefore : (ofLine w line).before.tree.Rooted := hroot
  unfold PrintsAsWritten PrintsOtherwise
  obtain ⟨verbose, command, hcommand, hexec⟩ | ⟨hcommand, -⟩ := ofLine_cases w line
  · rw [hcommand]
    simp only [Option.some.injEq, exists_eq_left', forall_eq']
    exact command.printsAsWritten_iff hbefore hexec
  · rw [hcommand]
    simp

end Turn

/-! ## Sessions -/

namespace Workspace

section

variable [Encoding] [Loader] [Console] [ArgumentReader (StateM Workspace)]

/-- The turns of a session, up to one that comes to data that cannot be followed to their ends. -/
def session (w : Workspace) : List Line → List Turn
  | [] => []
  | line :: lines =>
    let turn := Turn.ofLine w line
    if turn.overreaches then [] else turn :: turn.after.session lines

variable [PassiveReader]

/-- What holds of every turn on rooted files holds of every turn of a session. -/
theorem forall_mem_session {P : Turn → Prop}
    (hturn : ∀ w line, w.tree.Rooted → P (Turn.ofLine w line)) {w : Workspace}
    (hroot : w.tree.Rooted) (lines : List Line) : ∀ turn ∈ w.session lines, P turn := by
  induction lines generalizing w with
  | nil => simp [session]
  | cons line lines ih =>
      rw [session]
      split
      · simp
      · rw [List.forall_mem_cons]
        exact ⟨hturn w line hroot, ih (Turn.rooted_ofLine hroot)⟩

/-- **When sessions keep their promises**: a turn does its work on the files as a whole or not at
all unless a failure leaves remains, and prints what it writes unless the console prints another
text for that. -/
theorem session_keeps_promises_iff {w : Workspace} (hroot : w.tree.Rooted) (lines : List Line) :
    ∀ turn ∈ w.session lines, (turn.AllOrNothing ↔ ¬ turn.LeavesRemains) ∧
      (turn.PrintsAsWritten ↔ ¬ turn.PrintsOtherwise) :=
  forall_mem_session (fun _ _ hroot =>
    ⟨Turn.allOrNothing_ofLine_iff hroot, Turn.printsAsWritten_ofLine_iff hroot⟩) hroot lines

end

/-- Nothing but a schema with a description in colour. -/
def coloured : Workspace where
  tree := FileTree.put ⟨[]⟩ ["s.yaml"] (.file
    "name: x\ntypes: \x7bt: \x7bdescription: \"\\e[31mred\"\x7d\x7d\n".toUTF8.toList)
  directory := ⟨.root, []⟩
  temporaryParts := []

/-- Writes the document of the schema to a file. -/
def writing : Line where
  arguments := ["generate", "--schema", "s.yaml", "--target", "ts-types", "--no-validate",
    "--output", "t.ts"]
  temporaryParts := ["part"]

theorem rooted_coloured : coloured.tree.Rooted := by
  have hempty : (⟨[]⟩ : FileTree).Rooted := fun place hplace hpresent =>
    absurd (by simp [FileTree.get?, hplace]) hpresent
  exact hempty.put rfl (by decide) _

open scoped Host

theorem exitCode_coloured : (Turn.ofLine coloured writing).report.exitCode = 0 := by
  decide +kernel

theorem coloured_mem_session (lines : List Line) :
    Turn.ofLine coloured writing ∈ coloured.session (writing :: lines) := by
  have hsettled : (Turn.ofLine coloured writing).overreaches = false := by decide +kernel
  rw [session, hsettled]
  exact List.mem_cons_self

theorem coloured_session_keeps_promises_iff :
    let turn := Turn.ofLine coloured writing
    coloured.tree.Rooted ∧ turn ∈ coloured.session [writing, writing] ∧
      (turn.AllOrNothing ↔ ¬ turn.LeavesRemains) ∧
      (turn.PrintsAsWritten ↔ ¬ turn.PrintsOtherwise) :=
  ⟨rooted_coloured, coloured_mem_session _,
    session_keeps_promises_iff rooted_coloured [writing, writing] _ (coloured_mem_session _)⟩

/-- The document of the schema is written with its colour and printed without it. -/
theorem coloured_session_breaks_promise :
    ∃ turn ∈ coloured.session [writing], turn.report.exitCode = 0 ∧ ¬ turn.PrintsAsWritten := by
  refine ⟨Turn.ofLine coloured writing, coloured_mem_session _, exitCode_coloured, ?_⟩
  have hcommand : (Turn.ofLine coloured writing).command? = some (.generate
      { schema := some "s.yaml", target := some "ts-types", output := some "t.ts",
        validate := some false }) := by
    decide +kernel
  rw [Turn.printsAsWritten_ofLine_iff rooted_coloured, not_not]
  refine ⟨_, hcommand, Command.printsOtherwise_generate exitCode_coloured ?_⟩
  decide +kernel

end Workspace

end RpcBindings
