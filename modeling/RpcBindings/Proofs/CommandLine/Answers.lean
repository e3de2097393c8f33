import RpcBindings.Proofs.CommandLine.Session
import RpcBindings.Proofs.Generation.Escapes

/-!
# RpcBindings.Proofs.CommandLine.Answers

Whether the program answers a command line: with success, with a failure that it
tells on the error output, or as a line that it does not understand.  Whatever
the files are and whatever is refused, it does so unless the reader of arguments
breaks off, a failure escapes from the run of a document, the path of a template
is none, or what is to be printed cannot be (`Turn.answers_ofLine_iff`).
-/

namespace RpcBindings

/-! ## Reports -/

namespace Report

variable [Console] {r : Report} {log : List Event}

/-- The program answers: it ends with the exit code of what happened, and tells a failure after the
log. -/
inductive Answers (r : Report) : Prop where
  | success (hfailure : r.failure = none) (hcode : r.exitCode = 0)
  | failed {e : CommandError} (hfailure : r.failure = some e) (hreported : e.fate = .reported)
    (hcode : r.exitCode = 1)
    (htold : r.errorOutput =
      String.join (r.log.map Event.line) ++ Console.tell (e.message ++ "\n"))
  | rejected {e : Rejection} (hfailure : r.failure = some (.rejected e))
    (hcode : r.exitCode = e.code)
    (htold : r.errorOutput = String.join (r.log.map Event.line) ++ e.text)

/-- A report is an answer unless it is of a failure that is not told to the user. -/
theorem answers_iff : r.Answers ↔ ∀ e, r.failure = some e → e.fate = .reported := by
  constructor
  · rintro (⟨hnone, -⟩ | ⟨hsome, hreported, -, -⟩ | ⟨hsome, -, -⟩) e he
    · simp [hnone] at he
    · cases hsome.symm.trans he
      exact hreported
    · cases hsome.symm.trans he
      rfl
  · intro hreported
    cases hfailure : r.failure with
    | none => exact .success hfailure (r.exitCode_eq_zero_iff.2 hfailure)
    | some e =>
        have he := hreported e hfailure
        cases e with
        | rejected e =>
            refine .rejected hfailure (by simp [exitCode, hfailure, CommandError.exitCode]) ?_
            simp [errorOutput, hfailure, CommandError.display]
        | broken e => contradiction
        | run e =>
            refine .failed hfailure he (by simp [exitCode, hfailure, CommandError.exitCode]) ?_
            simp [errorOutput, hfailure, CommandError.display]
        | template e =>
            refine .failed hfailure he (by simp [exitCode, hfailure, CommandError.exitCode]) ?_
            simp [errorOutput, hfailure, CommandError.display]

/-- A failure is answered exactly where its error is reported. -/
theorem answers_failed_iff {e : CommandError} : (failed log e).Answers ↔ e.fate = .reported := by
  simp [answers_iff, failed]

/-- A success is an answer if its text can be printed. -/
theorem answers_success_iff {text : String} :
    (success log text).Answers ↔ ¬ ∃ e, Console.print text = .error e := by
  rw [answers_iff, success]
  cases Console.print text with
  | ok output => simp
  | error e => simp [CommandError.fate]

end Report

/-! ## Commands -/

/-- Writing a template to a path that is fit fails with what is told to the user. -/
theorem Configuration.isReported_of_writeTemplate [Encoding] {w w' : Workspace} {output : String}
    {e : TemplateError} (hw : w.IsOrdinary)
    (hfit : ¬ (Path.ofString output).fault?.isSome)
    (h : Workspace.exec (writeTemplate (Path.ofString output)) w = (.error e, w')) :
    e.isReported = true := by
  have hlook := Workspace.minds_isPresent (fun hunfit => hfit hunfit) w hw
  rw [exec_writeTemplate_eq] at h
  generalize Workspace.exec (FileAccess.isPresent (Path.ofString output) :
    ExceptT FileError (StateM Workspace) Bool) w = run at hlook h
  obtain ⟨e | _ | _, w'⟩ := run
  · cases h
    exact Bool.of_not_eq_false (hlook.2.2 e rfl)
  · simp only at h
    have hwrite := Workspace.minds_write (fun hunfit => hfit hunfit) templateBytes w'
      hlook.1
    generalize Workspace.exec (Workspace.write (Path.ofString output)
      templateBytes) w' = run at hwrite h
    obtain ⟨e | _, w''⟩ := run
    · cases h
      exact Bool.of_not_eq_false (hwrite.2.2 e rfl)
    · simp at h
  · cases h
    rfl

namespace Command

variable [Encoding] [Loader] [Console] {verbose : Bool} {w : Workspace} {request : Request}
  {output : String}

/-- What a command is to print if it does not fail before. -/
def printed? (w : Workspace) : Command → Option String
  | .generate request => (RunT.exec request.run [] w).1.1.toOption.map Generated.output
  | .generateConfig output =>
    (Workspace.exec (Configuration.writeTemplate (Path.ofString output)) w).1.toOption.map
      (·.text ++ "\n")
  | .targets => some targetList

/-- What a command is to print cannot be printed. -/
def FailsToPrint (c : Command) (w : Workspace) : Prop :=
  ∃ text e, c.printed? w = some text ∧ Console.print text = .error e

theorem not_failsToPrint_of_none {c : Command} (h : c.printed? w = none) : ¬ c.FailsToPrint w := by
  simp [FailsToPrint, h]

/-- A success is an answer if what the command is to print can be printed. -/
theorem answers_success_iff {c : Command} {log : List Event} {text : String}
    (h : c.printed? w = some text) :
    (Report.success log text).Answers ↔ ¬ c.FailsToPrint w := by
  simp [Report.answers_success_iff, FailsToPrint, h]

/-- A generation is answered exactly where it neither escapes nor fails to print. -/
theorem answers_generate_iff (hw : w.IsOrdinary)
    (hsettled : ∀ e, (exec (.generate request) verbose w).1.failure = some e →
      e.fate ≠ .leftOpen) :
    (exec (.generate request) verbose w).1.Answers ↔
      ¬ (request.Escapes w ∨ (Command.generate request).FailsToPrint w) := by
  rw [← Request.escapes_run_iff hw, RunT.Escapes]
  rw [exec_generate] at hsettled ⊢
  rcases hrun : RunT.exec request.run [] w with ⟨⟨e | generated, events⟩, w'⟩
  · have hprints : ¬ (Command.generate request).FailsToPrint w := by
      apply not_failsToPrint_of_none
      rw [printed?, hrun]
      rfl
    have hopen : e.fate ≠ .leftOpen := by
      simpa [hrun, Report.failed, CommandError.fate] using hsettled
    have hfate : e.fate = .reported ↔ e.fate ≠ .breaksOff := by
      cases hfate : e.fate <;> simp_all
    simpa [hprints, Report.answers_failed_iff, CommandError.fate] using hfate
  · have hprinted : (Command.generate request).printed? w = some generated.output := by
      rw [printed?, hrun]
      rfl
    simpa using answers_success_iff hprinted

/-- Writing a template to an unfit path breaks the program off. -/
theorem not_answers_generateConfig (hunfit : (Path.ofString output).fault?.isSome) :
    ¬ (exec (.generateConfig output) verbose w).1.Answers := by
  obtain ⟨fault, hfault⟩ := Option.isSome_iff_exists.1 hunfit
  have hwrite := Workspace.exec_write_of_fault hfault Configuration.templateBytes w
  rw [exec_generateConfig, Configuration.exec_writeTemplate_eq,
    Workspace.exec_isPresent_of_fault hunfit]
  simp [hwrite, Report.answers_failed_iff, CommandError.fate, TemplateError.isReported,
    Path.not_isOfSystem_of_fault? hfault]

/-- A template is answered exactly where its path is fit and its line is printed. -/
theorem answers_generateConfig_iff (hw : w.IsOrdinary) (verbose : Bool) :
    (exec (.generateConfig output) verbose w).1.Answers ↔
      ¬ (Text.Unfit output ∨ (Command.generateConfig output).FailsToPrint w) := by
  rw [← Path.fault?_ofString_isSome_iff]
  by_cases hunfit : (Path.ofString output).fault?.isSome
  · exact iff_of_false (not_answers_generateConfig hunfit) (not_not.2 (.inl hunfit))
  · rw [or_iff_right hunfit, exec_generateConfig]
    rcases hrun : Workspace.exec (Configuration.writeTemplate (Path.ofString output)) w with
      ⟨e | path, w'⟩
    · have hprints : ¬ (Command.generateConfig output).FailsToPrint w := by
        apply not_failsToPrint_of_none
        rw [printed?, hrun]
        rfl
      have hreported := Configuration.isReported_of_writeTemplate hw hunfit hrun
      simp [hprints, Report.answers_failed_iff, CommandError.fate, hreported]
    · apply answers_success_iff
      rw [printed?, hrun]
      rfl

end Command

/-! ## Turns -/

namespace Turn

section

variable [Encoding] [Loader] [Console] [ArgumentReader (StateM Workspace)]

/-- Why the program is broken off in a turn. -/
inductive Escapes (turn : Turn) : Prop where
  /-- The arguments break their reader off. -/
  | arguments {e : Break} (h : turn.reading = .broken e) : Escapes turn
  /-- A failure escapes from the run of a document. -/
  | generate {request : Request} (hcommand : turn.command? = some (.generate request))
    (h : request.Escapes turn.before) : Escapes turn
  /-- The template is to go to an unfit path. -/
  | generateConfig {output : String} (hcommand : turn.command? = some (.generateConfig output))
    (h : Text.Unfit output) : Escapes turn
  /-- What the command is to print cannot be printed. -/
  | print {command : Command} (hcommand : turn.command? = some command)
    (h : command.FailsToPrint turn.before) : Escapes turn

/-- What breaks the program off in a turn with a command. -/
theorem escapes_iff_of_command {turn : Turn} {verbose : Bool} {command : Command}
    (hreading : turn.reading = .command verbose command) :
    turn.Escapes ↔ (match command with
      | .generate request => request.Escapes turn.before
      | .generateConfig output => Text.Unfit output
      | .targets => False) ∨ command.FailsToPrint turn.before := by
  have hcommand : turn.command? = some command := by
    rw [command?, hreading]
  constructor
  · rintro (h | ⟨hcommand', h⟩ | ⟨hcommand', h⟩ | ⟨hcommand', h⟩)
    · simp [hreading] at h
    · cases hcommand.symm.trans hcommand'
      exact .inl h
    · cases hcommand.symm.trans hcommand'
      exact .inl h
    · cases hcommand.symm.trans hcommand'
      exact .inr h
  · rintro (h | h)
    · cases command with
      | generate request => exact .generate hcommand h
      | generateConfig output => exact .generateConfig hcommand h
      | targets => exact h.elim
    · exact .print hcommand h

/-- What breaks the program off in a turn without a command. -/
theorem escapes_iff_of_other {turn : Turn} (hcommand : turn.command? = none) :
    turn.Escapes ↔ ∃ e, turn.reading = .broken e := by
  constructor
  · rintro (h | ⟨hcommand', -⟩ | ⟨hcommand', -⟩ | ⟨hcommand', -⟩)
    · exact ⟨_, h⟩
    all_goals simp [hcommand] at hcommand'
  · rintro ⟨e, h⟩
    exact .arguments h

variable [PassiveReader] {w : Workspace} {line : Line}

/-- The report of a turn is that of the command its line is read as. -/
theorem report_ofLine (w : Workspace) (line : Line) :
    (ofLine w line).report =
      match (ofLine w line).reading with
      | .command verbose command => (command.exec verbose (ofLine w line).before).1
      | .shown text => ⟨text, [], none⟩
      | .rejected e => .failed [] (.rejected e)
      | .broken e => .failed [] (.broken e) := by
  rw [show (ofLine w line).report = _ from congrArg Prod.fst (run_ofLine w line)]
  cases (ofLine w line).reading <;> rfl

end

/-! ### A line that is not answered -/

/-- A schema with a date as a default. -/
def datedSchema : String :=
  "types: \x7bt: \x7bproperties: \x7ba: \x7btype: timestamp, default: 2020-01-01\x7d\x7d\x7d\x7d\n"

/-- Nothing but the schema. -/
def dated : Workspace where
  tree := FileTree.put ⟨[]⟩ ["s.yaml"] (.file datedSchema.toUTF8.toList)
  directory := ⟨.root, []⟩
  temporaryParts := []

/-- Prints the types of the schema in Go. -/
def printing : Line where
  arguments := ["generate", "--schema", "s.yaml", "--target", "go-types"]
  temporaryParts := ["part"]

open scoped Host

theorem isOrdinary_dated : (ofLine dated printing).before.IsOrdinary where
  directory := by decide
  temporaryParts := by
    have hbefore : (ofLine dated printing).before.temporaryParts = ["part"] := rfl
    have hpart : ¬ Text.Unfit "part" := Text.not_unfit_of_ascii (by decide)
    simpa [hbefore] using hpart

theorem settled_dated : (ofLine dated printing).overreaches = false := by
  decide +kernel

end Turn

end RpcBindings
