import RpcBindings.CommandLine.Report
import RpcBindings.Proofs.Configuration.Template
import RpcBindings.Proofs.Generation.Run
import RpcBindings.Proofs.Text.Output

/-!
# RpcBindings.Proofs.CommandLine.Promise

What a command promises about files, and when it keeps the promise.  Whatever a
command does to the files it does as a whole or not at all, but for a template
that is broken off on the way into its file, a temporary file that stays, and a
file whose path cannot be printed.  A document that goes to a file is the one that
is printed without that file, unless the console prints another text for it.
-/

namespace RpcBindings

open Workspace (Untouched Prepared Replaced Added)

namespace Report

/-- The program ends in success when nothing went wrong. -/
theorem exitCode_eq_zero_iff (r : Report) : r.exitCode = 0 ↔ r.failure = none := by
  unfold exitCode
  cases r.failure with
  | none => simp
  | some e =>
      cases e with
      | rejected e => simpa [CommandError.exitCode] using e.code_ne_zero
      | _ => simp [CommandError.exitCode]

variable [Console] {log : List Event} {text output : String}

/-- A success is one if its text can be printed. -/
theorem success_failure_iff :
    (success log text).failure = none ↔ ∃ output, Console.print text = .ok output := by
  unfold success
  cases Console.print text <;> simp

/-- A text that is printed makes a success with the output it is printed as. -/
theorem success_of_print (h : Console.print text = .ok output) :
    success log text = ⟨output, log, none⟩ := by
  rw [success, h]

end Report

namespace Command

variable [Encoding] [Loader] [Console] {verbose : Bool} {request : Request} {output : String}
  {w w' : Workspace} {report : Report}

/-! ## Promises -/

/-- The report of a command, and the workspace that it leaves. -/
def exec (c : Command) (verbose : Bool) (w : Workspace) : Report × Workspace :=
  Id.run ((c.run verbose : StateM Workspace Report).run w)

/-- A command does all of its work on the files or leaves them.  After a failure there may be new
directories on the way to the file that was requested. -/
def AllOrNothing (w : Workspace) (report : Report) (w' : Workspace) : Command → Prop
  | .generate request =>
    match request.requestedOutput w with
    | .ok (some p) =>
      if report.exitCode = 0 then ∃ content, Replaced p content w w' else Prepared p.parent w w'
    | _ => Untouched w w'
  | .generateConfig output =>
    if report.exitCode = 0 then
      Added (Path.ofString output) Configuration.templateBytes w w'
    else Untouched w w'
  | .targets => Untouched w w'

/-- A document that goes to a file is the one that the command prints if it is not asked for the
file. -/
def PrintsAsWritten (w : Workspace) (report : Report) (w' : Workspace) : Command → Prop
  | .generate request =>
    ∀ p, request.requestedOutput w = .ok (some p) → report.exitCode = 0 →
      ∀ verbose output, (request.withOutput output).requestedOutput w = .ok none →
        let printed := (exec (.generate (request.withOutput output)) verbose w).1
        printed.exitCode = 0 ∧ ∃ content, Text.encode? printed.output = some content ∧
          w'.tree.get? (w.placeOf p) = some (.file content)
  | _ => True

/-! ## Broken promises -/

/-- A document changes its file, and the path of the file cannot be printed. -/
def ReplacesUntold (request : Request) (w : Workspace) : Prop :=
  ∃ generated events w' p content e, RunT.exec request.run [] w = ((.ok generated, events), w') ∧
    generated.outputPath = some p ∧ Text.encode? generated.document = some content ∧
    w.tree.get? (w.placeOf p) ≠ some (.file content) ∧
    Console.print generated.output = .error e

/-- The template is written, and its path cannot be printed. -/
def AddsUntold (output : String) (w : Workspace) : Prop :=
  ∃ path w' e, Workspace.exec (Configuration.writeTemplate (Path.ofString output)) w =
      (.ok path, w') ∧
    Console.print (path.text ++ "\n") = .error e

/-- A command fails and leaves something: a template that is broken off on the way into its file, a
temporary file, or a file whose path cannot be printed. -/
def LeavesRemains (w : Workspace) : Command → Prop
  | .generate request => request.Strands w ∨ ReplacesUntold request w
  | .generateConfig output =>
    Configuration.TemplateBreaksOff (Path.ofString output) w ∨ AddsUntold output w
  | .targets => False

/-- The document that goes to a file is not the text that the console prints for it. -/
def PrintsOtherwise (w : Workspace) (report : Report) : Command → Prop
  | .generate request =>
    report.exitCode = 0 ∧ ∃ p generated events w',
      RunT.exec request.prepare [] w = ((.ok generated, events), w') ∧
        generated.outputPath = some p ∧
        Console.print generated.document ≠ .ok generated.document
  | _ => False

/-- Whether the console prints another text than a document in a file can be computed. -/
theorem printsOtherwise_generate (hexit : report.exitCode = 0)
    (h : (RunT.exec request.prepare [] w).1.1.toOption.any fun generated =>
      generated.outputPath.isSome &&
        (Console.print generated.document).toOption != some generated.document) :
    (Command.generate request).PrintsOtherwise w report := by
  rcases hrun : RunT.exec request.prepare [] w with ⟨⟨_ | generated, events⟩, w'⟩
  · simp [hrun, Except.toOption] at h
  · simp only [hrun, Except.toOption, Option.any_some, Bool.and_eq_true,
      Option.isSome_iff_exists, bne_iff_ne] at h
    obtain ⟨⟨p, houtput⟩, hdocument⟩ := h
    refine ⟨hexit, p, generated, events, w', hrun, houtput, fun hprint => hdocument ?_⟩
    rw [hprint]

/-! ## Running commands -/

/-- A generation reports on the run of its request. -/
theorem exec_generate (request : Request) (verbose : Bool) (w : Workspace) :
    exec (.generate request) verbose w =
      match RunT.exec request.run [] w with
      | ((.ok generated, events), w') =>
        (.success (if verbose then events else []) generated.output, w')
      | ((.error e, events), w') => (.failed (if verbose then events else []) (.run e), w') := by
  rcases hrun : RunT.exec request.run [] w with ⟨⟨_ | generated, events⟩, w'⟩
  · simp only [exec, run, RunT.exec, StateT.run_bind, Id.run_bind] at hrun ⊢
    rw [hrun]
    rfl
  · simp only [exec, run, RunT.exec, StateT.run_bind, Id.run_bind] at hrun ⊢
    rw [hrun]
    rfl

/-- A template is reported with the path it was written to. -/
theorem exec_generateConfig (output : String) (verbose : Bool) (w : Workspace) :
    exec (.generateConfig output) verbose w =
      match Workspace.exec (Configuration.writeTemplate (Path.ofString output)) w with
      | (.ok path, w') => (.success [] (path.text ++ "\n"), w')
      | (.error e, w') => (.failed [] (.template e), w') := by
  rcases hrun : Workspace.exec (Configuration.writeTemplate (Path.ofString output)) w with
    ⟨_ | path, w'⟩
  · simp only [exec, run, Workspace.exec, StateT.run_bind, Id.run_bind] at hrun ⊢
    rw [hrun]
    rfl
  · simp only [exec, run, Workspace.exec, StateT.run_bind, Id.run_bind] at hrun ⊢
    rw [hrun]
    rfl

theorem exec_targets (verbose : Bool) (w : Workspace) :
    exec .targets verbose w = (.success [] targetList, w) := by
  simp only [exec, run]
  rfl

/-! ## Keeping promises -/

/-- A document that is written is a promise kept if the path can be printed, or if the file was the
same before. -/
theorem allOrNothing_written_iff {generated : Generated} {events : List Event} {p : Path}
    {content : List UInt8} {log : List Event}
    (hrun : RunT.exec request.run [] w = ((.ok generated, events), w'))
    (hrequested : request.requestedOutput w = .ok (some p))
    (houtput : generated.outputPath = some p)
    (hbytes : Text.encode? generated.document = some content)
    (hreplaced : Replaced p content w w') :
    (Command.generate request).AllOrNothing w (.success log generated.output) w' ↔
      ¬ ReplacesUntold request w := by
  have huntold : ReplacesUntold request w ↔ w.tree.get? (w.placeOf p) ≠ some (.file content) ∧
      ∃ e, Console.print generated.output = .error e := by
    unfold ReplacesUntold
    simp only [hrun]
    grind
  have hpromise : (Command.generate request).AllOrNothing w (.success log generated.output) w' ↔
      if (Report.success log generated.output).failure = none then
        ∃ content, Replaced p content w w' else Prepared p.parent w w' := by
    simp only [AllOrNothing, hrequested, Report.exitCode_eq_zero_iff]
  rw [hpromise, huntold]
  cases hprint : Console.print generated.output with
  | ok printed =>
      rw [Report.success_of_print hprint, if_pos rfl]
      exact iff_of_true ⟨content, hreplaced⟩ (by simp)
  | error e =>
      rw [if_neg (by simp [Report.success_failure_iff, hprint]), hreplaced.prepared_iff]
      simp

/-- A generation changes all or nothing exactly where it leaves no remains. -/
theorem allOrNothing_generate_iff (hroot : w.tree.Rooted)
    (h : exec (.generate request) verbose w = (report, w')) :
    (Command.generate request).AllOrNothing w report w' ↔
      ¬ (Command.generate request).LeavesRemains w := by
  rw [exec_generate] at h
  by_cases hstrands : request.Strands w
  · obtain ⟨e, events, w₁, p, hrun, hrequested, hlittered⟩ := hstrands.exec_run hroot
    rw [hrun] at h
    cases h
    refine iff_of_false ?_ (not_not.2 (.inl hstrands))
    simp only [AllOrNothing, hrequested, Report.exitCode_eq_zero_iff, Report.failed]
    rw [if_neg (by simp)]
    exact hlittered.not_prepared
  · rw [LeavesRemains, or_iff_right hstrands]
    have hends := request.ends_run hroot
    rcases hrun : RunT.exec request.run [] w with ⟨⟨outcome, events⟩, w₁⟩
    rw [hrun] at h hends
    -- What is not written is not untold either.
    have htold (hnone : ∀ generated p, outcome = .ok generated → generated.outputPath ≠ some p) :
        ¬ ReplacesUntold request w := by
      rintro ⟨generated, _, _, p, _, _, hrun', houtput, -⟩
      rw [hrun] at hrun'
      cases hrun'
      exact hnone generated p rfl houtput
    cases hends with
    | unprepared same =>
        cases h
        refine iff_of_true ?_ (htold (by simp))
        simp only [AllOrNothing, Report.exitCode_eq_zero_iff, Report.failed]
        split
        · exact .of_untouched same
        · exact same
    | unwritten requested prepared =>
        cases h
        refine iff_of_true ?_ (htold (by simp))
        simp only [AllOrNothing, requested, Report.exitCode_eq_zero_iff, Report.failed]
        exact prepared
    | stranded _ strands _ => exact absurd strands hstrands
    | printed prepared output same =>
        cases h
        refine iff_of_true ?_ (htold fun generated p heq => ?_)
        · simp only [AllOrNothing, Request.outputPath_of_prepare prepared, output]
          exact same
        · cases heq
          simp [output]
    | written prepared output bytes replaced =>
        cases h
        have hrequested := Request.outputPath_of_prepare prepared
        rw [output] at hrequested
        exact allOrNothing_written_iff hrun hrequested output bytes replaced

/-- A template changes all or nothing exactly where it leaves no remains. -/
theorem allOrNothing_generateConfig_iff
    (h : exec (.generateConfig output) verbose w = (report, w')) :
    (Command.generateConfig output).AllOrNothing w report w' ↔
      ¬ (Command.generateConfig output).LeavesRemains w := by
  rw [exec_generateConfig] at h
  simp only [AllOrNothing, Report.exitCode_eq_zero_iff, LeavesRemains]
  -- A file that was added is there.
  have hthere {content : List UInt8} {w' : Workspace}
      (hadded : Added (Path.ofString output) content w w') : ¬ Untouched w w' := by
    intro hsame
    have hfile := hadded.file
    rw [hsame.tree, hadded.free] at hfile
    contradiction
  by_cases hbreaks : Configuration.TemplateBreaksOff (Path.ofString output) w
  · obtain ⟨e, count, w₁, hrun, hadded⟩ := hbreaks.exec_writeTemplate
    rw [hrun] at h
    cases h
    rw [Report.failed, if_neg (by simp)]
    exact iff_of_false (hthere hadded) (not_not.2 (.inl hbreaks))
  · rw [or_iff_right hbreaks]
    obtain ⟨e, w₁, hrun, hsame⟩ | ⟨e, count, w₁, hbroken, -, -⟩ | ⟨path, w₁, hrun, hadded⟩ :=
      Configuration.exec_writeTemplate (Path.ofString output) w
    · rw [hrun] at h
      cases h
      rw [Report.failed, if_neg (by simp)]
      exact iff_of_true hsame (by simp [AddsUntold, hrun])
    · exact absurd hbroken hbreaks
    · rw [hrun] at h
      cases h
      cases hprint : Console.print (path.text ++ "\n") with
      | ok printed =>
          rw [Report.success_of_print hprint, if_pos rfl]
          exact iff_of_true hadded (by simp [AddsUntold, hrun, hprint])
      | error e =>
          rw [if_neg (by simp [Report.success_failure_iff, hprint])]
          exact iff_of_false (hthere hadded) (not_not.2 ⟨path, _, e, hrun, hprint⟩)

/-- **A command leaves nothing half done** unless it leaves remains. -/
theorem allOrNothing_iff {c : Command} (hroot : w.tree.Rooted)
    (h : c.exec verbose w = (report, w')) : c.AllOrNothing w report w' ↔ ¬ c.LeavesRemains w := by
  cases c with
  | generate request => exact allOrNothing_generate_iff hroot h
  | generateConfig output => exact allOrNothing_generateConfig_iff h
  | targets =>
      obtain ⟨-, rfl⟩ := Prod.mk.inj ((exec_targets verbose w).symm.trans h)
      exact iff_of_true (Untouched.refl w) id

/-! ## Printing what is written -/

/-- What is printed when a document is not asked to go to a file. -/
theorem exec_generate_withOutput {generated : Generated} {events : List Event}
    (hprepare : RunT.exec request.prepare [] w = ((.ok generated, events), w'))
    {output : Option String} (hprinted : (request.withOutput output).requestedOutput w = .ok none)
    (verbose : Bool) :
    (exec (.generate (request.withOutput output)) verbose w).1 =
      .success (if verbose then events else []) generated.document := by
  rw [exec_generate, Request.exec_run_withOutput hprepare hprinted]
  rfl

/-- A document that was written is the one that is printed where the console leaves it. -/
theorem prints_written_iff {generated : Generated} {events : List Event} {w₁ : Workspace}
    {p : Path} {content : List UInt8}
    (hprepare : RunT.exec request.prepare [] w = ((.ok generated, events), w₁))
    (hbytes : Text.encode? generated.document = some content)
    (hfile : w'.tree.get? (w.placeOf p) = some (.file content)) :
    (∀ verbose output, (request.withOutput output).requestedOutput w = .ok none →
        let printed := (exec (.generate (request.withOutput output)) verbose w).1
        printed.exitCode = 0 ∧ ∃ content, Text.encode? printed.output = some content ∧
          w'.tree.get? (w.placeOf p) = some (.file content)) ↔
      Console.print generated.document = .ok generated.document := by
  simp only [Report.exitCode_eq_zero_iff, hfile, Option.some.injEq, FileNode.file.injEq,
    exists_eq_right']
  constructor
  · intro hprints
    have hempty : (Text.trim "").isEmpty := by decide
    have hblank := Request.requestedOutput_blank hempty (Request.outputPath_of_prepare hprepare)
    obtain ⟨hsuccess, hsame⟩ := hprints false _ hblank
    rw [exec_generate_withOutput hprepare hblank] at hsuccess hsame
    obtain ⟨printed, hprint⟩ := Report.success_failure_iff.1 hsuccess
    rw [Report.success_of_print hprint] at hsame
    rw [hprint]
    exact congrArg Except.ok (Text.encode?_inj hsame hbytes)
  · intro hprint verbose output hprinted
    rw [exec_generate_withOutput hprepare hprinted, Report.success_of_print hprint]
    exact ⟨rfl, hbytes⟩

/-- A generation prints its document exactly where it does not print otherwise. -/
theorem printsAsWritten_generate_iff (hroot : w.tree.Rooted)
    (h : exec (.generate request) verbose w = (report, w')) :
    (Command.generate request).PrintsAsWritten w report w' ↔
      ¬ (Command.generate request).PrintsOtherwise w report := by
  rw [exec_generate] at h
  unfold PrintsAsWritten PrintsOtherwise
  have hends := request.ends_run hroot
  rcases hrun : RunT.exec request.run [] w with ⟨⟨outcome, events⟩, w₁⟩
  rw [hrun] at h hends
  cases hends with
  | unprepared | unwritten | stranded =>
      cases h
      simp [Report.exitCode_eq_zero_iff, Report.failed]
  | printed prepared output same =>
      cases h
      simp [Request.outputPath_of_prepare prepared, prepared, output]
  | @written _ _ p _ _ _ prepared output bytes replaced =>
      cases h
      have hprints := prints_written_iff prepared bytes replaced.file
      have hrequested := Request.outputPath_of_prepare prepared
      rw [output] at hrequested
      constructor
      · rintro hpromise ⟨hsuccess, _, _, _, _, prepared', -, hother⟩
        rw [prepared] at prepared'
        cases prepared'
        exact hother (hprints.1 (hpromise p hrequested hsuccess))
      · intro hkept p' hrequested' hsuccess
        rw [hrequested] at hrequested'
        cases hrequested'
        refine hprints.2 (not_not.1 fun hother => hkept ?_)
        exact ⟨hsuccess, p, _, _, _, prepared, output, hother⟩

/-- **A document in a file is printed as it is there** unless the console prints another text. -/
theorem printsAsWritten_iff {c : Command} (hroot : w.tree.Rooted)
    (h : c.exec verbose w = (report, w')) :
    c.PrintsAsWritten w report w' ↔ ¬ c.PrintsOtherwise w report := by
  cases c with
  | generate request => exact printsAsWritten_generate_iff hroot h
  | generateConfig output => exact iff_of_true trivial id
  | targets => exact iff_of_true trivial id

/-! ## Directories -/

/-- Everything stays in a directory, also when remains are left. -/
theorem rooted_exec (c : Command) (verbose : Bool) (hroot : w.tree.Rooted) :
    (c.exec verbose w).2.tree.Rooted := by
  cases c with
  | generate request =>
      rw [exec_generate]
      have hends := request.ends_run hroot
      rcases hrun : RunT.exec request.run [] w with ⟨⟨outcome, events⟩, w₁⟩
      rw [hrun] at hends
      cases hends with
      | unprepared same => exact same.tree ▸ hroot
      | unwritten _ prepared => exact prepared.rooted hroot
      | stranded _ _ littered => exact littered.rooted hroot
      | printed _ _ same => exact same.tree ▸ hroot
      | written _ _ _ replaced => exact replaced.rooted
  | generateConfig output =>
      rw [exec_generateConfig]
      obtain ⟨e, w₁, hrun, hsame⟩ | ⟨e, count, w₁, -, hrun, hadded⟩ | ⟨path, w₁, hrun, hadded⟩ :=
        Configuration.exec_writeTemplate (Path.ofString output) w
      · rw [hrun]
        exact hsame.tree ▸ hroot
      · rw [hrun]
        exact hadded.rooted hroot
      · rw [hrun]
        exact hadded.rooted hroot
  | targets =>
      rw [exec_targets]
      exact hroot

end Command

end RpcBindings
