import RpcBindings.Configuration.Template
import RpcBindings.Proofs.File.Access

/-!
# RpcBindings.Proofs.Configuration.Template

Writing the template in a workspace.  It goes only to a path where nothing is,
and straight to it: a write that is broken off leaves a beginning of the
template there, while every other failure leaves the files as they are.
-/

namespace RpcBindings

namespace Configuration

open Workspace (exec Untouched Added)

variable [Encoding] {p : Path} {w : Workspace}

/-- The bytes of the template. -/
def templateBytes : List UInt8 := template.toUTF8.toList

/-- Nothing is at a path, and the template is broken off on the way into it. -/
def TemplateBreaksOff (p : Path) (w : Workspace) : Prop :=
  ∃ w' count tree, exec (FileAccess.isPresent p :
      ExceptT FileError (StateM Workspace) Bool) w = (.ok false, w') ∧
    w'.BreaksOff p templateBytes count tree

theorem exec_writeTemplate_eq (p : Path) (w : Workspace) :
    exec (writeTemplate p) w =
      match exec (FileAccess.isPresent p : ExceptT FileError (StateM Workspace) Bool) w with
      | (.ok true, w') => (.error (.present (w.directory.resolve p)), w')
      | (.ok false, w') =>
        match exec (Workspace.write p templateBytes) w' with
        | (.ok (), w'') => (.ok (w.directory.resolve p), w'')
        | (.error e, w'') => (.error (.file e), w'')
      | (.error e, w') => (.error (.file e), w') := by
  have hhere : exec (liftM (FileAccess.currentDirectory : StateM Workspace Path) :
    ExceptT TemplateError (StateM Workspace) Path) w = (.ok w.directory, w) := rfl
  rw [writeTemplate, Workspace.exec_bind, hhere]
  simp only [Workspace.exec_bind, Workspace.exec_adapt]
  generalize exec (FileAccess.isPresent p : ExceptT FileError (StateM Workspace) Bool) w = run
  obtain ⟨_ | found, w'⟩ := run
  · rfl
  · cases found with
    | true => rfl
    | false =>
        have hwrite : exec (ExceptT.adapt TemplateError.file
            (FileAccess.write p template.toUTF8.toList) :
              ExceptT TemplateError (StateM Workspace) Unit) w' =
          ((exec (Workspace.write p templateBytes) w').1.mapError TemplateError.file,
            (exec (Workspace.write p templateBytes) w').2) := rfl
        simp only [Except.mapError, if_neg Bool.false_ne_true, Workspace.exec_bind, hwrite]
        generalize exec (Workspace.write p templateBytes) w' = run
        obtain ⟨_ | _, w''⟩ := run
        · rfl
        · rfl

/-- Writing the template fails and changes nothing, is broken off and leaves a beginning of it, or
adds it as a whole. -/
theorem exec_writeTemplate (p : Path) (w : Workspace) :
    (∃ e w', exec (writeTemplate p) w = (.error e, w') ∧ Untouched w w') ∨
      (∃ e count w', TemplateBreaksOff p w ∧ exec (writeTemplate p) w = (.error e, w') ∧
        Added p (templateBytes.take count) w w') ∨
      ∃ path w', exec (writeTemplate p) w = (.ok path, w') ∧ Added p templateBytes w w' := by
  have hsame := Workspace.untouched_isPresent p w
  rw [exec_writeTemplate_eq]
  rcases hfound : exec (FileAccess.isPresent p :
    ExceptT FileError (StateM Workspace) Bool) w with ⟨e | found, w'⟩
  · rw [hfound] at hsame
    exact .inl ⟨_, w', rfl, hsame⟩
  · rw [hfound] at hsame
    cases found with
    | true => exact .inl ⟨_, w', rfl, hsame⟩
    | false =>
        simp only
        obtain ⟨e, hrun⟩ | ⟨e, count, tree, hbroken, hrun⟩ | ⟨tree, hfit, hwritten, hrun⟩ :=
          Workspace.exec_write p templateBytes w'
        · rw [hrun]
          exact .inl ⟨_, _, rfl, hsame.tree, hsame.directory⟩
        · rw [hrun]
          exact .inr (.inl ⟨_, count, _, ⟨w', count, tree, hfound, hbroken⟩, rfl,
            Workspace.added_of_isPresent hbroken.fit hfound hbroken.left⟩)
        · rw [hrun]
          exact .inr (.inr ⟨_, _, rfl, Workspace.added_of_isPresent hfit hfound hwritten⟩)

/-- A template that is broken off does leave a beginning of it. -/
theorem TemplateBreaksOff.exec_writeTemplate (h : TemplateBreaksOff p w) :
    ∃ e count w', exec (writeTemplate p) w = (.error e, w') ∧
      Added p (templateBytes.take count) w w' := by
  obtain ⟨w', count, tree, hfound, hbroken⟩ := h
  obtain ⟨e, hrun⟩ := hbroken.exec_write
  rw [exec_writeTemplate_eq, hfound]
  simp only [hrun]
  exact ⟨_, count, _, rfl, Workspace.added_of_isPresent hbroken.fit hfound hbroken.left⟩

end Configuration

end RpcBindings
