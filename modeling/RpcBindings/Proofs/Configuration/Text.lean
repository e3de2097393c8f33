import RpcBindings.Configuration.File
import RpcBindings.Proofs.File.Fit
import RpcBindings.Proofs.Text.Utf8

/-!
# RpcBindings.Proofs.Configuration.Text

Texts in files.  The text of a file is read after a look whether there is a file;
one that is not there is no failure yet.  Reading fails where a workspace obscures
the file (`exec_presentText_isError_iff`).
-/

namespace RpcBindings

namespace FileAccess

variable {m : Type → Type} [Monad m] [FileAccess m]

/-- The text of the file at a path, if there is one. -/
def presentText (p : Path) : ExceptT TextFileError m (Option (List Char)) := do
  if ← ExceptT.adapt TextFileError.file (isPresent p) then
    return some (← readText p)
  else return none

end FileAccess

/-- What is found is at the place that the path leads to. -/
theorem FileTree.find?_eq_some_iff [Encoding] {tree : FileTree} {parts : List String}
    {node : FileNode} :
    tree.find? parts = .ok (some node) ↔
      ∃ place, tree.locate parts = .ok place ∧ tree.get? place = some node := by
  unfold find?
  split
  · next place hplace => simp [hplace]
  · next hplace => simp [hplace]
  · next hplace => simp [hplace]
  · next fault _ _ hplace => simp [hplace]

namespace Workspace

variable [Encoding] {w w' : Workspace} {p : Path}

/-- What is found at a path. -/
structure Finds (w : Workspace) (p : Path) (node : FileNode) : Prop where
  fit : p.fault? = none
  length : Text.nameSize p.text ≤ FileTree.longestPath
  found : w.tree.find? (w.directory.join p).parts = .ok (some node)

/-- A path is too long to be followed, or a name on the way is. -/
def IsTooLong (w : Workspace) (p : Path) : Prop :=
  FileTree.longestPath < Text.nameSize p.text ∨
    w.tree.find? (w.directory.join p).parts = .error .nameTooLong

/-- A workspace obscures a file: it does not tell whether the file is there, or does not give its
text. -/
inductive Obscures (w : Workspace) (p : Path) : Prop where
  /-- To look for the file is refused. -/
  | unseen (hfit : p.fault? = none) (h : w.refusal?.isSome) : Obscures w p
  | tooLong (hfit : p.fault? = none) (h : w.IsTooLong p) : Obscures w p
  /-- To read what is found is refused. -/
  | unread {node : FileNode} (hfound : w.Finds p node) (h : (w.next w.tree).refusal?.isSome) :
    Obscures w p
  /-- There is a directory. -/
  | directory (hfound : w.Finds p .directory) : Obscures w p
  /-- The bytes of the file are those of no text. -/
  | garbled {bytes : List UInt8} (hfound : w.Finds p (.file bytes))
    (h : ∀ s : String, bytes ≠ s.toUTF8.toList) : Obscures w p

/-- Reading a file answers with the fault of the path, the refusal of the system or the bytes, in
this order. -/
theorem exec_read_eq (p : Path) (w : Workspace) :
    (exec (FileAccess.read p : ExceptT FileError (StateM Workspace) (List UInt8)) w) =
      match p.fault?, w.refusal? with
      | some fault, _ => (.error ⟨fault, [p.text]⟩, w.next w.tree)
      | none, some refusal => (.error ⟨refusal.fault, [p.text]⟩, w.next w.tree)
      | none, none =>
        match w.parts p >>= w.tree.read with
        | .ok bytes => (.ok bytes, w.next w.tree)
        | .error fault => (.error ⟨fault, [p.text]⟩, w.next w.tree) := by
  have hrun : exec (FileAccess.read p : ExceptT FileError (StateM Workspace) (List UInt8)) w =
      exec (inspect p FileTree.read) w := rfl
  rw [hrun, inspect, exec_operate, findSome?_fault?_singleton]
  cases p.fault? with
  | some fault => rfl
  | none =>
      cases w.refusal? with
      | some refusal => rfl
      | none =>
          cases hparts : w.parts p with
          | error fault => rfl
          | ok parts => cases hread : w.tree.read parts <;> simp [hread]

/-- A text is read by decoding the bytes of the file. -/
theorem exec_readText_eq (p : Path) (w : Workspace) :
    exec (FileAccess.readText p : ExceptT TextFileError (StateM Workspace) (List Char)) w =
      match exec (FileAccess.read p : ExceptT FileError (StateM Workspace) (List UInt8)) w with
      | (.ok bytes, w') =>
        (((Text.Utf8.decode bytes).mapError TextFileError.encoding).map Text.unifyLineBreaks, w')
      | (.error e, w') => (.error (.file e), w') := by
  have hrun : exec (FileAccess.readText p :
        ExceptT TextFileError (StateM Workspace) (List Char)) w =
      exec (do
        let bytes ← ExceptT.adapt TextFileError.file (FileAccess.read p)
        let text ← (ExceptT.mk (pure ((Text.Utf8.decode bytes).mapError TextFileError.encoding)) :
          ExceptT TextFileError (StateM Workspace) (List Char))
        return Text.unifyLineBreaks text) w := rfl
  rw [hrun, exec_bind, exec_adapt]
  rcases exec (FileAccess.read p : ExceptT FileError (StateM Workspace) (List UInt8)) w with
    ⟨e | bytes, w'⟩
  · rfl
  · simp only [Except.mapError]
    cases Text.Utf8.decode bytes <;> rfl

/-- A text that may be absent is read where the file is present. -/
theorem exec_presentText_eq (p : Path) (w : Workspace) :
    exec (FileAccess.presentText p :
        ExceptT TextFileError (StateM Workspace) (Option (List Char))) w =
      match exec (FileAccess.isPresent p : ExceptT FileError (StateM Workspace) Bool) w with
      | (.ok true, w') =>
        match exec (FileAccess.readText p :
            ExceptT TextFileError (StateM Workspace) (List Char)) w' with
        | (.ok text, w'') => (.ok (some text), w'')
        | (.error e, w'') => (.error e, w'')
      | (.ok false, w') => (.ok none, w')
      | (.error e, w') => (.error (.file e), w') := by
  rw [FileAccess.presentText, exec_bind, exec_adapt]
  rcases exec (FileAccess.isPresent p : ExceptT FileError (StateM Workspace) Bool) w with
    ⟨e | _ | _, w'⟩
  · rfl
  · rfl
  · simp only [Except.mapError, if_true, exec_bind]
    rcases exec (FileAccess.readText p : ExceptT TextFileError (StateM Workspace) (List Char)) w'
      with ⟨e | text, w''⟩ <;> rfl

/-- A look at a fit path finds a node exactly where the workspace does. -/
theorem look_eq_some_iff {node : FileNode} (hfit : p.fault? = none) :
    w.parts p >>= w.tree.find? = .ok (some node) ↔ w.Finds p node := by
  unfold Workspace.parts
  split
  · next hlong => exact iff_of_false (by simp) fun hfound => absurd hfound.length (not_le.2 hlong)
  · next hshort => exact ⟨fun hfind => ⟨hfit, not_lt.1 hshort, hfind⟩, Finds.found⟩

/-- A look fails where the path is too long. -/
theorem look_eq_error_iff :
    (∃ fault, w.parts p >>= w.tree.find? = .error fault) ↔ w.IsTooLong p := by
  unfold Workspace.parts IsTooLong
  split
  · next hlong => exact iff_of_true ⟨_, rfl⟩ (.inl hlong)
  · next hshort =>
    rw [ok_bind, or_iff_right hshort]
    constructor
    · rintro ⟨fault, hfault⟩
      obtain rfl := FileTree.failsOnly_find? _ _ fault hfault
      exact hfault
    · exact fun hfault => ⟨_, hfault⟩

namespace Finds

variable {node node' : FileNode}

theorem next (hfound : w.Finds p node) : (w.next w.tree).Finds p node :=
  ⟨hfound.fit, hfound.length, hfound.found⟩

theorem unique (hfound : w.Finds p node) (hfound' : w.Finds p node') : node = node' := by
  simpa [hfound.found] using hfound'.found

theorem parts (hfound : w.Finds p node) : w.parts p = .ok (w.directory.join p).parts := by
  rw [Workspace.parts, if_neg (not_lt.2 hfound.length)]

theorem look (hfound : w.Finds p node) :
    w.parts p >>= w.tree.find? = .ok (some node) :=
  (look_eq_some_iff hfound.fit).2 hfound

/-- A path that finds something is not too long. -/
theorem not_isTooLong (hfound : w.Finds p node) : ¬ w.IsTooLong p := by
  rw [← look_eq_error_iff, hfound.look]
  simp

/-- What is found is present. -/
theorem exec_isPresent (hfound : w.Finds p node) (hgranted : w.refusal? = none) :
    exec (FileAccess.isPresent p : ExceptT FileError (StateM Workspace) Bool) w =
      (.ok true, w.next w.tree) := by
  rw [exec_isPresent_eq hfound.fit, hgranted, hfound.look]
  rfl

/-- What is found is read if it is a file that is not refused. -/
theorem exec_read (hfound : w.Finds p node) :
    exec (FileAccess.read p : ExceptT FileError (StateM Workspace) (List UInt8)) w =
      match w.refusal?, node with
      | some refusal, _ => (.error ⟨refusal.fault, [p.text]⟩, w.next w.tree)
      | none, .file bytes => (.ok bytes, w.next w.tree)
      | none, .directory => (.error ⟨.isDirectory, [p.text]⟩, w.next w.tree) := by
  obtain ⟨place, hplace, hnode⟩ := FileTree.find?_eq_some_iff.1 hfound.found
  rw [exec_read_eq, hfound.fit, hfound.parts, ok_bind, FileTree.read, hplace, ok_bind, hnode]
  cases w.refusal? <;> cases node <;> rfl

/-- A text that is found cannot be read where the system refuses, or it is a directory or no
UTF-8. -/
theorem exec_readText_isError_iff (hfound : w.Finds p node) :
    (∃ e w', exec (FileAccess.readText p :
        ExceptT TextFileError (StateM Workspace) (List Char)) w = (.error e, w')) ↔
      w.refusal?.isSome ∨ node = .directory ∨
        ∃ bytes, node = .file bytes ∧ ∀ s : String, bytes ≠ s.toUTF8.toList := by
  rw [exec_readText_eq, hfound.exec_read]
  cases w.refusal? with
  | some refusal => simp
  | none =>
      cases node with
      | directory => simp
      | file bytes =>
          have hdecode := exists_eq_error_iff.trans
            (not_congr (Text.Utf8.decode_isOk_iff : _ ↔ ∃ s : String, bytes = s.toUTF8.toList))
          simpa [map_eq_error_iff, mapError_eq_error_iff] using hdecode

end Finds

/-- What is found is obscured unless it is the file of a text and may be read. -/
theorem Finds.obscures_iff {node : FileNode} (hfound : w.Finds p node)
    (hgranted : w.refusal? = none) :
    w.Obscures p ↔ (w.next w.tree).refusal?.isSome ∨ node = .directory ∨
      ∃ bytes, node = .file bytes ∧ ∀ s : String, bytes ≠ s.toUTF8.toList := by
  constructor
  · rintro (⟨-, hrefusal⟩ | ⟨-, hlong⟩ | ⟨-, hrefusal⟩ | hfound' | ⟨hfound', hgarbled⟩)
    · simp [hgranted] at hrefusal
    · exact absurd hlong hfound.not_isTooLong
    · exact .inl hrefusal
    · exact .inr (.inl (hfound.unique hfound'))
    · exact .inr (.inr ⟨_, hfound.unique hfound', hgarbled⟩)
  · rintro (hrefusal | rfl | ⟨bytes, rfl, hgarbled⟩)
    · exact .unread hfound hrefusal
    · exact .directory hfound
    · exact .garbled hfound hgarbled

/-- What is not there is not obscured. -/
theorem not_obscures_of_missing (hgranted : w.refusal? = none)
    (hmissing : w.parts p >>= w.tree.find? = .ok none) : ¬ w.Obscures p := by
  have hnothing {node : FileNode} (hfound : w.Finds p node) : False := by
    simp [hfound.look] at hmissing
  rintro (⟨-, hrefusal⟩ | ⟨-, hlong⟩ | ⟨hfound, -⟩ | hfound | ⟨hfound, -⟩)
  · simp [hgranted] at hrefusal
  · obtain ⟨fault, hfault⟩ := look_eq_error_iff.2 hlong
    simp [hfault] at hmissing
  · exact hnothing hfound
  · exact hnothing hfound
  · exact hnothing hfound

/-- A path that is obscured is no unfit one. -/
theorem Obscures.fit (h : w.Obscures p) : p.fault? = none := by
  obtain ⟨hfit, -⟩ | ⟨hfit, -⟩ | ⟨hfound, -⟩ | hfound | ⟨hfound, -⟩ := h
  · exact hfit
  · exact hfit
  · exact hfound.fit
  · exact hfound.fit
  · exact hfound.fit

/-- **When the text of a file is not read.** -/
theorem exec_presentText_isError_iff (w : Workspace) (p : Path) :
    (∃ e w', exec (FileAccess.presentText p :
        ExceptT TextFileError (StateM Workspace) (Option (List Char))) w = (.error e, w')) ↔
      w.Obscures p := by
  rw [exec_presentText_eq]
  cases hfit : p.fault? with
  | some fault =>
      rw [exec_isPresent_of_fault (Option.isSome_of_mem hfit)]
      refine iff_of_false (by simp) fun hobscures => ?_
      simp [hobscures.fit] at hfit
  | none =>
      cases hrefusal : w.refusal? with
      | some refusal =>
          rw [exec_isPresent_eq hfit, hrefusal]
          exact iff_of_true ⟨_, _, rfl⟩ (.unseen hfit (by rw [hrefusal]; rfl))
      | none =>
          cases hlook : w.parts p >>= w.tree.find? with
          | error fault =>
              rw [exec_isPresent_eq hfit, hrefusal, hlook]
              have hlong := look_eq_error_iff.1 ⟨_, hlook⟩
              exact iff_of_true ⟨_, _, rfl⟩ (.tooLong hfit hlong)
          | ok node? =>
              cases node? with
              | none =>
                  rw [exec_isPresent_eq hfit, hrefusal, hlook]
                  exact iff_of_false (by simp) (not_obscures_of_missing hrefusal hlook)
              | some node =>
                  have hfound := (look_eq_some_iff hfit).1 hlook
                  rw [hfound.obscures_iff hrefusal, ← hfound.next.exec_readText_isError_iff,
                    hfound.exec_isPresent hrefusal]
                  simp only
                  rcases exec (FileAccess.readText p :
                      ExceptT TextFileError (StateM Workspace) (List Char)) (w.next w.tree)
                    with ⟨e | text, w'⟩
                  · simp
                  · simp

/-- A workspace withholds what a file says: it obscures the file, or its text breaks the loader
off. -/
inductive Withholds [Loader] (w : Workspace) (p : Path) : Prop where
  | obscured (h : w.Obscures p) : Withholds w p
  | breaks {text : List Char} {w' : Workspace} {e : Break}
    (htext : exec (FileAccess.presentText p :
      ExceptT TextFileError (StateM Workspace) (Option (List Char))) w = (.ok (some text), w'))
    (h : Loader.load text = .broken e) : Withholds w p

/-- What is withheld by what is read. -/
theorem withholds_iff [Loader] :
    w.Withholds p ↔
      match (exec (FileAccess.presentText p :
          ExceptT TextFileError (StateM Workspace) (Option (List Char))) w).1 with
      | .error _ => True
      | .ok none => False
      | .ok (some text) => ∃ e, Loader.load text = .broken e := by
  have hobscures := exec_presentText_isError_iff w p
  constructor
  · rintro (hobscured | ⟨htext, hbroken⟩)
    · obtain ⟨e, w', hfails⟩ := hobscures.2 hobscured
      rw [hfails]
      trivial
    · rw [htext]
      exact ⟨_, hbroken⟩
  · rcases htext : exec (FileAccess.presentText p :
        ExceptT TextFileError (StateM Workspace) (Option (List Char))) w with ⟨e | _ | text, w'⟩
    · exact fun _ => .obscured (hobscures.1 ⟨e, w', htext⟩)
    · exact False.elim
    · rintro ⟨e, hbroken⟩
      exact .breaks htext hbroken

end Workspace

namespace Configuration

open Workspace (exec)

/-- The entries of a configuration are those of its text, and there are none where the file is
absent. -/
theorem exec_readEntries_eq [Encoding] [Loader] (p : Path) (w : Workspace) :
    exec (readEntries p : ExceptT ConfigurationFileError (StateM Workspace) Entries) w =
      match exec (FileAccess.presentText p :
          ExceptT TextFileError (StateM Workspace) (Option (List Char))) w with
      | (.ok (some text), w') => (rootEntries text, w')
      | (.ok none, w') => (.error (.configuration (.fileNotFound p.text)), w')
      | (.error e, w') => (.error (.text e), w') := by
  rw [readEntries, Workspace.exec_bind, Workspace.exec_adapt, Workspace.exec_presentText_eq]
  rcases exec (FileAccess.isPresent p : ExceptT FileError (StateM Workspace) Bool) w with
    ⟨e | _ | _, w'⟩
  · rfl
  · rfl
  · simp only [Except.mapError, Bool.not_true, Bool.false_eq_true, if_false,
      Workspace.exec_bind, Workspace.exec_adapt]
    rcases exec (FileAccess.readText p : ExceptT TextFileError (StateM Workspace) (List Char)) w'
      with ⟨e | text, w''⟩ <;> rfl

end Configuration

end RpcBindings
