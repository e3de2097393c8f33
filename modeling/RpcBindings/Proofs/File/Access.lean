import RpcBindings.Proofs.File.Workspace

/-!
# RpcBindings.Proofs.File.Access

Making directories and replacing files in a workspace.  Whatever is refused on
the way, a file that is to be replaced is either replaced as a whole or what was
there stays; all that a failure can leave behind are directories on the way to
the file that were missing before, and a temporary file if there are no bytes for
the text or the file is refused to be removed.
-/

namespace RpcBindings

/-- The parent of a path starts like the path, from wherever it is seen. -/
theorem Path.join_parent_prefix (directory p : Path) :
    (directory.join p.parent).parts <+: (directory.join p).parts := by
  have habsolute : p.parent.isAbsolute = p.isAbsolute := rfl
  unfold Path.join
  rw [habsolute]
  split
  · exact List.dropLast_prefix p.parts
  · exact (List.prefix_append_right_inj directory.parts).2 (List.dropLast_prefix p.parts)

namespace Workspace

variable {w w' w'' : Workspace} {p : Path} {place : List String} {content : List UInt8}

/-- The place that a path spells out. -/
def placeOf (w : Workspace) (p : Path) : List String :=
  FileTree.placeOf (w.directory.join p).parts

/-- Two workspaces with one working directory have one place for each path. -/
theorem placeOf_congr (h : w'.directory = w.directory) (p : Path) :
    w'.placeOf p = w.placeOf p := by
  rw [placeOf, placeOf, h]

/-! ## Directories on the way -/

/-- A place that a path leads through. -/
def IsOnWay (w : Workspace) (p : Path) (place : List String) : Prop :=
  ∃ initial, initial <+: (w.directory.join p).parts ∧ place = FileTree.placeOf initial

/-- Nothing is new in a workspace but directories on the way to a path that were missing before. -/
structure Prepared (p : Path) (w w' : Workspace) : Prop where
  directory : w'.directory = w.directory
  rooted : w.tree.Rooted → w'.tree.Rooted
  nodes : ∀ place, w'.tree.get? place = w.tree.get? place ∨
    (w.tree.get? place = none ∧ w'.tree.get? place = some .directory ∧ w.IsOnWay p place)

theorem Prepared.of_untouched (h : Untouched w w') : Prepared p w w' where
  directory := h.directory
  rooted hroot := h.tree ▸ hroot
  nodes _ := .inl (h.tree ▸ rfl)

theorem Prepared.refl (p : Path) (w : Workspace) : Prepared p w w :=
  .of_untouched (.refl w)

/-- Directories may be prepared one after the other. -/
theorem Prepared.trans (w w' w'' : Workspace) (h : Prepared p w w') (h' : Prepared p w' w'') :
    Prepared p w w'' where
  directory := h'.directory.trans h.directory
  rooted hroot := h'.rooted (h.rooted hroot)
  nodes place := by
    have hway : w'.IsOnWay p place → w.IsOnWay p place := by
      unfold IsOnWay
      rw [h.directory]
      exact id
    obtain hsame | ⟨hfree, hdirectory, honWay⟩ := h.nodes place
    · obtain hsame' | ⟨hfree', hdirectory', honWay'⟩ := h'.nodes place
      · exact .inl (hsame'.trans hsame)
      · exact .inr ⟨hsame ▸ hfree', hdirectory', hway honWay'⟩
    · obtain hsame' | ⟨hfree', -, -⟩ := h'.nodes place
      · exact .inr ⟨hfree, hsame'.trans hdirectory, honWay⟩
      · rw [hdirectory] at hfree'
        contradiction

/-- What is on the way to the parent is on the way to the path. -/
theorem Prepared.of_parent (h : Prepared p.parent w w') : Prepared p w w' where
  directory := h.directory
  rooted := h.rooted
  nodes place := by
    refine (h.nodes place).imp_right ?_
    rintro ⟨hfree, hdirectory, initial, hinitial, hplace⟩
    exact ⟨hfree, hdirectory, initial, hinitial.trans (Path.join_parent_prefix _ p), hplace⟩

/-- A later workspace with the same files is prepared as well. -/
theorem Prepared.congr (h : Prepared p w w') (hdirectory : w''.directory = w'.directory)
    (heq : ∀ place, w''.tree.get? place = w'.tree.get? place) : Prepared p w w'' where
  directory := hdirectory.trans h.directory
  rooted hroot := (h.rooted hroot).of_get?_eq heq
  nodes place := by
    rw [heq]
    exact h.nodes place

/-! ## Files that are replaced -/

/-- A file is there as a whole, in the place of a file or of nothing, and nothing else is new but
directories on the way to it that were missing before. -/
structure Replaced (p : Path) (content : List UInt8) (w w' : Workspace) : Prop where
  directory : w'.directory = w.directory
  rooted : w'.tree.Rooted
  file : w'.tree.get? (w.placeOf p) = some (.file content)
  replaced : w.tree.get? (w.placeOf p) ≠ some .directory
  others : ∀ place, place ≠ w.placeOf p → w'.tree.get? place = w.tree.get? place ∨
    (w.tree.get? place = none ∧ w'.tree.get? place = some .directory ∧ w.IsOnWay p.parent place)

/-- What was looked at before a replacement changes nothing about it. -/
theorem Replaced.of_untouched (h : Untouched w w') (hreplaced : Replaced p content w' w'') :
    Replaced p content w w'' := by
  obtain ⟨hdirectory, hrooted, hfile, hreplaced, hothers⟩ := hreplaced
  unfold IsOnWay at hothers
  rw [placeOf_congr h.directory] at hfile hreplaced hothers
  rw [h.tree, h.directory] at hothers
  rw [h.tree] at hreplaced
  exact ⟨hdirectory.trans h.directory, hrooted, hfile, hreplaced, hothers⟩

/-- To replace a file by the same one is to leave it. -/
theorem Replaced.prepared_iff (h : Replaced p content w w') :
    Prepared p.parent w w' ↔ w.tree.get? (w.placeOf p) = some (.file content) := by
  constructor
  · intro hprepared
    obtain hsame | ⟨-, hdirectory, -⟩ := hprepared.nodes (w.placeOf p)
    · exact hsame.symm.trans h.file
    · simp [h.file] at hdirectory
  · intro hsame
    refine ⟨h.directory, fun _ => h.rooted, fun place => ?_⟩
    by_cases hplace : place = w.placeOf p
    · rw [hplace, h.file, hsame]
      exact .inl rfl
    · exact h.others place hplace

/-- Once the directories on the way are there, a file that is put at its place replaces another. -/
theorem Replaced.of_put {tree : FileTree} (hhere : w''.directory = w.directory)
    (hroot : w.tree.Rooted)
    (hprepared : Prepared p.parent w w')
    (hparent : w'.tree.get? (w.placeOf p).dropLast = some .directory)
    (hplace : w'.tree.get? (w.placeOf p) ≠ some .directory)
    (hget : ∀ place, tree.get? place =
      (w'.tree.put (w.placeOf p) (.file content)).get? place) :
    Replaced p content w (w''.next tree) := by
  have hput := FileTree.get?_put_of_ne_nil w'.tree (.file content) (FileTree.ne_nil_of_get? hplace)
  constructor
  · exact hhere
  · exact ((hprepared.rooted hroot).put hparent hplace _).of_get?_eq hget
  · exact (hget _).trans ((hput _).trans (if_pos rfl))
  · intro hdirectory
    obtain hsame | ⟨hfree, -, -⟩ := hprepared.nodes (w.placeOf p)
    · exact hplace (hsame.trans hdirectory)
    · rw [hdirectory] at hfree
      contradiction
  · intro place hne
    have hsame := (hget place).trans ((hput place).trans (if_neg hne))
    obtain heq | ⟨hfree, hdirectory, honWay⟩ := hprepared.nodes place
    · exact .inl (hsame.trans heq)
    · exact .inr ⟨hfree, hsame.trans hdirectory, honWay⟩

/-! ## Making directories -/

variable [Encoding]

/-- The parts of a path that the system takes are those below the working directory. -/
theorem parts_eq_ok {parts : List String} (h : w.parts p = .ok parts) :
    parts = (w.directory.join p).parts := by
  unfold Workspace.parts at h
  split at h
  · contradiction
  · exact (Except.ok.inj h).symm

/-- Making one directory prepares it and touches no file. -/
theorem prepared_makeDirectory (p : Path) :
    Always (Prepared p)
      (FileAccess.makeDirectory p : ExceptT FileError (StateM Workspace) Unit) := by
  intro w
  obtain ⟨e, hrun⟩ | ⟨tree, -, hmake, hrun⟩ :=
    exec_change [p] (fun w => do w.tree.makeDirectory (← w.parts p)) w
  · show Prepared p w (exec (change _ _) w).2
    rw [hrun]
    exact .of_untouched ⟨rfl, rfl⟩
  · show Prepared p w (exec (change _ _) w).2
    rw [hrun]
    obtain ⟨parts, hparts, hmake⟩ := bind_eq_ok_iff.1 hmake
    obtain rfl := parts_eq_ok hparts
    obtain ⟨hlocate, hfree, rfl⟩ := FileTree.makeDirectory_eq_ok hmake
    have hdirectory : w.tree.get? (FileTree.placeOf (w.directory.join p).parts) ≠
        some .directory := by simp [hfree]
    refine ⟨rfl, fun hroot => ?_, fun place => ?_⟩
    · exact hroot.put (hroot.parent_of_locate hlocate hdirectory) hdirectory _
    · show (FileTree.put _ _ _).get? place = _ ∨ _ ∧ (FileTree.put _ _ _).get? place = _ ∧ _
      rw [FileTree.get?_put_of_ne_nil _ _ (FileTree.ne_nil_of_get? hdirectory)]
      by_cases hplace : place = FileTree.placeOf (w.directory.join p).parts
      · rw [if_pos hplace]
        exact .inr ⟨hplace ▸ hfree, rfl, _, List.prefix_refl _, hplace⟩
      · rw [if_neg hplace]
        exact .inl rfl

/-- Accepting a directory that is there touches no file. -/
theorem prepared_acceptDirectory (p : Path) (e : FileError) :
    Always (Prepared p)
      (FileAccess.acceptDirectory p e : ExceptT FileError (StateM Workspace) Unit) := by
  have huntouched : Always Untouched
      (FileAccess.acceptDirectory p e : ExceptT FileError (StateM Workspace) Unit) := by
    apply (untouched_isDirectory p).bind Untouched.trans
    intro found
    cases found with
    | true => exact always_pure Untouched.refl ()
    | false => exact always_throw Untouched.refl e
  exact huntouched.mono fun w w' h => .of_untouched h

/-- Making a directory with its parents adds nothing but directories on the way to it, also when it
fails half way. -/
theorem prepared_makeDirectories (p : Path) :
    Always (Prepared p)
      (FileAccess.makeDirectories p : ExceptT FileError (StateM Workspace) Unit) := by
  induction hlength : p.parts.length using Nat.strongRecOn generalizing p with
  | _ length ih =>
      have hthrow (e : FileError) :
          Always (Prepared p) (throw e : ExceptT FileError (StateM Workspace) Unit) :=
        always_throw (Prepared.refl p) e
      rw [FileAccess.makeDirectories]
      apply (prepared_makeDirectory p).tryCatch Prepared.trans
      intro e
      split
      · split
        · exact hthrow e
        · next hparts =>
          have hlt := Path.parent_parts_length_lt hparts
          have hparent := (ih _ (hlength ▸ hlt) p.parent rfl).mono fun _ _ h => h.of_parent
          apply hparent.bind Prepared.trans
          intro _
          apply (prepared_makeDirectory p).tryCatch Prepared.trans
          intro e
          split
          · exact hthrow e
          · exact prepared_acceptDirectory p e
      · exact prepared_acceptDirectory p e

/-! ## Files that are added -/

/-- A workspace has one file more than another, in a place that was free. -/
structure Added (p : Path) (content : List UInt8) (w w' : Workspace) : Prop where
  fit : p.fault? = none
  directory : w'.directory = w.directory
  parts : w.parts p = .ok (w.directory.join p).parts
  located : w.tree.locate (w.directory.join p).parts = .ok (w.placeOf p)
  free : w.tree.get? (w.placeOf p) = none
  file : w'.tree.get? (w.placeOf p) = some (.file content)
  others : ∀ place, place ≠ w.placeOf p → w'.tree.get? place = w.tree.get? place

/-- Two workspaces with one working directory read a path alike. -/
theorem parts_congr (h : w'.directory = w.directory) (p : Path) : w'.parts p = w.parts p := by
  unfold Workspace.parts
  rw [h]

namespace Added

variable {other : List UInt8}

/-- Putting a file in a free place adds it. -/
theorem of_put (hfit : p.fault? = none) (hparts : w.parts p = .ok (w.directory.join p).parts)
    (hlocated : w.tree.locate (w.directory.join p).parts = .ok (w.placeOf p))
    (hfree : w.tree.get? (w.placeOf p) = none) (content : List UInt8) :
    Added p content w (w.next (w.tree.put (w.placeOf p) (.file content))) := by
  have hdirectory : w.tree.get? (w.placeOf p) ≠ some .directory := by simp [hfree]
  have hput := FileTree.get?_put_of_ne_nil w.tree (.file content)
    (FileTree.ne_nil_of_get? hdirectory)
  refine ⟨hfit, rfl, hparts, hlocated, hfree, ?_, fun place hplace => ?_⟩
  · exact (hput _).trans (if_pos rfl)
  · exact (hput _).trans (if_neg hplace)

/-- A new file is an addition with no content. -/
theorem of_newFile {tree : FileTree} (hfit : p.fault? = none)
    (h : (do w.tree.newFile (← w.parts p)) = .ok tree) :
    Added p [] w (w.next tree) := by
  obtain ⟨parts, hparts, hmake⟩ := bind_eq_ok_iff.1 h
  obtain rfl := parts_eq_ok hparts
  obtain ⟨hlocated, hfree, rfl⟩ := FileTree.newFile_eq_ok hmake
  exact of_put hfit hparts hlocated hfree []

/-- Writing a file that is not there adds it. -/
theorem of_write {tree : FileTree} (hfit : p.fault? = none)
    (hfree : w.tree.get? (w.placeOf p) = none)
    (h : w.treeAfterWrite p content = .ok tree) : Added p content w (w.next tree) := by
  obtain ⟨parts, hparts, hwrite⟩ := bind_eq_ok_iff.1 h
  obtain rfl := parts_eq_ok hparts
  obtain ⟨hlocated, -, rfl⟩ := FileTree.write_eq_ok hwrite
  exact of_put hfit hparts hlocated hfree content

/-- What was looked at before an addition changes nothing about it. -/
theorem of_untouched (h : Untouched w w') (hadded : Added p content w' w'') :
    Added p content w w'' := by
  obtain ⟨hfit, hdirectory, hparts, hlocated, hfree, hfile, hothers⟩ := hadded
  rw [parts_congr h.directory] at hparts
  rw [placeOf_congr h.directory] at hlocated hfree hfile hothers
  rw [h.directory] at hparts hlocated hdirectory
  rw [h.tree] at hlocated hfree hothers
  exact ⟨hfit, hdirectory, hparts, hlocated, hfree, hfile, hothers⟩

/-- A file is added where no directory was. -/
theorem get?_ne_directory (h : Added p content w w') :
    w.tree.get? (w.placeOf p) ≠ some .directory := by
  simp [h.free]

/-- The next operation may leave the tree. -/
theorem next (h : Added p content w w') : Added p content w (w'.next w'.tree) :=
  ⟨h.fit, h.directory, h.parts, h.located, h.free, h.file, h.others⟩

/-- An addition keeps every directory. -/
theorem directories (h : Added p content w w') {place : List String}
    (hplace : w.tree.get? place = some .directory) : w'.tree.get? place = some .directory := by
  rw [h.others place, hplace]
  rintro rfl
  exact h.get?_ne_directory hplace

/-- The place of an added file is found after it as well. -/
theorem located_after (h : Added p content w w') :
    w'.tree.locate (w.directory.join p).parts = .ok (w.placeOf p) :=
  FileTree.locate_mono (fun _ => h.directories) h.located

/-- The path of an added file is read after it as before. -/
theorem parts_after (h : Added p content w w') :
    w'.parts p = .ok (w.directory.join p).parts := by
  rw [parts_congr h.directory, h.parts]

/-- An addition keeps a tree rooted. -/
theorem rooted (h : Added p content w w') (hroot : w.tree.Rooted) : w'.tree.Rooted := by
  have hput := hroot.put (hroot.parent_of_locate h.located h.get?_ne_directory)
    h.get?_ne_directory (.file content)
  apply hput.of_get?_eq
  intro place
  rw [FileTree.get?_put_of_ne_nil _ _ (FileTree.ne_nil_of_get? h.get?_ne_directory)]
  split
  · next hplace => rw [hplace, h.file]
  · next hplace => exact h.others place hplace

/-- Writing the added file again changes its content only. -/
theorem write (h : Added p content w w') {tree : FileTree}
    (hwrite : w'.treeAfterWrite p other = .ok tree) : Added p other w (w'.next tree) := by
  obtain ⟨parts, hparts, hwrite⟩ := bind_eq_ok_iff.1 hwrite
  obtain rfl : (w.directory.join p).parts = parts :=
    Except.ok.inj (h.parts_after.symm.trans hparts)
  obtain ⟨-, -, rfl⟩ := FileTree.write_eq_ok hwrite
  have hput := FileTree.get?_put_of_ne_nil w'.tree (.file other)
    (FileTree.ne_nil_of_get? h.get?_ne_directory)
  refine ⟨h.fit, h.directory, h.parts, h.located, h.free, ?_, fun place hplace => ?_⟩
  · exact (hput _).trans (if_pos rfl)
  · exact ((hput place).trans (if_neg hplace)).trans (h.others place hplace)

/-- Once the added file is taken away again, putting something leaves what it would have left
without it. -/
theorem get?_erase_put (h : Added p content w w') {place : List String} (hplace : place ≠ [])
    (node : FileNode) (there : List String) :
    ((w'.tree.erase (w.placeOf p)).put place node).get? there =
      (w.tree.put place node).get? there := by
  rw [FileTree.get?_put_of_ne_nil _ _ hplace, FileTree.get?_put_of_ne_nil _ _ hplace,
    FileTree.get?_erase_of_ne_nil _ (FileTree.ne_nil_of_get? h.get?_ne_directory)]
  by_cases hthere : there = w.placeOf p
  · rw [if_pos hthere, hthere, h.free]
  · rw [if_neg hthere, h.others there hthere]

/-- Removing the added file leaves everything as it was, unless that is refused. -/
theorem exec_remove (h : Added p content w w') :
    (w'.refusal?.isSome ∧ ∃ e, exec (FileAccess.remove p :
        ExceptT FileError (StateM Workspace) Unit) w' = (.error e, w'.next w'.tree)) ∨
      (w'.refusal? = none ∧ ∃ tree, exec (FileAccess.remove p :
        ExceptT FileError (StateM Workspace) Unit) w' = (.ok (), w'.next tree) ∧
          ∀ place, tree.get? place = w.tree.get? place) := by
  have hrun : exec (FileAccess.remove p : ExceptT FileError (StateM Workspace) Unit) w' =
    exec (change [p] fun w => return w.tree.remove (← w.parts p)) w' := rfl
  rw [hrun, change, exec_operate, findSome?_fault?_singleton, h.fit]
  cases w'.refusal? with
  | some refusal => exact .inl ⟨rfl, _, rfl⟩
  | none =>
      simp only [h.parts_after, ok_bind, pure_eq_ok]
      refine .inr ⟨trivial, _, rfl, fun place => ?_⟩
      simp only [FileTree.remove, h.located_after, h.file]
      rw [FileTree.get?_erase_of_ne_nil _ (FileTree.ne_nil_of_get? h.get?_ne_directory)]
      split
      · next hplace => rw [hplace, h.free]
      · next hplace => exact h.others place hplace

end Added

/-- What is found at a path that can be followed is what is at its place. -/
theorem exec_isPresent (hfit : p.fault? = none)
    (hparts : w.parts p = .ok (w.directory.join p).parts)
    (hlocated : w.tree.locate (w.directory.join p).parts = .ok (w.placeOf p)) {found : Bool}
    (h : exec (FileAccess.isPresent p : ExceptT FileError (StateM Workspace) Bool) w =
      (.ok found, w')) :
    found = (w.tree.get? (w.placeOf p)).isSome := by
  have hfind : w.tree.find? (w.directory.join p).parts = .ok (w.tree.get? (w.placeOf p)) := by
    rw [FileTree.find?, hlocated]
  rw [exec_isPresent_eq hfit, hparts, ok_bind, hfind] at h
  cases hrefusal : w.refusal? with
  | some refusal => simp [hrefusal] at h
  | none =>
      rw [hrefusal] at h
      cases h
      rfl

/-- A file that is written where nothing was found is added. -/
theorem added_of_isPresent {tree : FileTree} (hfit : p.fault? = none)
    (h : exec (FileAccess.isPresent p : ExceptT FileError (StateM Workspace) Bool) w =
      (.ok false, w'))
    (hwrite : w'.treeAfterWrite p content = .ok tree) : Added p content w (w'.next tree) := by
  have hsame : Untouched w w' := by
    have hsame := untouched_isPresent p w
    rwa [h] at hsame
  obtain ⟨parts, hparts, hput⟩ := bind_eq_ok_iff.1 hwrite
  obtain rfl := parts_eq_ok hparts
  obtain ⟨hlocated, -, -⟩ := FileTree.write_eq_ok hput
  rw [parts_congr hsame.directory, hsame.directory] at hparts
  have hplace : w'.placeOf p = w.placeOf p := placeOf_congr hsame.directory p
  rw [hsame.directory, hsame.tree] at hlocated
  have hfree : w.tree.get? (w.placeOf p) = none := by
    simpa using (exec_isPresent hfit hparts hlocated h).symm
  have hfree' : w'.tree.get? (w'.placeOf p) = none := by
    rw [hplace, hsame.tree, hfree]
  exact (Added.of_write hfit hfree' hwrite).of_untouched hsame

/-- Over any list of names that it tries, a temporary file is added under one of them or nothing
is touched. -/
theorem exec_newTemporary_of_names (directory : Path) (names : List String) (w : Workspace) :
    (∃ e w', exec (newTemporary directory names) w = (.error e, w') ∧ Untouched w w') ∨
      ∃ path w', exec (newTemporary directory names) w = (.ok path, w') ∧ Added path [] w w' := by
  induction names generalizing w with
  | nil => exact .inl ⟨_, w, rfl, .refl w⟩
  | cons name names ih =>
      rw [newTemporary, exec_tryCatch, exec_bind]
      obtain ⟨e, hrun⟩ | ⟨tree, hfit, hmake, hrun⟩ :=
        exec_change [directory.child name]
          (fun w => do w.tree.newFile (← w.parts (directory.child name))) w
      · simp only [hrun]
        split
        · have hnext : Untouched w (w.next w.tree) := ⟨rfl, rfl⟩
          obtain ⟨e, w', hrest, hsame⟩ | ⟨path, w', hrest, hadded⟩ := ih (w.next w.tree)
          · exact .inl ⟨e, w', hrest, hnext.trans _ _ _ hsame⟩
          · exact .inr ⟨path, w', hrest, hadded.of_untouched hnext⟩
        · exact .inl ⟨_, _, rfl, rfl, rfl⟩
      · simp only [hrun, exec_pure]
        rw [findSome?_fault?_singleton] at hfit
        exact .inr ⟨_, _, rfl, .of_newFile hfit hmake⟩

/-- Making a temporary file leaves everything as it is, or adds an empty file. -/
theorem exec_newTemporary (p : Path) (name : String) (w : Workspace) :
    (∃ e w', exec (FileAccess.newTemporary p name :
        ExceptT FileError (StateM Workspace) Path) w = (.error e, w') ∧ Untouched w w') ∨
      ∃ path w', exec (FileAccess.newTemporary p name :
        ExceptT FileError (StateM Workspace) Path) w = (.ok path, w') ∧ Added path [] w w' :=
  exec_newTemporary_of_names (w.directory.join p).collapse (w.temporaryNames name) w

/-! ## Replacing files -/

/-- The added file takes the place of the one that is replaced. -/
theorem replaced_of_move {path : Path} {tree : FileTree} (hroot : w.tree.Rooted)
    (hprepared : Prepared p.parent w w') (hadded : Added path content w' w'')
    (hmove : (do w''.tree.move (← w''.parts path) (← w''.parts p)) = .ok tree) :
    Replaced p content w (w''.next tree) := by
  obtain ⟨source, hsource, hmove⟩ := bind_eq_ok_iff.1 hmove
  obtain ⟨target, htarget, hmove⟩ := bind_eq_ok_iff.1 hmove
  obtain rfl := parts_eq_ok hsource
  obtain rfl := parts_eq_ok htarget
  obtain ⟨hlocated, hplace, found, hfound, rfl⟩ := FileTree.move_eq_ok hmove
  have hhere : w''.directory = w.directory := hadded.directory.trans hprepared.directory
  have hp : FileTree.placeOf (w''.directory.join p).parts = w.placeOf p := placeOf_congr hhere p
  have hpath : FileTree.placeOf (w''.directory.join path).parts = w'.placeOf path :=
    placeOf_congr hadded.directory path
  rw [hp] at hlocated hplace ⊢
  rw [hpath] at hfound ⊢
  obtain rfl : found = content := by
    rw [hadded.file] at hfound
    cases hfound
    rfl
  -- The directory that holds the replaced file was there before the other file was added.
  have hparent : w'.tree.get? (w.placeOf p).dropLast = some .directory := by
    have hparent := (hadded.rooted (hprepared.rooted hroot)).parent_of_locate hlocated hplace
    rw [← hadded.others _ _, hparent]
    intro heq
    rw [heq, hadded.file] at hparent
    simp at hparent
  exact .of_put hhere hroot hprepared hparent
    (fun hdirectory => hplace (hadded.directories hdirectory))
    (hadded.get?_erase_put (FileTree.ne_nil_of_get? hplace) _)

/-- Fills a file and moves it to the place of another. -/
def fill (path p : Path) (content : List UInt8) : ExceptT FileError (StateM Workspace) Unit := do
  FileAccess.write path content
  FileAccess.move path p

/-- Filling an added file and moving it replaces the other, or leaves it with something in it. -/
theorem exec_fill {path : Path} (content : List UInt8) (hroot : w.tree.Rooted)
    (hprepared : Prepared p.parent w w') (hadded : Added path [] w' w'') :
    (∃ e written w₁, exec (fill path p content) w'' = (.error e, w₁) ∧
        Added path written w' w₁) ∨
      ∃ w₁, exec (fill path p content) w'' = (.ok (), w₁) ∧ Replaced p content w w₁ := by
  have hwrite : (FileAccess.write path content : ExceptT FileError (StateM Workspace) Unit) =
    write path content := rfl
  have hmove : (FileAccess.move path p : ExceptT FileError (StateM Workspace) Unit) =
    change [path, p] (fun w => do w.tree.move (← w.parts path) (← w.parts p)) := rfl
  rw [fill, exec_bind, hwrite, hmove]
  obtain ⟨e, hrun⟩ | ⟨e, count, tree, hbroken, hrun⟩ | ⟨tree, -, hwritten, hrun⟩ :=
    exec_write path content w''
  · rw [hrun]
    exact .inl ⟨e, _, _, rfl, hadded.next⟩
  · rw [hrun]
    exact .inl ⟨e, _, _, rfl, hadded.write hbroken.left⟩
  · rw [hrun]
    have hfilled := hadded.write hwritten
    obtain ⟨e, hrun⟩ | ⟨moved, -, hmoved, hrun⟩ :=
      exec_change [path, p] (fun w => do w.tree.move (← w.parts path) (← w.parts p)) (w''.next tree)
    · simp only [hrun]
      exact .inl ⟨e, _, _, rfl, hfilled.next⟩
    · simp only [hrun]
      exact .inr ⟨_, rfl, replaced_of_move hroot hprepared hfilled hmoved⟩

/-- A file that is filled stays beside the one that it should replace: there are no bytes for the
text, or filling or moving it fails and then it is refused to be removed. -/
inductive Abandons (w : Workspace) (path p : Path) (text : String) : Prop where
  | unencoded (hbytes : Text.encode? text = none) : Abandons w path p text
  | unremoved {content : List UInt8} {e : FileError} {w' : Workspace}
    (hbytes : Text.encode? text = some content)
    (hfill : exec (fill path p content) w = (.error e, w')) (hrefused : w'.refusal?.isSome) :
    Abandons w path p text

/-- Fills a file with a text and moves it to the place of another, or removes it. -/
def deliver (path p : Path) (text : String) : ExceptT FileError (StateM Workspace) Unit :=
  match Text.encode? text with
  | none => throw ⟨.notEncodable, []⟩
  | some content =>
    tryCatch (fill path p content) fun e => do
      FileAccess.remove path
      throw e

/-- An added file is gone after a failure, or abandoned, or it replaces the other. -/
theorem exec_deliver {path : Path} (text : String) (hroot : w.tree.Rooted)
    (hprepared : Prepared p.parent w w') (hadded : Added path [] w' w'') :
    (∃ e w₁, exec (deliver path p text) w'' = (.error e, w₁) ∧ w₁.directory = w'.directory ∧
        ∀ place, w₁.tree.get? place = w'.tree.get? place) ∨
      (w''.Abandons path p text ∧ ∃ e written w₁,
        exec (deliver path p text) w'' = (.error e, w₁) ∧ Added path written w' w₁) ∨
      ∃ content w₁, Text.encode? text = some content ∧
        exec (deliver path p text) w'' = (.ok (), w₁) ∧ Replaced p content w w₁ := by
  rw [deliver]
  cases hbytes : Text.encode? text with
  | none => exact .inr (.inl ⟨.unencoded hbytes, _, _, _, rfl, hadded⟩)
  | some content =>
      simp only [exec_tryCatch]
      obtain ⟨e, written, w₁, hfill, hfilled⟩ | ⟨w₁, hfill, hreplaced⟩ :=
        exec_fill content hroot hprepared hadded
      · rw [hfill]
        simp only [exec_bind]
        obtain ⟨hrefused, e', hremove⟩ | ⟨-, tree, hremove, hcleared⟩ := hfilled.exec_remove
        · rw [hremove]
          exact .inr (.inl ⟨.unremoved hbytes hfill hrefused, e', _, _, rfl, hfilled.next⟩)
        · rw [hremove]
          exact .inl ⟨e, _, rfl, hfilled.directory, hcleared⟩
      · rw [hfill]
        exact .inr (.inr ⟨content, w₁, rfl, rfl, hreplaced⟩)

/-- An abandoned file does stay. -/
theorem Abandons.exec_deliver {path : Path} {text : String} (h : w''.Abandons path p text)
    (hroot : w.tree.Rooted) (hprepared : Prepared p.parent w w')
    (hadded : Added path [] w' w'') :
    ∃ e written w₁, exec (deliver path p text) w'' = (.error e, w₁) ∧
      Added path written w' w₁ := by
  cases h with
  | unencoded hbytes =>
      rw [deliver, hbytes]
      exact ⟨_, _, _, rfl, hadded⟩
  | @unremoved content e w₁ hbytes hfill hrefused =>
      rw [deliver, hbytes]
      simp only [exec_tryCatch, hfill, exec_bind]
      obtain ⟨e', written, w₂, hfill', hfilled⟩ | ⟨w₂, hfill', -⟩ :=
        exec_fill content hroot hprepared hadded
      · cases hfill.symm.trans hfill'
        obtain ⟨-, e', hremove⟩ | ⟨hgranted, -⟩ := hfilled.exec_remove
        · rw [hremove]
          exact ⟨e', _, _, rfl, hfilled.next⟩
        · simp [hgranted] at hrefused
      · cases hfill.symm.trans hfill'

/-- A replacement comes to a temporary file and abandons it. -/
def StrandsTemporary (w : Workspace) (p : Path) (text : String) : Prop :=
  ∃ w₁ path w₂,
    exec (FileAccess.makeDirectories p.parent :
      ExceptT FileError (StateM Workspace) Unit) w = (.ok (), w₁) ∧
    exec (FileAccess.newTemporary p.parent p.name :
      ExceptT FileError (StateM Workspace) Path) w₁ = (.ok path, w₂) ∧
    w₂.Abandons path p text

/-- There may be new directories on the way to a path, and there is one more file. -/
def Littered (p : Path) (w w' : Workspace) : Prop :=
  ∃ w₁ path written, Prepared p w w₁ ∧ Added path written w₁ w'

/-- Directories on the way are no file. -/
theorem Littered.not_prepared (h : Littered p w w') : ¬ Prepared p w w' := by
  obtain ⟨w₁, path, written, hprepared, hadded⟩ := h
  intro hdirectories
  have hfree : w.tree.get? (w₁.placeOf path) = none := by
    obtain hsame | ⟨hfree, -, -⟩ := hprepared.nodes (w₁.placeOf path)
    · rw [← hsame, hadded.free]
    · exact hfree
  obtain hsame | ⟨-, hdirectory, -⟩ := hdirectories.nodes (w₁.placeOf path)
  · rw [hadded.file, hfree] at hsame
    contradiction
  · rw [hadded.file] at hdirectory
    simp at hdirectory

theorem Littered.of_untouched (h : Untouched w w') (hlittered : Littered p w' w'') :
    Littered p w w'' := by
  obtain ⟨w₁, path, written, hprepared, hadded⟩ := hlittered
  exact ⟨w₁, path, written, (Prepared.of_untouched h).trans _ _ _ hprepared, hadded⟩

/-- Litter keeps a tree rooted. -/
theorem Littered.rooted (h : Littered p w w') (hroot : w.tree.Rooted) : w'.tree.Rooted := by
  obtain ⟨w₁, path, written, hprepared, hadded⟩ := h
  exact hadded.rooted (hprepared.rooted hroot)

/-- A replacement makes the directories, a temporary file beside the target, and delivers the text
by it. -/
theorem exec_replaceFile_eq (p : Path) (text : String) (w : Workspace) :
    exec (FileAccess.replaceFile p text) w =
      exec (do
        FileAccess.makeDirectories p.parent
        let path ← FileAccess.newTemporary p.parent p.name
        deliver path p text) w := rfl

/-- **Replacing a file is all or nothing**: after a failure nothing is new but directories on the
way to the file, unless a temporary file is abandoned. -/
theorem exec_replaceFile (p : Path) (text : String) {w : Workspace} (hroot : w.tree.Rooted) :
    (∃ e w', exec (FileAccess.replaceFile p text) w = (.error e, w') ∧ Prepared p.parent w w') ∨
      (∃ e w', w.StrandsTemporary p text ∧
        exec (FileAccess.replaceFile p text) w = (.error e, w') ∧ Littered p.parent w w') ∨
      ∃ content w', Text.encode? text = some content ∧
        exec (FileAccess.replaceFile p text) w = (.ok (), w') ∧ Replaced p content w w' := by
  rw [exec_replaceFile_eq, exec_bind]
  have hprepared := prepared_makeDirectories p.parent w
  rcases hmake : exec (FileAccess.makeDirectories p.parent :
    ExceptT FileError (StateM Workspace) Unit) w with ⟨e | _, w₁⟩
  · rw [hmake] at hprepared
    exact .inl ⟨e, w₁, rfl, hprepared⟩
  · rw [hmake] at hprepared
    simp only at hprepared ⊢
    rw [exec_bind]
    obtain ⟨e, w₂, hnew, hsame⟩ | ⟨path, w₂, hnew, hadded⟩ := exec_newTemporary p.parent p.name w₁
    · rw [hnew]
      exact .inl ⟨e, w₂, rfl, hprepared.trans _ _ _ (.of_untouched hsame)⟩
    · rw [hnew]
      obtain ⟨e, w₃, hrun, hdirectory, hcleared⟩ | ⟨habandons, e, written, w₃, hrun, hfilled⟩ |
        ⟨content, w₃, hbytes, hrun, hreplaced⟩ := exec_deliver text hroot hprepared hadded
      · exact .inl ⟨e, w₃, hrun, hprepared.congr hdirectory hcleared⟩
      · exact .inr (.inl ⟨e, w₃, ⟨w₁, path, w₂, hmake, hnew, habandons⟩, hrun,
          w₁, path, written, hprepared, hfilled⟩)
      · exact .inr (.inr ⟨content, w₃, hbytes, hrun, hreplaced⟩)

/-- A temporary file that is abandoned does stay. -/
theorem StrandsTemporary.exec_replaceFile {text : String} (h : w.StrandsTemporary p text)
    (hroot : w.tree.Rooted) :
    ∃ e w', exec (FileAccess.replaceFile p text) w = (.error e, w') ∧
      Littered p.parent w w' := by
  obtain ⟨w₁, path, w₂, hmake, hnew, habandons⟩ := h
  have hprepared := prepared_makeDirectories p.parent w
  rw [hmake] at hprepared
  rw [exec_replaceFile_eq, exec_bind, hmake]
  simp only [exec_bind, hnew]
  have hadded : Added path [] w₁ w₂ := by
    obtain ⟨_, _, hnew', -⟩ | ⟨_, _, hnew', hadded⟩ := exec_newTemporary p.parent p.name w₁
    · simp [hnew] at hnew'
    · rw [hnew] at hnew'
      cases hnew'
      exact hadded
  obtain ⟨e, written, w₃, hrun, hfilled⟩ := habandons.exec_deliver hroot hprepared hadded
  exact ⟨e, w₃, hrun, w₁, path, written, hprepared, hfilled⟩

end Workspace

end RpcBindings
