import RpcBindings.File.Tree
import RpcBindings.Proofs.Outcome

/-!
# RpcBindings.Proofs.File.Tree

What the operations do to a tree of files.  In a rooted tree everything is in a
directory.  A path that can be followed leads to the place that its names spell
out, whatever else is in the tree; a tree with more directories lets itself be
followed all the same.
-/

namespace RpcBindings

namespace FileTree

variable {tree tree' : FileTree} {part : String}
  {parts place other here there : List String} {content : List UInt8}

/-- The place that names from the root spell out. -/
def placeOf (parts : List String) : List String :=
  parts.foldl Path.follow []

/-! ## Rooted trees -/

/-- Everything below the root is in a directory. -/
def Rooted (tree : FileTree) : Prop :=
  ∀ place, place ≠ [] → tree.get? place ≠ none → tree.get? place.dropLast = some .directory

/-- The root is a directory in every tree. -/
@[simp] theorem get?_nil (tree : FileTree) : tree.get? [] = some .directory := rfl

/-- A place that holds something else than a directory is not the root. -/
theorem ne_nil_of_get? (h : tree.get? place ≠ some .directory) : place ≠ [] := by
  rintro rfl
  exact h rfl

/-- Putting a node somewhere changes what that place holds, and no other. -/
theorem get?_put_of_ne_nil (tree : FileTree) (node : FileNode) (hplace : place ≠ [])
    (other : List String) :
    (tree.put place node).get? other = if other = place then some node else tree.get? other := by
  by_cases h : other = []
  · subst h
    rw [if_neg (Ne.symm hplace)]
    rfl
  · exact get?_put tree place node other h

/-- Erasing a place leaves nothing there, and changes no other place. -/
theorem get?_erase_of_ne_nil (tree : FileTree) (hplace : place ≠ []) (other : List String) :
    (tree.erase place).get? other = if other = place then none else tree.get? other := by
  by_cases h : other = []
  · subst h
    rw [if_neg (Ne.symm hplace)]
    rfl
  · exact get?_erase tree place other h

/-- Whether a tree is rooted depends only on what is where. -/
theorem Rooted.of_get?_eq (h : tree.Rooted) (heq : ∀ place, tree'.get? place = tree.get? place) :
    tree'.Rooted := by
  intro place hplace hpresent
  rw [heq] at hpresent ⊢
  exact h place hplace hpresent

/-- A tree stays rooted when something is put in a directory, in the place of nothing or a file. -/
theorem Rooted.put (h : tree.Rooted) (hparent : tree.get? place.dropLast = some .directory)
    (hplace : tree.get? place ≠ some .directory) (node : FileNode) :
    (tree.put place node).Rooted := by
  have hne := ne_nil_of_get? hplace
  intro other hother hpresent
  rw [get?_put_of_ne_nil tree node hne] at hpresent ⊢
  by_cases heq : other = place
  · subst heq
    have hshort : other.dropLast ≠ other := by
      intro hsame
      have hlength := congrArg List.length hsame
      have hpos := List.length_pos_iff.2 hother
      rw [List.length_dropLast] at hlength
      omega
    rw [if_neg hshort]
    exact hparent
  · rw [if_neg heq] at hpresent
    have hdirectory := h other hother hpresent
    by_cases hdrop : other.dropLast = place
    · exact absurd (hdrop ▸ hdirectory) hplace
    · rw [if_neg hdrop]
      exact hdirectory

/-! ## Following paths -/

/-- A walk ends in a name when its last step does not lead up. -/
theorem endsInName_iff :
    endsInName parts = true ↔ ∃ front last, parts = front ++ [last] ∧ last ≠ ".." := by
  constructor
  · intro h
    unfold endsInName at h
    cases hlast : parts.getLast? with
    | none => simp [hlast] at h
    | some last =>
        obtain ⟨front, rfl⟩ := List.getLast?_eq_some_iff.1 hlast
        refine ⟨front, last, rfl, ?_⟩
        rintro rfl
        simp at h
  · rintro ⟨front, last, rfl, hlast⟩
    rw [endsInName, List.getLast?_concat]
    split <;> simp_all

variable [Encoding]

/-- Entering a directory leads to the place of its name below the current one. -/
theorem eq_of_enter (h : enter here part = .ok place) : place = here ++ [part] := by
  unfold enter at h
  split at h
  · contradiction
  · exact (Except.ok.inj h).symm

/-- One step of a walk goes up, or into a directory that exists. -/
theorem walk_cons_eq_ok_iff {rest : List String} :
    tree.walk here (part :: rest) = .ok there ↔
      (part = ".." ∧ tree.walk here.dropLast rest = .ok there) ∨
        (part ≠ ".." ∧ enter here part = .ok (here ++ [part]) ∧
          tree.get? (here ++ [part]) = some .directory ∧
          tree.walk (here ++ [part]) rest = .ok there) := by
  by_cases hpart : part = ".."
  · subst hpart
    simp [walk]
  · simp only [walk, hpart, bind_eq_ok_iff, ne_eq, not_false_eq_true, false_and, true_and, false_or]
    constructor
    · rintro ⟨place, henter, hrest⟩
      obtain rfl := eq_of_enter henter
      refine ⟨henter, ?_⟩
      split at hrest
      · contradiction
      · contradiction
      · next hdirectory => exact ⟨hdirectory, hrest⟩
    · rintro ⟨henter, hdirectory, hrest⟩
      refine ⟨_, henter, ?_⟩
      rw [hdirectory]
      exact hrest

/-- A path leads where its names say. -/
theorem eq_foldl_of_walk (h : tree.walk here parts = .ok there) :
    there = parts.foldl Path.follow here := by
  induction parts generalizing here with
  | nil =>
      rw [walk] at h
      exact (Except.ok.inj h).symm
  | cons part rest ih =>
      rw [List.foldl_cons]
      obtain ⟨hpart, hrest⟩ | ⟨hpart, -, -, hrest⟩ := walk_cons_eq_ok_iff.1 h
      · rw [ih hrest, hpart, Path.follow_up]
      · rw [ih hrest, Path.follow_of_ne hpart]

/-- In a rooted tree a path through directories leads to a directory. -/
theorem Rooted.walk_eq_directory (hroot : tree.Rooted) (hhere : tree.get? here = some .directory)
    (h : tree.walk here parts = .ok there) : tree.get? there = some .directory := by
  induction parts generalizing here with
  | nil =>
      rw [walk] at h
      rw [← Except.ok.inj h]
      exact hhere
  | cons part rest ih =>
      obtain ⟨-, hrest⟩ | ⟨-, -, hdirectory, hrest⟩ := walk_cons_eq_ok_iff.1 h
      · apply ih _ hrest
        by_cases hnil : here = []
        · rw [hnil]
          rfl
        · exact hroot here hnil (by simp [hhere])
      · exact ih hdirectory hrest

/-- A path can still be followed in a tree that has all the directories. -/
theorem walk_mono (hdirectories : ∀ place, tree.get? place = some .directory →
      tree'.get? place = some .directory) (h : tree.walk here parts = .ok there) :
    tree'.walk here parts = .ok there := by
  induction parts generalizing here with
  | nil => exact h
  | cons part rest ih =>
      obtain ⟨hpart, hrest⟩ | ⟨hpart, henter, hdirectory, hrest⟩ := walk_cons_eq_ok_iff.1 h
      · exact walk_cons_eq_ok_iff.2 (.inl ⟨hpart, ih hrest⟩)
      · exact walk_cons_eq_ok_iff.2
          (.inr ⟨hpart, henter, hdirectories _ hdirectory, ih hrest⟩)

/-- A place is located in a directory under a last name, or as a directory itself. -/
theorem locate_eq_ok_iff :
    tree.locate parts = .ok place ↔
      (endsInName parts = true ∧ ∃ here, tree.walk [] parts.dropLast = .ok here ∧
          enter here (parts.getLastD "") = .ok place) ∨
        (endsInName parts = false ∧ tree.walk [] parts = .ok place) := by
  unfold locate
  cases endsInName parts <;> simp [bind_eq_ok_iff]

/-- A tree with all the directories of another finds every place that the other finds. -/
theorem locate_mono (hdirectories : ∀ place, tree.get? place = some .directory →
      tree'.get? place = some .directory) (h : tree.locate parts = .ok place) :
    tree'.locate parts = .ok place := by
  rw [locate_eq_ok_iff] at h ⊢
  obtain ⟨hname, here, hwalk, henter⟩ | ⟨hname, hwalk⟩ := h
  · exact .inl ⟨hname, here, walk_mono hdirectories hwalk, henter⟩
  · exact .inr ⟨hname, walk_mono hdirectories hwalk⟩

/-- A place that is located is the one that the names spell out. -/
theorem eq_placeOf_of_locate (h : tree.locate parts = .ok place) : place = placeOf parts := by
  obtain ⟨hname, here, hwalk, henter⟩ | ⟨-, hwalk⟩ := locate_eq_ok_iff.1 h
  · obtain ⟨front, last, rfl, hlast⟩ := endsInName_iff.1 hname
    rw [List.dropLast_concat] at hwalk
    rw [List.getLastD_concat] at henter
    rw [placeOf, List.foldl_append, ← eq_foldl_of_walk hwalk, eq_of_enter henter,
      List.foldl_cons, Path.follow_of_ne hlast, List.foldl_nil]
  · exact eq_foldl_of_walk hwalk

/-- What is located and is no directory is in one. -/
theorem Rooted.parent_of_locate (hroot : tree.Rooted) (h : tree.locate parts = .ok place)
    (hplace : tree.get? place ≠ some .directory) :
    tree.get? place.dropLast = some .directory := by
  obtain ⟨-, here, hwalk, henter⟩ | ⟨-, hwalk⟩ := locate_eq_ok_iff.1 h
  · rw [eq_of_enter henter, List.dropLast_concat]
    exact hroot.walk_eq_directory (get?_nil tree) hwalk
  · exact absurd (hroot.walk_eq_directory (get?_nil tree) hwalk) hplace

/-! ## Operations -/

/-- A write that succeeds puts a file at the place of its path, where no directory was. -/
theorem write_eq_ok (h : tree.write parts content = .ok tree') :
    tree.locate parts = .ok (placeOf parts) ∧ tree.get? (placeOf parts) ≠ some .directory ∧
      tree' = tree.put (placeOf parts) (.file content) := by
  obtain ⟨place, hlocate, hwrite⟩ := bind_eq_ok_iff.1 h
  obtain rfl := eq_placeOf_of_locate hlocate
  split at hwrite
  · contradiction
  · next hplace => exact ⟨hlocate, hplace, (Except.ok.inj hwrite).symm⟩

/-- A directory is made where nothing was. -/
theorem makeDirectory_eq_ok (h : tree.makeDirectory parts = .ok tree') :
    tree.locate parts = .ok (placeOf parts) ∧ tree.get? (placeOf parts) = none ∧
      tree' = tree.put (placeOf parts) .directory := by
  obtain ⟨place, hlocate, hmake⟩ := bind_eq_ok_iff.1 h
  obtain rfl := eq_placeOf_of_locate hlocate
  split at hmake
  · contradiction
  · next hplace => exact ⟨hlocate, hplace, (Except.ok.inj hmake).symm⟩

/-- A new file is empty, and made where nothing was. -/
theorem newFile_eq_ok (h : tree.newFile parts = .ok tree') :
    tree.locate parts = .ok (placeOf parts) ∧ tree.get? (placeOf parts) = none ∧
      tree' = tree.put (placeOf parts) (.file []) := by
  obtain ⟨place, hlocate, hmake⟩ := bind_eq_ok_iff.1 h
  obtain rfl := eq_placeOf_of_locate hlocate
  split at hmake
  · contradiction
  · next hplace => exact ⟨hlocate, hplace, (Except.ok.inj hmake).symm⟩

/-- A move takes the file off its place and puts its content at the target. -/
theorem move_eq_ok {source target : List String} (h : tree.move source target = .ok tree') :
    tree.locate target = .ok (placeOf target) ∧
      tree.get? (placeOf target) ≠ some .directory ∧
      ∃ content, tree.get? (placeOf source) = some (.file content) ∧
        tree' = (tree.erase (placeOf source)).put (placeOf target) (.file content) := by
  obtain ⟨origin, horigin, h⟩ := bind_eq_ok_iff.1 h
  obtain ⟨place, hlocate, h⟩ := bind_eq_ok_iff.1 h
  obtain rfl := eq_placeOf_of_locate horigin
  obtain rfl := eq_placeOf_of_locate hlocate
  split at h
  · contradiction
  · split at h
    · contradiction
    · next content hsource hplace =>
      exact ⟨hlocate, hplace, content, hsource, (Except.ok.inj h).symm⟩
    · contradiction
    · contradiction

end FileTree

end RpcBindings
