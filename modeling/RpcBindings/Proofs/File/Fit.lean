import RpcBindings.Proofs.File.Access
import RpcBindings.Proofs.File.Path
import RpcBindings.Proofs.Outcome

/-!
# RpcBindings.Proofs.File.Fit

Which paths can be handed to the system, and where operations fail because that is
not possible.  A file system has no fault of its own for it; an operation fails with
one that is not of the system only where one of its paths is unfit, and replacing a
file only where the path of that file is, or where there are no bytes for its text
(`minds_replaceFile`).
-/

namespace RpcBindings

/-! ## Texts -/

/-- A text with a character that no name of a file can have. -/
def Text.Unfit [Encoding] (s : String) : Prop :=
  ∃ c ∈ s.toList, c = '\x00' ∨ Encoding.nameSize? c = none

/-- A concatenation is unfit exactly where one of its halves is. -/
theorem Text.unfit_append [Encoding] {s t : String} :
    Text.Unfit (s ++ t) ↔ Text.Unfit s ∨ Text.Unfit t := by
  unfold Text.Unfit
  rw [String.toList_append]
  simp only [List.mem_append]
  grind

/-- The characters of ASCII can be in names, but for the first. -/
theorem Text.not_unfit_of_ascii [Encoding] {s : String}
    (h : s.toList.all fun c => c ≠ '\x00' ∧ c.toNat < 0x80) : ¬ Text.Unfit s := by
  simp only [List.all_eq_true, decide_eq_true_eq] at h
  rintro ⟨c, hc, rfl | hnone⟩
  · exact (h _ hc).1 rfl
  · rw [Encoding.nameSize?_ascii c (h c hc).2] at hnone
    contradiction

/-! ## Trees -/

namespace FileTree

variable [Encoding]

/-- What can be in the way of a path. -/
def IsInTheWay (fault : FileFault) : Prop :=
  fault = .notFound ∨ fault = .notDirectory ∨ fault = .nameTooLong

/-- Entering a directory fails only where something is in the way. -/
theorem failsOnly_enter (here : List String) (part : String) :
    FailsOnly IsInTheWay (enter here part) := by
  unfold enter
  split
  · exact .error (.inr (.inr rfl))
  · exact .ok _

theorem failsOnly_walk (tree : FileTree) (here parts : List String) :
    FailsOnly IsInTheWay (tree.walk here parts) := by
  induction here, parts using walk.induct with
  | case1 here => exact .ok here
  | case2 here rest ih =>
      rw [walk]
      exact ih
  | case3 here part rest hpart ih =>
      rw [walk]
      · refine (failsOnly_enter here part).bind fun place _ => ?_
        split
        · exact .error (.inl rfl)
        · exact .error (.inr (.inl rfl))
        · exact ih place
      · exact hpart

/-- Finding a place fails only where something is in the way. -/
theorem failsOnly_locate (tree : FileTree) (parts : List String) :
    FailsOnly IsInTheWay (tree.locate parts) := by
  unfold locate
  split
  · exact (failsOnly_walk tree _ _).bind fun here _ => failsOnly_enter here _
  · exact failsOnly_walk tree _ _

/-- Nothing but a long name keeps from looking for a file. -/
theorem failsOnly_find? (tree : FileTree) (parts : List String) :
    FailsOnly (fun fault => fault = .nameTooLong) (tree.find? parts) := by
  have hlocate := failsOnly_locate tree parts
  unfold find?
  split
  · exact .ok _
  · exact .ok _
  · exact .ok _
  · next fault hother hother' hfault =>
    refine .error ?_
    obtain rfl | rfl | rfl := hlocate fault hfault
    · exact absurd rfl hother
    · exact absurd rfl hother'
    · rfl

/-- A computation whose faults are those of the system. -/
abbrev FailsOfSystem {α : Type} (x : Except FileFault α) : Prop :=
  FailsOnly (fun fault => fault.isOfSystem = true) x

theorem failsOfSystem_locate (tree : FileTree) (parts : List String) :
    FailsOfSystem (tree.locate parts) := by
  refine (failsOnly_locate tree parts).mono ?_
  rintro fault (rfl | rfl | rfl)
  all_goals rfl

theorem failsOfSystem_find? (tree : FileTree) (parts : List String) :
    FailsOfSystem (tree.find? parts) := by
  refine (failsOnly_find? tree parts).mono ?_
  rintro fault rfl
  rfl

theorem failsOfSystem_write (tree : FileTree) (parts : List String) (content : List UInt8) :
    FailsOfSystem (tree.write parts content) := by
  refine (failsOfSystem_locate tree parts).bind fun place _ => ?_
  split
  · exact .error rfl
  · exact .ok _

theorem failsOfSystem_makeDirectory (tree : FileTree) (parts : List String) :
    FailsOfSystem (tree.makeDirectory parts) := by
  refine (failsOfSystem_locate tree parts).bind fun place _ => ?_
  split
  · exact .error rfl
  · exact .ok _

theorem failsOfSystem_newFile (tree : FileTree) (parts : List String) :
    FailsOfSystem (tree.newFile parts) := by
  refine (failsOfSystem_locate tree parts).bind fun place _ => ?_
  split
  · exact .error rfl
  · exact .ok _

theorem failsOfSystem_move (tree : FileTree) (source target : List String) :
    FailsOfSystem (tree.move source target) := by
  refine (failsOfSystem_locate tree source).bind fun origin _ => ?_
  refine (failsOfSystem_locate tree target).bind fun place _ => ?_
  split
  · exact .error rfl
  · split
    · exact .error rfl
    · exact .ok _
    · exact .error rfl
    · exact .error rfl

end FileTree

/-! ## Paths -/

namespace Path

variable [Encoding] {p q : Path} {name s : String} {fault : FileFault}

/-- A path is fit for the system if each of its names is. -/
theorem fault?_eq_none_iff : p.fault? = none ↔ ∀ part ∈ p.parts, ¬ Text.Unfit part := by
  have hbytes : p.parts.all Text.hasNameBytes = true ↔
      ∀ part ∈ p.parts, ∀ c ∈ part.toList, Encoding.nameSize? c ≠ none := by
    simp [Text.hasNameBytes, Option.isSome_iff_ne_none]
  have hnull : (p.parts.any (·.toList.contains '\x00')) = false ↔
      ∀ part ∈ p.parts, '\x00' ∉ part.toList := by
    simp
  have hsplit : p.fault? = none ↔ p.parts.all Text.hasNameBytes = true ∧
      (p.parts.any (·.toList.contains '\x00')) = false := by
    unfold fault?
    cases p.parts.all Text.hasNameBytes <;> cases p.parts.any (·.toList.contains '\x00') <;> simp
  rw [hsplit, hbytes, hnull]
  unfold Text.Unfit
  grind

/-- A path is at fault exactly where one of its parts is a text that the system cannot take. -/
theorem fault?_isSome_iff : p.fault?.isSome ↔ ∃ part ∈ p.parts, Text.Unfit part := by
  rw [← not_iff_not, Option.not_isSome_iff_eq_none, fault?_eq_none_iff]
  simp

/-- What is wrong with an unfit path is no fault of the system. -/
theorem not_isOfSystem_of_fault? (h : p.fault? = some fault) : fault.isOfSystem = false := by
  unfold fault? at h
  split at h
  · cases h
    rfl
  · split at h
    · cases h
      rfl
    · contradiction

/-- A path that holds all the parts of one at fault is at fault. -/
theorem fault?_isSome_of_subset (h : p.parts ⊆ q.parts) (hunfit : p.fault?.isSome) :
    q.fault?.isSome := by
  rw [fault?_isSome_iff] at hunfit ⊢
  obtain ⟨part, hpart, hunfit⟩ := hunfit
  exact ⟨part, h hpart, hunfit⟩

/-- A path is at fault where its directory is. -/
theorem fault?_isSome_of_parent (h : p.parent.fault?.isSome) : p.fault?.isSome :=
  fault?_isSome_of_subset (List.dropLast_subset p.parts) h

/-- A path is at fault where its last name is unfit. -/
theorem fault?_isSome_of_name (h : Text.Unfit p.name) : p.fault?.isSome := by
  rw [fault?_isSome_iff]
  refine ⟨p.name, ?_, h⟩
  unfold Path.name at h ⊢
  cases hparts : p.parts with
  | nil => simp [hparts, Text.Unfit] at h
  | cons part rest =>
      rw [List.getLastD_eq_getLast?, List.getLast?_eq_some_getLast (by simp), Option.getD_some]
      exact List.getLast_mem _

/-- An entry is at fault only by its directory or by its name. -/
theorem unfit_of_child (h : (p.child name).fault?.isSome) :
    p.fault?.isSome ∨ Text.Unfit name := by
  simp only [fault?_isSome_iff, child, List.mem_append, List.mem_singleton] at h ⊢
  grind

/-- A joined path is at fault only by one of the two it was joined from. -/
theorem unfit_of_join (h : (p.join q).fault?.isSome) : p.fault?.isSome ∨ q.fault?.isSome := by
  unfold join at h
  split at h
  · exact .inr h
  · simp only [fault?_isSome_iff, List.mem_append] at h ⊢
    grind

/-- Collapsing the steps up brings in no fault. -/
theorem fault?_isSome_of_collapse (h : p.collapse.fault?.isSome) : p.fault?.isSome := by
  refine fault?_isSome_of_subset ?_ h
  have hsubset := foldl_follow_subset [] p.parts
  rwa [List.nil_append] at hsubset

/-- A relative path keeps the faults of both where it is joined to another. -/
theorem fault?_join_isSome_iff (hq : q.isAbsolute = false) :
    (p.join q).fault?.isSome ↔ p.fault?.isSome ∨ q.fault?.isSome := by
  simp only [fault?_isSome_iff, join_of_relative hq, List.mem_append]
  grind

/-- The path of a text is unfit just where the text is. -/
theorem fault?_ofString_isSome_iff : (ofString s).fault?.isSome ↔ Text.Unfit s := by
  rw [fault?_isSome_iff]
  constructor
  · rintro ⟨part, hpart, c, hc, hunfit⟩
    exact ⟨c, (Text.infix_of_mem_split (List.mem_filter.1 hpart).1).subset hc, hunfit⟩
  · rintro ⟨c, hc, hunfit⟩
    rw [← Text.intercalate_splitChars '/' s.toList] at hc
    have hother (t : String) (ht : t.toList.all fun c => c ≠ '\x00' ∧ c.toNat < 0x80) :
        c ∉ t.toList := fun hmem => Text.not_unfit_of_ascii ht ⟨c, hmem, hunfit⟩
    obtain hslash | ⟨part, hpart, hmem⟩ := Text.mem_intercalate hc
    · exact absurd hslash (hother "/" (by decide))
    · have hne (t : String) (ht : t.toList.all fun c => c ≠ '\x00' ∧ c.toNat < 0x80) :
          String.ofList part ≠ t := by
        rintro rfl
        exact hother (String.ofList part) ht (by simpa using hmem)
      refine ⟨String.ofList part, List.mem_filter.2 ⟨List.mem_map_of_mem hpart, ?_⟩,
        c, by simpa using hmem, hunfit⟩
      simp [isStep, hne "" (by decide), hne "." (by decide)]

end Path

/-! ## Workspaces -/

namespace Workspace

variable [Encoding]

/-- A workspace whose own names can be handed to the system. -/
structure IsOrdinary (w : Workspace) : Prop where
  directory : w.directory.fault? = none
  temporaryParts : ∀ part ∈ w.temporaryParts, ¬ Text.Unfit part

variable {α β : Type} {P : Prop} {Q : α → Prop} {R : β → Prop} {w : Workspace}

/-- An ordinary workspace stays one after every operation. -/
theorem IsOrdinary.next (h : w.IsOrdinary) (tree : FileTree) : (w.next tree).IsOrdinary :=
  ⟨h.directory, h.temporaryParts⟩

/-- In ordinary workspaces a computation fails with faults that are not of the system only if `P`
holds, and what it gives has the property `Q`. -/
def Minds (P : Prop) (Q : α → Prop) (x : ExceptT FileError (StateM Workspace) α) : Prop :=
  ∀ w : Workspace, w.IsOrdinary → (exec x w).2.IsOrdinary ∧
    (∀ a, (exec x w).1 = .ok a → Q a) ∧
      ∀ e, (exec x w).1 = .error e → e.fault.isOfSystem = false → P

theorem minds_pure {a : α} (h : Q a) :
    Minds P Q (pure a : ExceptT FileError (StateM Workspace) α) := by
  intro w hw
  refine ⟨hw, ?_, by simp⟩
  intro a' heq
  cases heq
  exact h

/-- Raising an error is allowed where it is one of the system or the fault is there. -/
theorem minds_throw {e : FileError} (h : e.fault.isOfSystem = false → P) :
    Minds P Q (throw e : ExceptT FileError (StateM Workspace) α) := by
  intro w hw
  refine ⟨hw, by simp, ?_⟩
  intro e' heq
  cases heq
  exact h

variable {x : ExceptT FileError (StateM Workspace) α}

theorem Minds.bind (hx : Minds P Q x) {f : α → ExceptT FileError (StateM Workspace) β}
    (hf : ∀ a, Q a → Minds P R (f a)) : Minds P R (x >>= f) := by
  intro w hw
  obtain ⟨hordinary, hok, herror⟩ := hx w hw
  rw [exec_bind]
  generalize exec x w = run at hordinary hok herror ⊢
  obtain ⟨e | a, w'⟩ := run
  · refine ⟨hordinary, by simp, ?_⟩
    intro e' heq
    cases heq
    exact herror e rfl
  · exact hf a (hok a rfl) w' hordinary

theorem Minds.tryCatch (hx : Minds P Q x)
    {handle : FileError → ExceptT FileError (StateM Workspace) α}
    (hhandle : ∀ e, (e.fault.isOfSystem = false → P) → Minds P Q (handle e)) :
    Minds P Q (tryCatch x handle) := by
  intro w hw
  obtain ⟨hordinary, hok, herror⟩ := hx w hw
  rw [exec_tryCatch]
  generalize exec x w = run at hordinary hok herror ⊢
  obtain ⟨e | a, w'⟩ := run
  · exact hhandle e (herror e rfl) w' hordinary
  · exact ⟨hordinary, hok, by simp⟩

theorem failsOfSystem_parts (w : Workspace) (p : Path) : FileTree.FailsOfSystem (w.parts p) := by
  unfold Workspace.parts
  split
  · exact .error rfl
  · exact .ok _

/-- An operation with faults of the system fails with another one for an unfit path. -/
theorem minds_operate {paths : List Path} {operation : Workspace → Except FileFault (α × FileTree)}
    {broken : Workspace → Refusal → FileTree} (hpaths : ∀ p ∈ paths, p.fault?.isSome → P)
    (h : ∀ w, FileTree.FailsOfSystem (operation w)) :
    Minds P (fun _ => True) (operate paths operation broken) := by
  intro w hw
  rw [exec_operate]
  cases hunfit : paths.findSome? Path.fault? with
  | some fault =>
      obtain ⟨p, hp, hfault⟩ := List.exists_of_findSome?_eq_some hunfit
      exact ⟨hw.next _, by simp, fun _ _ _ => hpaths p hp (Option.isSome_of_mem hfault)⟩
  | none =>
      cases hrefusal : w.refusal? with
      | some refusal =>
          refine ⟨hw.next _, by simp, ?_⟩
          intro e heq hother
          cases heq
          simp [refusal.isOfSystem] at hother
      | none =>
          have hoperation := h w
          cases hrun : operation w with
          | ok result => exact ⟨hw.next _, by simp, by simp⟩
          | error fault =>
              refine ⟨hw.next _, by simp, ?_⟩
              intro e heq hother
              cases heq
              simp [hoperation fault hrun] at hother

section

variable {p : Path} (hp : p.fault?.isSome → P)

include hp

/-- Looking at one path fails outside the system only where that path is at fault. -/
theorem minds_inspect {operation : FileTree → List String → Except FileFault α}
    (h : ∀ tree parts, FileTree.FailsOfSystem (operation tree parts)) :
    Minds P (fun _ => True) (inspect p operation) := by
  refine minds_operate (by simpa using hp) fun w => ?_
  exact (failsOfSystem_parts w p).bind fun parts _ => (h w.tree parts).bind fun _ _ => .ok _

theorem minds_change {operation : Workspace → List String → Except FileFault FileTree}
    (h : ∀ w parts, FileTree.FailsOfSystem (operation w parts)) :
    Minds P (fun _ => True) (change [p] fun w => do operation w (← w.parts p)) := by
  refine minds_operate (by simpa using hp) fun w => ?_
  exact ((failsOfSystem_parts w p).bind fun parts _ => h w parts).bind fun _ _ => .ok _

theorem minds_find? : Minds P (fun _ => True) (find? p) := by
  unfold find?
  split
  · exact minds_pure trivial
  · exact minds_inspect hp FileTree.failsOfSystem_find?

theorem minds_isPresent :
    Minds P (fun _ => True)
      (FileAccess.isPresent p : ExceptT FileError (StateM Workspace) Bool) :=
  (minds_find? hp).bind fun _ _ => minds_pure trivial

theorem minds_isDirectory :
    Minds P (fun _ => True)
      (FileAccess.isDirectory p : ExceptT FileError (StateM Workspace) Bool) :=
  (minds_find? hp).bind fun _ _ => minds_pure trivial

theorem minds_write (content : List UInt8) :
    Minds P (fun _ => True) (write p content) := by
  refine minds_operate (by simpa using hp) fun w => ?_
  have htree : FileTree.FailsOfSystem (w.treeAfterWrite p content) :=
    (failsOfSystem_parts w p).bind fun parts _ => FileTree.failsOfSystem_write w.tree parts content
  exact htree.bind fun _ _ => .ok _

theorem minds_makeDirectory :
    Minds P (fun _ => True)
      (FileAccess.makeDirectory p : ExceptT FileError (StateM Workspace) Unit) :=
  minds_change hp fun w parts => FileTree.failsOfSystem_makeDirectory w.tree parts

/-- Accepting a directory passes the error on or looks at the path. -/
theorem minds_acceptDirectory {e : FileError} (he : e.fault.isOfSystem = false → P) :
    Minds P (fun _ => True)
      (FileAccess.acceptDirectory p e : ExceptT FileError (StateM Workspace) Unit) := by
  refine (minds_isDirectory hp).bind fun found _ => ?_
  cases found with
  | true => exact minds_pure trivial
  | false => exact minds_throw he

theorem minds_remove :
    Minds P (fun _ => True)
      (FileAccess.remove p : ExceptT FileError (StateM Workspace) Unit) :=
  minds_change hp fun w parts => .ok (w.tree.remove parts)

theorem minds_move {source : Path} (hsource : source.fault?.isSome → P) :
    Minds P (fun _ => True)
      (FileAccess.move source p : ExceptT FileError (StateM Workspace) Unit) := by
  refine minds_operate (by simpa using ⟨hsource, hp⟩) fun w => ?_
  have hmove : FileTree.FailsOfSystem
      (w.parts source >>= fun origin => w.parts p >>= fun place => w.tree.move origin place) :=
    (failsOfSystem_parts w source).bind fun origin _ => (failsOfSystem_parts w p).bind
      fun place _ => FileTree.failsOfSystem_move w.tree origin place
  exact hmove.bind fun _ _ => .ok _

end

/-- Making a directory with its parents hands no other paths to the system than beginnings of its
path. -/
theorem minds_makeDirectories (p : Path) (hp : p.fault?.isSome → P) :
    Minds P (fun _ => True)
      (FileAccess.makeDirectories p : ExceptT FileError (StateM Workspace) Unit) := by
  induction hlength : p.parts.length using Nat.strongRecOn generalizing p with
  | _ length ih =>
      rw [FileAccess.makeDirectories]
      refine (minds_makeDirectory hp).tryCatch fun e he => ?_
      split
      · split
        · exact minds_throw he
        · next hparts =>
          have hlt := Path.parent_parts_length_lt hparts
          have hparent := ih _ (hlength ▸ hlt) p.parent
            (fun h => hp (Path.fault?_isSome_of_parent h)) rfl
          refine hparent.bind fun _ _ => ?_
          refine (minds_makeDirectory hp).tryCatch fun e he => ?_
          split
          · exact minds_throw he
          · exact minds_acceptDirectory hp he
      · exact minds_acceptDirectory hp he

/-- A new file under one of some names is at a path that can be handed to the system. -/
theorem minds_newTemporary_of_names {directory : Path} (hdirectory : directory.fault?.isSome → P)
    {names : List String} (hnames : ∀ name ∈ names, Text.Unfit name → P) :
    Minds P (fun path => path.fault?.isSome → P) (newTemporary directory names) := by
  induction names with
  | nil => exact minds_throw fun h => by contradiction
  | cons name names ih =>
      rw [List.forall_mem_cons] at hnames
      have hpath : (directory.child name).fault?.isSome → P := fun h =>
        (Path.unfit_of_child h).elim hdirectory hnames.1
      rw [newTemporary]
      refine Minds.tryCatch ?_ fun e he => ?_
      · have hmake := minds_change hpath
          fun w parts => FileTree.failsOfSystem_newFile w.tree parts
        exact hmake.bind fun _ _ => minds_pure hpath
      · split
        · exact ih hnames.2
        · exact minds_throw he

/-- A temporary file fails outside the system only by its directory or by the name it stands
beside, and its path is at fault only so. -/
theorem minds_newTemporary {p : Path} {name : String} (hp : p.fault?.isSome → P)
    (hname : Text.Unfit name → P) :
    Minds P (fun path => path.fault?.isSome → P)
      (FileAccess.newTemporary p name : ExceptT FileError (StateM Workspace) Path) := by
  intro w hw
  have hdirectory : (w.directory.join p).collapse.fault?.isSome → P := by
    intro h
    obtain hhere | hunfit := Path.unfit_of_join (Path.fault?_isSome_of_collapse h)
    · simp [hw.directory] at hhere
    · exact hp hunfit
  have hnames : ∀ temporary ∈ w.temporaryNames name, Text.Unfit temporary → P := by
    intro temporary hmem hunfit
    obtain ⟨part, hpart, rfl⟩ := List.mem_map.1 hmem
    have hpoint : ¬ Text.Unfit "." := Text.not_unfit_of_ascii (by decide)
    have hending : ¬ Text.Unfit ".tmp" := Text.not_unfit_of_ascii (by decide)
    apply hname
    simpa [toString, Text.unfit_append, hpoint, hending, hw.temporaryParts part hpart] using hunfit
  exact minds_newTemporary_of_names hdirectory hnames w hw

/-- **Replacing a file fails with the system** unless the path of the file is unfit or there are no
bytes for the text. -/
theorem minds_replaceFile (p : Path) (text : String) :
    Minds (p.fault?.isSome ∨ Text.encode? text = none) (fun _ => True)
      (FileAccess.replaceFile p text : ExceptT FileError (StateM Workspace) Unit) := by
  have hparent : p.parent.fault?.isSome → p.fault?.isSome ∨ Text.encode? text = none :=
    fun h => .inl (Path.fault?_isSome_of_parent h)
  refine (minds_makeDirectories p.parent hparent).bind fun _ _ => ?_
  refine (minds_newTemporary hparent fun h => .inl (Path.fault?_isSome_of_name h)).bind
    fun temporary htemporary => ?_
  split
  · next hbytes => exact minds_throw fun _ => .inr hbytes
  · next content _ =>
    refine Minds.tryCatch ?_ fun e he => ?_
    · exact (minds_write htemporary content).bind fun _ _ => minds_move .inl htemporary
    · exact (minds_remove htemporary).bind fun _ _ => minds_throw he

end Workspace

end RpcBindings
