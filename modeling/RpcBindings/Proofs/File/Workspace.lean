import RpcBindings.Proofs.File.Tree

/-!
# RpcBindings.Proofs.File.Workspace

Running operations in a workspace.  `exec` gives the outcome of a computation
together with the workspace that it leaves, also when it fails.  A relation that
every operation respects is respected by all that is built from them, whichever
way it ends (`Always`); so a computation made of reading operations leaves the
tree as it is.
-/

namespace RpcBindings

namespace Workspace

variable {ε δ α β : Type}

/-! ## Running -/

/-- The outcome of a computation and the workspace that it leaves. -/
def exec (x : ExceptT ε (StateM Workspace) α) (w : Workspace) : Except ε α × Workspace :=
  Id.run (x.run.run w)

@[simp] theorem exec_pure (a : α) (w : Workspace) :
    exec (pure a : ExceptT ε (StateM Workspace) α) w = (.ok a, w) := rfl

@[simp] theorem exec_throw (e : ε) (w : Workspace) :
    exec (throw e : ExceptT ε (StateM Workspace) α) w = (.error e, w) := rfl

/-- A sequence runs its second part on the workspace that the first one left. -/
theorem exec_bind (x : ExceptT ε (StateM Workspace) α) (f : α → ExceptT ε (StateM Workspace) β)
    (w : Workspace) :
    exec (x >>= f) w =
      match exec x w with
      | (.ok a, w') => exec (f a) w'
      | (.error e, w') => (.error e, w') := by
  rcases hx : exec x w with ⟨_ | a, w'⟩
  · simp only [exec, ExceptT.run_bind, StateT.run_bind, Id.run_bind] at hx ⊢
    rw [hx]
    rfl
  · simp only [exec, ExceptT.run_bind, StateT.run_bind, Id.run_bind] at hx ⊢
    rw [hx]

/-- A handler runs on the workspace that the failed computation left. -/
theorem exec_tryCatch (x : ExceptT ε (StateM Workspace) α)
    (handle : ε → ExceptT ε (StateM Workspace) α) (w : Workspace) :
    exec (tryCatch x handle) w =
      match exec x w with
      | (.ok a, w') => (.ok a, w')
      | (.error e, w') => exec (handle e) w' := by
  have hrun : (tryCatch x handle).run = x.run >>= fun
      | .ok a => pure (.ok a)
      | .error e => (handle e).run := rfl
  rcases hx : exec x w with ⟨_ | a, w'⟩
  · simp only [exec, hrun, StateT.run_bind, Id.run_bind] at hx ⊢
    rw [hx]
  · simp only [exec, hrun, StateT.run_bind, Id.run_bind] at hx ⊢
    rw [hx]
    rfl

/-- Renaming the errors changes nothing about the workspace. -/
theorem exec_adapt (f : ε → δ) (x : ExceptT ε (StateM Workspace) α) (w : Workspace) :
    exec (ExceptT.adapt f x) w = ((exec x w).1.mapError f, (exec x w).2) := rfl

/-! ## What holds whichever way a run ends -/

/-- The workspaces before and after a run are related, whether it fails or not. -/
def Always (R : Workspace → Workspace → Prop) (x : ExceptT ε (StateM Workspace) α) : Prop :=
  ∀ w, R w (exec x w).2

variable {R : Workspace → Workspace → Prop} {x : ExceptT ε (StateM Workspace) α}

/-- A wider relation between the workspaces holds as well. -/
theorem Always.mono {S : Workspace → Workspace → Prop} (h : Always R x)
    (hle : ∀ w w', R w w' → S w w') : Always S x :=
  fun w => hle w _ (h w)

/-- Giving a value leaves the workspace as it is. -/
theorem always_pure (hrefl : ∀ w, R w w) (a : α) :
    Always R (pure a : ExceptT ε (StateM Workspace) α) :=
  hrefl

/-- Raising an error leaves the workspace as it is. -/
theorem always_throw (hrefl : ∀ w, R w w) (e : ε) :
    Always R (throw e : ExceptT ε (StateM Workspace) α) :=
  hrefl

/-- A transitive relation that holds of two computations holds of their sequence. -/
theorem Always.bind (htrans : ∀ w w' w'', R w w' → R w' w'' → R w w'') (hx : Always R x)
    {f : α → ExceptT ε (StateM Workspace) β} (hf : ∀ a, Always R (f a)) : Always R (x >>= f) := by
  intro w
  have hfirst := hx w
  rw [exec_bind]
  generalize exec x w = run at hfirst ⊢
  obtain ⟨_ | a, w'⟩ := run
  · exact hfirst
  · exact htrans _ _ _ hfirst (hf a w')

/-- A transitive relation that holds of a computation and its handler holds of both together. -/
theorem Always.tryCatch (htrans : ∀ w w' w'', R w w' → R w' w'' → R w w'') (hx : Always R x)
    {handle : ε → ExceptT ε (StateM Workspace) α} (hhandle : ∀ e, Always R (handle e)) :
    Always R (tryCatch x handle) := by
  intro w
  have hfirst := hx w
  rw [exec_tryCatch]
  generalize exec x w = run at hfirst ⊢
  obtain ⟨e | a, w'⟩ := run
  · exact htrans _ _ _ hfirst (hhandle e w')
  · exact hfirst

/-- Renaming the errors keeps every relation between the workspaces. -/
theorem Always.adapt (hx : Always R x) (f : ε → δ) : Always R (ExceptT.adapt f x) := hx

/-- Nothing was changed between two workspaces. -/
structure Untouched (w w' : Workspace) : Prop where
  tree : w'.tree = w.tree
  directory : w'.directory = w.directory

theorem Untouched.refl (w : Workspace) : Untouched w w := ⟨rfl, rfl⟩

theorem Untouched.trans (w w' w'' : Workspace) (h : Untouched w w') (h' : Untouched w' w'') :
    Untouched w w'' :=
  ⟨h'.tree.trans h.tree, h'.directory.trans h.directory⟩

/-! ## Operations -/

variable [Encoding]

theorem findSome?_fault?_singleton (p : Path) : [p].findSome? Path.fault? = p.fault? := by
  simp only [List.findSome?]
  cases p.fault? <;> rfl

/-- A call of the file system answers with the fault of its paths, the refusal of the system or
the operation, in this order. -/
theorem exec_operate (paths : List Path) (operation : Workspace → Except FileFault (α × FileTree))
    (broken : Workspace → Refusal → FileTree) (w : Workspace) :
    exec (operate paths operation broken) w =
      match paths.findSome? Path.fault?, w.refusal? with
      | some fault, _ => (.error ⟨fault, paths.map Path.text⟩, w.next w.tree)
      | none, some refusal =>
        (.error ⟨refusal.fault, paths.map Path.text⟩, w.next (broken w refusal))
      | none, none =>
        match operation w with
        | .ok (a, tree) => (.ok a, w.next tree)
        | .error fault => (.error ⟨fault, paths.map Path.text⟩, w.next w.tree) := by
  unfold operate exec
  rfl

/-- A change fails and leaves the tree, or leaves the tree that its operation gives. -/
theorem exec_change (paths : List Path) (operation : Workspace → Except FileFault FileTree)
    (w : Workspace) :
    (∃ e, exec (change paths operation) w = (.error e, w.next w.tree)) ∨
      ∃ tree, paths.findSome? Path.fault? = none ∧ operation w = .ok tree ∧
        exec (change paths operation) w = (.ok (), w.next tree) := by
  rw [change, exec_operate]
  cases paths.findSome? Path.fault? with
  | some fault => exact .inl ⟨_, rfl⟩
  | none =>
      cases w.refusal? with
      | some refusal => exact .inl ⟨_, rfl⟩
      | none =>
          cases operation w with
          | error fault => exact .inl ⟨_, rfl⟩
          | ok tree => exact .inr ⟨tree, rfl, rfl, rfl⟩

/-- A write that is refused in the middle, and the beginning of the content that it leaves. -/
structure BreaksOff (w : Workspace) (p : Path) (content : List UInt8) (count : Nat)
    (tree : FileTree) : Prop where
  fit : p.fault? = none
  refused : w.refusal?.bind Refusal.written = some count
  left : w.treeAfterWrite p (content.take count) = .ok tree

/-- A write fails and leaves the tree, is broken off, or leaves the tree of its operation. -/
theorem exec_write (p : Path) (content : List UInt8) (w : Workspace) :
    (∃ e, exec (write p content) w = (.error e, w.next w.tree)) ∨
      (∃ e count tree, w.BreaksOff p content count tree ∧
        exec (write p content) w = (.error e, w.next tree)) ∨
      ∃ tree, p.fault? = none ∧ w.treeAfterWrite p content = .ok tree ∧
        exec (write p content) w = (.ok (), w.next tree) := by
  rw [write, exec_operate, findSome?_fault?_singleton]
  cases hfit : p.fault? with
  | some fault => exact .inl ⟨_, rfl⟩
  | none =>
      cases hrefusal : w.refusal? with
      | some refusal =>
          cases hwritten : refusal.written with
          | none =>
              simp only [hwritten]
              exact .inl ⟨_, rfl⟩
          | some count =>
              simp only [hwritten]
              cases hbroken : w.treeAfterWrite p (content.take count) with
              | error fault => exact .inl ⟨_, rfl⟩
              | ok tree =>
                  refine .inr (.inl ⟨_, count, tree, ⟨hfit, ?_, hbroken⟩, rfl⟩)
                  rw [hrefusal]
                  exact hwritten
      | none =>
          cases hoperation : w.treeAfterWrite p content with
          | error fault => exact .inl ⟨_, rfl⟩
          | ok tree => exact .inr (.inr ⟨tree, rfl, rfl, rfl⟩)

/-- A write to a path that the system cannot take leaves the tree alone. -/
theorem exec_write_of_fault {p : Path} {fault : FileFault} (hfault : p.fault? = some fault)
    (content : List UInt8) (w : Workspace) :
    exec (write p content) w = (.error ⟨fault, [p.text]⟩, w.next w.tree) := by
  rw [write, exec_operate, findSome?_fault?_singleton, hfault]
  rfl

/-- A write that breaks off fails and leaves the tree with what it wrote so far. -/
theorem BreaksOff.exec_write {p : Path} {content : List UInt8} {w : Workspace} {count : Nat}
    {tree : FileTree} (h : w.BreaksOff p content count tree) :
    ∃ e, exec (write p content) w = (.error e, w.next tree) := by
  obtain ⟨refusal, hrefusal, hwritten⟩ := Option.bind_eq_some_iff.1 h.refused
  rw [write, exec_operate, findSome?_fault?_singleton, h.fit, hrefusal]
  simp only [hwritten, h.left]
  exact ⟨_, rfl⟩

/-- Reading leaves the tree. -/
theorem exec_inspect (p : Path) (operation : FileTree → List String → Except FileFault α)
    (w : Workspace) : (exec (inspect p operation) w).2 = w.next w.tree := by
  rw [inspect, exec_operate, findSome?_fault?_singleton]
  cases p.fault? with
  | some fault => rfl
  | none =>
      cases w.refusal? with
      | some refusal => rfl
      | none =>
          cases hparts : w.parts p with
          | error fault => rfl
          | ok parts => cases hoperation : operation w.tree parts <;> simp [hoperation]

/-! ## Reading -/

/-- There is nothing at a path that cannot be handed to the system. -/
theorem exec_isPresent_of_fault {w : Workspace} {p : Path} (hfault : p.fault?.isSome) :
    exec (FileAccess.isPresent p : ExceptT FileError (StateM Workspace) Bool) w =
      (.ok false, w) := by
  show exec (do return (← find? p).isSome) w = _
  rw [find?, hfault]
  rfl

/-- What is found at a path that can be handed to the system. -/
theorem exec_isPresent_eq {w : Workspace} {p : Path} (hfit : p.fault? = none) :
    (exec (FileAccess.isPresent p : ExceptT FileError (StateM Workspace) Bool) w) =
      match w.refusal? with
      | some refusal => (.error ⟨refusal.fault, [p.text]⟩, w.next w.tree)
      | none =>
        match w.parts p >>= w.tree.find? with
        | .ok node => (.ok node.isSome, w.next w.tree)
        | .error fault => (.error ⟨fault, [p.text]⟩, w.next w.tree) := by
  have hrun : exec (FileAccess.isPresent p : ExceptT FileError (StateM Workspace) Bool) w =
      exec (do return (← inspect p FileTree.find?).isSome) w := by
    show exec (do return (← find? p).isSome) w = _
    rw [find?, hfit]
    rfl
  rw [hrun, exec_bind, inspect, exec_operate, findSome?_fault?_singleton, hfit]
  cases w.refusal? with
  | some refusal => rfl
  | none =>
      cases hparts : w.parts p with
      | error fault => rfl
      | ok parts => cases hfind : w.tree.find? parts <;> simp [hfind]

/-- Looking at a tree changes nothing in it. -/
theorem untouched_inspect (p : Path) (operation : FileTree → List String → Except FileFault α) :
    Always Untouched (inspect p operation) := by
  intro w
  rw [exec_inspect]
  exact ⟨rfl, rfl⟩

theorem untouched_find? (p : Path) : Always Untouched (find? p) := by
  unfold find?
  split
  · exact always_pure Untouched.refl none
  · exact untouched_inspect p FileTree.find?

theorem untouched_isPresent (p : Path) :
    Always Untouched (FileAccess.isPresent p : ExceptT FileError (StateM Workspace) Bool) :=
  (untouched_find? p).bind Untouched.trans fun _ => always_pure Untouched.refl _

theorem untouched_isDirectory (p : Path) :
    Always Untouched (FileAccess.isDirectory p : ExceptT FileError (StateM Workspace) Bool) :=
  (untouched_find? p).bind Untouched.trans fun _ => always_pure Untouched.refl _

theorem untouched_read (p : Path) :
    Always Untouched (FileAccess.read p : ExceptT FileError (StateM Workspace) (List UInt8)) :=
  untouched_inspect p FileTree.read

end Workspace

end RpcBindings
