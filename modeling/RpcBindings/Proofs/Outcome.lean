import Mathlib.Data.List.Forall2
import RpcBindings.Noted

/-!
# RpcBindings.Proofs.Outcome

Outcomes taken apart: what it says of the steps of a computation that the
whole of it succeeds, and with which errors the whole of it can fail when its
steps fail with certain errors only (`FailsOnly`).
-/

namespace RpcBindings

variable {ε δ α β γ : Type}

/-- A chain succeeds when each of its two steps does. -/
theorem bind_eq_ok_iff {x : Except ε α} {f : α → Except ε β} {b : β} :
    (x >>= f) = .ok b ↔ ∃ a, x = .ok a ∧ f a = .ok b := by
  cases x with
  | error e => simp [bind, Except.bind]
  | ok a => simp [bind, Except.bind]

/-- What does not succeed fails. -/
theorem exists_eq_error_iff {x : Except ε α} : (∃ e, x = .error e) ↔ ¬ ∃ a, x = .ok a := by
  cases x <;> simp

/-- It fails as the first of its steps that fails. -/
theorem bind_eq_error_iff {x : Except ε α} {f : α → Except ε β} {e : ε} :
    (x >>= f) = .error e ↔ x = .error e ∨ ∃ a, x = .ok a ∧ f a = .error e := by
  cases x with
  | error e' => simp [bind, Except.bind]
  | ok a => simp [bind, Except.bind]

@[simp] theorem pure_eq_ok (a : α) : (pure a : Except ε α) = .ok a := rfl

@[simp] theorem ok_bind (a : α) (f : α → Except ε β) : ((.ok a : Except ε α) >>= f) = f a := rfl

@[simp] theorem error_bind (e : ε) (f : α → Except ε β) :
    ((.error e : Except ε α) >>= f) = .error e := rfl

/-- A mapped outcome is a result exactly where the outcome is one that maps to it. -/
theorem map_eq_ok_iff {x : Except ε α} {f : α → β} {b : β} :
    x.map f = .ok b ↔ ∃ a, x = .ok a ∧ f a = b := by
  cases x with
  | error e => simp [Except.map]
  | ok a => simp [Except.map]

/-- Mapping the result changes no error. -/
theorem map_eq_error_iff {x : Except ε α} {f : α → β} {e : ε} :
    x.map f = .error e ↔ x = .error e := by
  cases x with
  | error e => simp [Except.map]
  | ok a => simp [Except.map]

/-- What is changed after a chain is changed after its last step. -/
theorem map_bind {x : Except ε α} {f : α → Except ε β} (g : β → γ) :
    (x >>= f).map g = x >>= fun a => (f a).map g := by
  cases x <;> rfl

/-- What follows a mapped outcome may map the result itself. -/
theorem bind_map {x : Except ε α} {f : β → Except ε γ} (g : α → β) :
    x.map g >>= f = x >>= fun a => f (g a) := by
  cases x <;> rfl

/-- Mapping the result and mapping the error commute. -/
theorem mapError_map {x : Except ε α} (f : ε → δ) (g : α → β) :
    (x.map g).mapError f = (x.mapError f).map g := by
  cases x <;> rfl

/-- Two continuations that agree after a map give outcomes that agree after it. -/
theorem map_bind_congr_right {x : Except ε α} {f f' : α → Except ε β} {g : β → γ}
    (h : ∀ a, (f a).map g = (f' a).map g) : (x >>= f).map g = (x >>= f').map g := by
  rw [map_bind, map_bind]
  simp only [h]

/-- Chains whose steps come to the same, up to what `g` and `h` make of their results. -/
theorem map_bind_congr {ζ : Type} {x : Except ε α} {y : Except ε β} {f : α → Except ε δ}
    {f' : β → Except ε δ} (g : α → γ) (g' : β → γ) (h : δ → ζ) (hxy : x.map g = y.map g')
    (hf : ∀ a b, g a = g' b → (f a).map h = (f' b).map h) :
    (x >>= f).map h = (y >>= f').map h := by
  cases x with
  | error e =>
      cases y with
      | error e' =>
          obtain rfl : e = e' := Except.error.inj hxy
          rfl
      | ok b => contradiction
  | ok a =>
      cases y with
      | error e' => contradiction
      | ok b => exact hf a b (Except.ok.inj hxy)

/-- What fails with another error succeeds all the same. -/
theorem mapError_eq_ok_iff {x : Except ε α} {f : ε → δ} {a : α} :
    x.mapError f = .ok a ↔ x = .ok a := by
  cases x with
  | error e => simp [Except.mapError]
  | ok a => simp [Except.mapError]

/-- The error of an outcome with mapped errors is the image of the error it had. -/
theorem mapError_eq_error_iff {x : Except ε α} {f : ε → δ} {e : δ} :
    x.mapError f = .error e ↔ ∃ e', x = .error e' ∧ f e' = e := by
  cases x with
  | error e' => simp [Except.mapError]
  | ok a => simp [Except.mapError]

/-- Going through a list succeeds with the results of its members in order. -/
theorem mapM_eq_ok_iff {f : α → Except ε β} {xs : List α} {ys : List β} :
    xs.mapM f = .ok ys ↔ List.Forall₂ (fun x y => f x = .ok y) xs ys := by
  induction xs generalizing ys with
  | nil =>
      simp only [List.mapM_nil, pure_eq_ok, Except.ok.injEq, List.forall₂_nil_left_iff]
      exact eq_comm
  | cons x rest ih =>
      rw [List.mapM_cons]
      simp only [bind_eq_ok_iff, pure_eq_ok, Except.ok.injEq, List.forall₂_cons_left_iff]
      constructor
      · rintro ⟨y, hy, more, hmore, rfl⟩
        exact ⟨y, more, hy, ih.1 hmore, rfl⟩
      · rintro ⟨y, more, hy, hmore, rfl⟩
        exact ⟨y, hy, more, ih.2 hmore, rfl⟩

/-- It succeeds just where it does for every member. -/
theorem mapM_isOk_iff {f : α → Except ε β} {xs : List α} :
    (∃ ys, xs.mapM f = .ok ys) ↔ ∀ x ∈ xs, ∃ y, f x = .ok y := by
  induction xs with
  | nil => simp
  | cons x rest ih =>
      rw [List.forall_mem_cons, ← ih, List.mapM_cons]
      simp only [bind_eq_ok_iff, pure_eq_ok, Except.ok.injEq]
      constructor
      · rintro ⟨_, y, hy, more, hmore, -⟩
        exact ⟨⟨y, hy⟩, more, hmore⟩
      · rintro ⟨⟨y, hy⟩, more, hmore⟩
        exact ⟨_, y, hy, more, hmore, rfl⟩

/-- Going through a list fails as the first of its members that fails. -/
theorem mapM_eq_error_iff {f : α → Except ε β} {xs : List α} {e : ε} :
    xs.mapM f = .error e ↔
      ∃ before x after, xs = before ++ x :: after ∧ (∀ y ∈ before, ∃ b, f y = .ok b) ∧
        f x = .error e := by
  induction xs with
  | nil => simp
  | cons first rest ih =>
      simp only [List.mapM_cons, bind_eq_error_iff, pure_eq_ok, reduceCtorEq, and_false,
        exists_false, or_false, ih]
      constructor
      · rintro (hfirst | ⟨b, hb, before, x, after, rfl, hbefore, hx⟩)
        · exact ⟨[], first, rest, rfl, by simp, hfirst⟩
        · exact ⟨first :: before, x, after, rfl, List.forall_mem_cons.2 ⟨⟨b, hb⟩, hbefore⟩, hx⟩
      · rintro ⟨_ | ⟨y, before⟩, x, after, heq, hbefore, hx⟩
        · obtain ⟨rfl, rfl⟩ := List.cons.inj heq
          exact .inl hx
        · obtain ⟨rfl, rfl⟩ := List.cons.inj heq
          obtain ⟨⟨b, hb⟩, hbefore⟩ := List.forall_mem_cons.1 hbefore
          exact .inr ⟨b, hb, before, x, after, rfl, hbefore, hx⟩

/-- A map over each result of a pass over a list is a map over the list of results. -/
theorem mapM_map {f : α → Except ε β} {xs : List α} (g : β → γ) :
    xs.mapM (fun x => (f x).map g) = (xs.mapM f).map (List.map g) := by
  induction xs with
  | nil => rfl
  | cons x rest ih =>
      rw [List.mapM_cons, List.mapM_cons, ih]
      cases f x <;> cases rest.mapM f <;> rfl

/-- Going through a list comes to what its members come to. -/
theorem mapM_congr_mem {f g : α → Except ε β} {xs : List α} (h : ∀ x ∈ xs, f x = g x) :
    xs.mapM f = xs.mapM g := by
  induction xs with
  | nil => rfl
  | cons x rest ih =>
      rw [List.forall_mem_cons] at h
      rw [List.mapM_cons, List.mapM_cons, h.1, ih h.2]

/-- Going through a list succeeds if it does for every member. -/
theorem mapM_isOk {f : α → Except ε β} {xs : List α} (h : ∀ x ∈ xs, ∃ y, f x = .ok y) :
    ∃ ys, xs.mapM f = .ok ys :=
  mapM_isOk_iff.2 h

/-- Of two lists that are related member by member, a member of the second is
related to one of the first. -/
theorem exists_left_of_forall₂ {R : α → β → Prop} {xs : List α} {ys : List β} {y : β}
    (h : List.Forall₂ R xs ys) (hy : y ∈ ys) : ∃ x ∈ xs, R x y := by
  induction h with
  | nil => simp at hy
  | cons hfirst _ ih =>
      obtain rfl | hy := List.mem_cons.1 hy
      · exact ⟨_, List.mem_cons_self, hfirst⟩
      · obtain ⟨x, hx, hxy⟩ := ih hy
        exact ⟨x, List.mem_cons_of_mem _ hx, hxy⟩

/-- And a member of the first is related to one of the second. -/
theorem exists_right_of_forall₂ {R : α → β → Prop} {xs : List α} {ys : List β} {x : α}
    (h : List.Forall₂ R xs ys) (hx : x ∈ xs) : ∃ y ∈ ys, R x y :=
  exists_left_of_forall₂ h.flip hx

/-- It is related to the one in its place. -/
theorem exists_mem_zip_of_forall₂ {R : α → β → Prop} {xs : List α} {ys : List β} {x : α}
    (h : List.Forall₂ R xs ys) (hx : x ∈ xs) : ∃ y, (x, y) ∈ xs.zip ys ∧ R x y := by
  induction h with
  | nil => simp at hx
  | cons hfirst _ ih =>
      obtain rfl | hx := List.mem_cons.1 hx
      · exact ⟨_, List.mem_cons_self, hfirst⟩
      · obtain ⟨y, hy, hxy⟩ := ih hx
        exact ⟨y, List.mem_cons_of_mem _ hy, hxy⟩

/-- What related members have in common holds of all members of both lists or of neither
list. -/
theorem forall_mem_iff_of_forall₂ {R : α → β → Prop} {P : α → Prop} {Q : β → Prop} {xs : List α}
    {ys : List β} (h : List.Forall₂ R xs ys) (hiff : ∀ x y, R x y → (P x ↔ Q y)) :
    (∀ x ∈ xs, P x) ↔ ∀ y ∈ ys, Q y := by
  induction h with
  | nil => simp
  | cons hfirst _ ih => rw [List.forall_mem_cons, List.forall_mem_cons, hiff _ _ hfirst, ih]

/-- Lists whose members in turn become the same become the same. -/
theorem flatMap_eq_of_forall₂ {R : α → β → Prop} {xs : List α} {ys : List β} {f : α → List γ}
    {g : β → List γ} (h : List.Forall₂ R xs ys) (heq : ∀ x y, R x y → f x = g y) :
    xs.flatMap f = ys.flatMap g := by
  induction h with
  | nil => rfl
  | cons hfirst _ ih => rw [List.flatMap_cons, List.flatMap_cons, heq _ _ hfirst, ih]

/-- Going through lists whose members in turn have the same results gives the same results. -/
theorem mapM_eq_ok_iff_of_forall₂ {R : α → β → Prop} {f : α → Except ε γ} {g : β → Except ε γ}
    {xs : List α} {ys : List β} {zs : List γ} (h : List.Forall₂ R xs ys)
    (heq : ∀ x y, R x y → ∀ z, f x = .ok z ↔ g y = .ok z) :
    xs.mapM f = .ok zs ↔ ys.mapM g = .ok zs := by
  rw [mapM_eq_ok_iff, mapM_eq_ok_iff]
  induction h generalizing zs with
  | nil => simp only [List.forall₂_nil_left_iff]
  | cons hfirst _ ih => simp only [List.forall₂_cons_left_iff, heq _ _ hfirst, ih]

/-- A result comes from some member of the list. -/
theorem exists_of_mem_mapM {f : α → Except ε β} {xs : List α} {ys : List β} {y : β}
    (h : xs.mapM f = .ok ys) (hy : y ∈ ys) : ∃ x ∈ xs, f x = .ok y :=
  exists_left_of_forall₂ (R := fun x y => f x = .ok y) (mapM_eq_ok_iff.1 h) hy

/-- Every member of the list has its result. -/
theorem exists_result_of_mapM {f : α → Except ε β} {xs : List α} {ys : List β} {x : α}
    (h : xs.mapM f = .ok ys) (hx : x ∈ xs) : ∃ y ∈ ys, f x = .ok y :=
  exists_right_of_forall₂ (R := fun x y => f x = .ok y) (mapM_eq_ok_iff.1 h) hx

/-- Where no two members have one result, results repeat just where members do. -/
theorem nodup_iff_of_mapM {f : α → Except ε β} {xs : List α} {ys : List β}
    (h : xs.mapM f = .ok ys)
    (hinj : ∀ x ∈ xs, ∀ x' ∈ xs, ∀ y, f x = .ok y → f x' = .ok y → x = x') :
    ys.Nodup ↔ xs.Nodup := by
  rw [mapM_eq_ok_iff] at h
  induction h with
  | nil => simp
  | @cons x y xs ys hfirst hrest ih =>
      have hmem : y ∈ ys ↔ x ∈ xs := by
        constructor
        · intro hy
          obtain ⟨x', hx', heq⟩ := exists_of_mem_mapM (mapM_eq_ok_iff.2 hrest) hy
          have heq' := hinj x List.mem_cons_self x' (List.mem_cons_of_mem _ hx') y hfirst heq
          rw [heq']
          exact hx'
        · intro hx
          obtain ⟨y', hy', heq⟩ := exists_result_of_mapM (mapM_eq_ok_iff.2 hrest) hx
          rw [Except.ok.inj (hfirst.symm.trans heq)]
          exact hy'
      rw [List.nodup_cons, List.nodup_cons, hmem, ih]
      intro x hx x' hx'
      exact hinj x (List.mem_cons_of_mem _ hx) x' (List.mem_cons_of_mem _ hx')

/-! ## Errors -/

/-- Whatever error the outcome is, it is one of these. -/
def FailsOnly (P : ε → Prop) (x : Except ε α) : Prop :=
  ∀ e, x = .error e → P e

namespace FailsOnly

variable {P Q : ε → Prop} {x : Except ε α}

theorem ok (a : α) : FailsOnly P (.ok a : Except ε α) := by
  intro e h
  contradiction

theorem error {e : ε} (h : P e) : FailsOnly P (.error e : Except ε α) := by
  intro e' heq
  exact Except.error.inj heq ▸ h

/-- What gives a result fails with nothing. -/
theorem of_isOk (h : ∃ a, x = .ok a) : FailsOnly P x := by
  obtain ⟨a, rfl⟩ := h
  exact .ok a

/-- What may fail with no error at all gives a result. -/
theorem isOk (h : FailsOnly (fun _ => False) x) : ∃ a, x = .ok a := by
  cases x with
  | error e => exact (h e rfl).elim
  | ok a => exact ⟨a, rfl⟩

/-- What fails with errors of one kind only fails with one of them unless it succeeds. -/
theorem exists_error_iff {f : δ → ε} (h : FailsOnly (fun e => ∃ d, e = f d) x) :
    (∃ d, x = .error (f d)) ↔ ¬ ∃ a, x = .ok a := by
  rw [← exists_eq_error_iff]
  constructor
  · rintro ⟨d, hd⟩
    exact ⟨f d, hd⟩
  · rintro ⟨e, he⟩
    obtain ⟨d, rfl⟩ := h e he
    exact ⟨d, he⟩

/-- The errors may be described more widely. -/
theorem mono (h : FailsOnly P x) (hPQ : ∀ e, P e → Q e) : FailsOnly Q x :=
  fun e he => hPQ e (h e he)

/-- The second step counts only for what the first gives. -/
theorem bind {f : α → Except ε β} (hx : FailsOnly P x)
    (hf : ∀ a, x = .ok a → FailsOnly P (f a)) : FailsOnly P (x >>= f) := by
  cases x with
  | error e => exact .error (hx e rfl)
  | ok a => exact hf a rfl

/-- The errors of an outcome with mapped errors are images. -/
theorem mapError {f : ε → δ} {R : δ → Prop} (h : FailsOnly (fun e => R (f e)) x) :
    FailsOnly R (x.mapError f) := by
  cases x with
  | error e => exact .error (h e rfl)
  | ok a => exact .ok a

theorem map {f : α → β} (h : FailsOnly P x) : FailsOnly P (x.map f) := by
  cases x with
  | error e => exact .error (h e rfl)
  | ok a => exact .ok (f a)

/-- A pass over a list fails only as its steps do. -/
theorem mapM {f : α → Except ε β} {xs : List α} (h : ∀ x ∈ xs, FailsOnly P (f x)) :
    FailsOnly P (xs.mapM f) := by
  induction xs with
  | nil => exact .ok []
  | cons x rest ih =>
      rw [List.forall_mem_cons] at h
      rw [List.mapM_cons]
      exact h.1.bind fun y _ => (ih h.2).bind fun ys _ => .ok (y :: ys)

theorem forM {f : α → Except ε PUnit} {xs : List α} (h : ∀ x ∈ xs, FailsOnly P (f x)) :
    FailsOnly P (xs.forM f) := by
  induction xs with
  | nil => exact .ok _
  | cons x rest ih =>
      rw [List.forall_mem_cons] at h
      exact h.1.bind fun _ _ => ih h.2

end FailsOnly

end RpcBindings
