import Mathlib.Logic.Relation
import RpcBindings.Proofs.File.Path

/-!
# RpcBindings.Proofs.File.Normal

Normal forms of paths.  Two rules leave fewer names of a path: a name goes together
with the `..` behind it, and a `..` at the root goes by itself (`Shortens`).  In whatever
order the rules are used, they end with the names that following the path one by one
gives (`reduces_iff`).  So a path that is resolved is in a normal
form, which stays as it is when it is resolved again or printed and read
(`IsNormal.resolve_eq`, `ofString_text`), and resolving in two turns is resolving in
one (`resolve_resolve`).
-/

namespace RpcBindings

namespace Path

variable {p q : Path} {place names shorter : List String} {name : String}

/-! ## Names that are taken back -/

/-- One step from names at the root to fewer names for the same place. -/
inductive Shortens : List String → List String → Prop where
  /-- A name goes together with the `..` behind it. -/
  | back (front : List String) {name : String} (h : name ≠ "..") (rest : List String) :
      Shortens (front ++ name :: ".." :: rest) (front ++ rest)
  /-- Above the root is the root. -/
  | top (rest : List String) : Shortens (".." :: rest) rest

/-- Any number of such steps. -/
def Reduces : List String → List String → Prop := Relation.ReflTransGen Shortens

/-- The first `..` stands at the root, or behind a name that is none. -/
theorem shortens_up (h : ".." ∉ place) (rest : List String) :
    Shortens (place ++ ".." :: rest) (place.dropLast ++ rest) := by
  obtain rfl | ⟨front, last, rfl⟩ := List.eq_nil_or_concat' place
  · exact .top rest
  · have hlast : last ≠ ".." := by
      rintro rfl
      simp at h
    rw [List.dropLast_concat, List.append_assoc]
    exact .back front hlast rest

/-- A step leaves the place that the names lead to. -/
theorem Shortens.foldl_follow (h : Shortens names shorter) :
    names.foldl follow [] = shorter.foldl follow [] := by
  cases h with
  | back front hname rest =>
      rw [List.foldl_append, List.foldl_append, List.foldl_cons, List.foldl_cons,
        follow_of_ne hname, follow_up, List.dropLast_concat]
  | top rest => rfl

/-- Names that reduce to others lead to the same place. -/
theorem Reduces.foldl_follow (h : Reduces names shorter) :
    names.foldl follow [] = shorter.foldl follow [] := by
  induction h with
  | refl => rfl
  | tail _ hstep ih => exact ih.trans hstep.foldl_follow

/-- A step leaves no `..` in a place that has none. -/
theorem notMem_follow (h : ".." ∉ place) (name : String) : ".." ∉ follow place name := by
  by_cases hname : name = ".."
  · rw [hname, follow_up]
    exact fun hmem => h (List.mem_of_mem_dropLast hmem)
  · rw [follow_of_ne hname]
    simp [h, Ne.symm hname]

/-- Following names from a place without `..` ends in one without. -/
theorem notMem_foldl_follow (h : ".." ∉ place) (names : List String) :
    ".." ∉ names.foldl follow place := by
  induction names generalizing place with
  | nil => exact h
  | cons name rest ih => exact ih (notMem_follow h name)

/-- Names without `..` lead on one behind the other. -/
theorem foldl_follow_of_notMem (h : ".." ∉ names) (place : List String) :
    names.foldl follow place = place ++ names := by
  induction names generalizing place with
  | nil => simp
  | cons name rest ih =>
      rw [List.mem_cons, not_or] at h
      rw [List.foldl_cons, follow_of_ne (Ne.symm h.1), ih h.2, List.append_assoc,
        List.singleton_append]

/-- Following names is reducing them, from a place to which no `..` leads. -/
theorem reduces_foldl_follow (h : ".." ∉ place) (names : List String) :
    Reduces (place ++ names) (names.foldl follow place) := by
  induction names generalizing place with
  | nil =>
      rw [List.append_nil]
      exact .refl
  | cons name rest ih =>
      have hrest := ih (notMem_follow h name)
      rw [List.foldl_cons]
      by_cases hname : name = ".."
      · subst hname
        rw [follow_up] at hrest ⊢
        exact .head (shortens_up h rest) hrest
      · rw [follow_of_ne hname] at hrest ⊢
        rwa [List.append_assoc, List.singleton_append] at hrest

/-- **Names have one shortest form**, whatever goes first: the place that they lead to. -/
theorem reduces_iff : Reduces names shorter ∧ ".." ∉ shorter ↔ names.foldl follow [] = shorter := by
  constructor
  · rintro ⟨hreduces, hshorter⟩
    rw [hreduces.foldl_follow, foldl_follow_of_notMem hshorter, List.nil_append]
  · rintro rfl
    exact ⟨reduces_foldl_follow List.not_mem_nil names, notMem_foldl_follow List.not_mem_nil names⟩

/-! ## Normal forms -/

/-- A path from the root by names each of which leads on: none is empty, a point or two points. -/
structure IsNormal (p : Path) : Prop where
  root : p.start = .root
  proper : p.IsProper
  forward : ".." ∉ p.parts

/-- A normal path is absolute. -/
theorem IsNormal.isAbsolute (h : p.IsNormal) : p.isAbsolute = true := by
  rw [Path.isAbsolute, h.root]
  rfl

/-- The text of a normal path is its parts, each behind a slash. -/
theorem IsNormal.text_eq (h : p.IsNormal) : p.text = "/" ++ "/".intercalate p.parts := by
  rw [text, h.root]
  rfl

/-- Every resolved path is normal. -/
theorem isNormal_resolve (hp : p.IsProper) (hq : q.IsProper) : (p.resolve q).IsNormal where
  root := rfl
  proper := hp.resolve hq
  forward := notMem_foldl_follow List.not_mem_nil _

/-- A normal form is resolved already. -/
theorem IsNormal.resolve_eq (h : q.IsNormal) (p : Path) : p.resolve q = q := by
  rw [resolve, join_of_isAbsolute h.isAbsolute, collapse, foldl_follow_of_notMem h.forward,
    List.nil_append, ← h.root]

/-- **Resolving composes**: what is seen from a resolved path is what the longer path leads to. -/
theorem resolve_resolve (p q r : Path) : (p.resolve q).resolve r = p.resolve (q.join r) := by
  unfold resolve
  rw [← join_assoc]
  cases hr : r.isAbsolute with
  | true => rw [join_of_isAbsolute hr, join_of_isAbsolute hr]
  | false =>
      have hforward : ".." ∉ (p.join q).parts.foldl follow [] :=
        notMem_foldl_follow List.not_mem_nil _
      rw [join_of_relative hr, join_of_relative hr]
      simp only [collapse, List.foldl_append, foldl_follow_of_notMem hforward, List.nil_append]

end Path

end RpcBindings
