import Mathlib.Data.List.Flatten
import RpcBindings.Proofs.Source.Returns

/-!
# RpcBindings.Proofs.Source.Spacing

Finished texts of drafts that have strokes in common.  What a gap writes depends on
the line before it, so strokes cannot be taken out of a draft as they like.  Where
every gap stands behind a line that is not empty (`Spaced`), each stroke writes its own
lines: a draft with fewer strokes has fewer lines then (`sublist_render`), and what
stands in front is written in front (`render_append`).  A draft that goes on where
another one ends has a text that goes on where the other's ends (`prefix_render`).
-/

namespace RpcBindings

/-- The lines of a stroke; a gap is written. -/
def Stroke.spread (unit : String) : Stroke → List String
  | .line depth text => [Stroke.textOf unit depth text]
  | .gap => [""]
  | .block text => Text.lines (Text.trimLineFeeds text)

/-- A line with a text is not empty. -/
theorem Stroke.textOf_ne_empty {unit text : String} (depth : Nat) (h : text ≠ "") :
    textOf unit depth text ≠ "" := by
  unfold textOf
  rw [if_neg (by simpa using h)]
  intro hempty
  exact h (String.append_eq_empty_iff.1 hempty).2

/-- A line whose text has no line feed has none. -/
theorem Stroke.notMem_textOf {unit text : String} {depth : Nat} (hunit : '\n' ∉ unit.toList)
    (h : '\n' ∉ text.toList) : '\n' ∉ (textOf unit depth text).toList := by
  rw [textOf]
  split
  · simp
  · exact Text.notMem_append.2 ⟨fun hc => hunit (mem_unit_of_mem_indent hc), h⟩

namespace Draft

variable {unit : String} {draft draft' more front : Draft} {lines lines' : List String}

/-! ## Lines -/

@[simp] theorem onlyLines_nil : OnlyLines [] :=
  List.forall_mem_nil _

@[simp] theorem onlyLines_line {depth : Nat} {text : String} :
    OnlyLines (.line depth text :: draft) ↔ OnlyLines draft := by
  simp [OnlyLines]

@[simp] theorem onlyLines_append : OnlyLines (draft ++ more) ↔ OnlyLines draft ∧ OnlyLines more :=
  List.forall_mem_append

@[simp] theorem onlyLines_ready (texts : List String) : OnlyLines (ready texts) :=
  List.forall_mem_map.2 fun text _ => ⟨0, text, rfl⟩

theorem OnlyLines.flatMap {α : Type} {xs : List α} {write : α → Draft}
    (h : ∀ x ∈ xs, OnlyLines (write x)) : OnlyLines (xs.flatMap write) :=
  List.forall_mem_flatMap.2 h

/-- Empty lines between drafts of lines. -/
theorem OnlyLines.intercalate {drafts : List Draft} (h : ∀ draft ∈ drafts, OnlyLines draft) :
    OnlyLines ([emptyLine].intercalate drafts) := by
  induction drafts with
  | nil => exact onlyLines_nil
  | cons draft rest ih =>
      rw [List.forall_mem_cons] at h
      cases rest with
      | nil => simpa [List.intercalate] using h.1
      | cons next rest =>
          rw [List.intercalate_cons_cons, onlyLines_append, onlyLines_append, emptyLine,
            onlyLines_line]
          exact ⟨⟨h.1, onlyLines_nil⟩, ih h.2⟩

/-! ## Gaps -/

/-- The lines of all strokes. -/
def spread (unit : String) (draft : Draft) : List String :=
  draft.flatMap (Stroke.spread unit)

theorem spread_append : (draft ++ more).spread unit = draft.spread unit ++ more.spread unit :=
  List.flatMap_append

theorem spread_flatMap {α : Type} (xs : List α) (write : α → Draft) :
    spread unit (xs.flatMap write) = xs.flatMap fun x => (write x).spread unit :=
  List.flatMap_assoc

/-- Every gap is written, whatever stands before the draft. -/
def Spaced (unit : String) (draft : Draft) : Prop :=
  ∀ lines, draft.foldl (Stroke.write unit) lines = lines ++ draft.spread unit

/-- A spaced draft is laid out with no line collapsed. -/
theorem Spaced.lines_eq (h : Spaced unit draft) : Draft.lines unit draft = draft.spread unit :=
  h []

theorem spaced_nil (unit : String) : Spaced unit [] :=
  fun lines => (List.append_nil lines).symm

theorem Spaced.append (h : Spaced unit draft) (hmore : Spaced unit more) :
    Spaced unit (draft ++ more) := by
  intro lines
  rw [List.foldl_append, h, hmore, spread_append, List.append_assoc]

theorem Spaced.flatMap {α : Type} {xs : List α} {write : α → Draft}
    (h : ∀ x ∈ xs, Spaced unit (write x)) : Spaced unit (xs.flatMap write) := by
  induction xs with
  | nil => exact spaced_nil unit
  | cons x rest ih =>
      rw [List.forall_mem_cons] at h
      rw [List.flatMap_cons]
      exact h.1.append (ih h.2)

/-- Lines are written as they are. -/
theorem OnlyLines.spaced (h : OnlyLines draft) : Spaced unit draft := by
  induction draft with
  | nil => exact spaced_nil unit
  | cons stroke rest ih =>
      rw [OnlyLines, List.forall_mem_cons] at h
      obtain ⟨⟨depth, text, rfl⟩, hrest⟩ := h
      intro lines
      rw [List.foldl_cons, ih hrest, Stroke.write, List.append_assoc]
      rfl

/-- So are the lines of a block. -/
theorem spaced_block (unit text : String) : Spaced unit [.block text] := by
  intro lines
  simp [Stroke.write, spread, Stroke.spread]

/-- A gap behind a line that is not empty is written. -/
theorem Spaced.gap (h : Spaced unit front) (depth : Nat) {text : String} (htext : text ≠ "") :
    Spaced unit (front ++ [.line depth text, .gap]) := by
  have hwrite (lines : List String) :
      Stroke.write unit (lines ++ [Stroke.textOf unit depth text]) .gap =
        lines ++ [Stroke.textOf unit depth text] ++ [""] := by
    rw [Stroke.write, List.getLast?_concat]
    split
    · contradiction
    · next hempty => exact absurd (Option.some.inj hempty) (Stroke.textOf_ne_empty depth htext)
    · rfl
  refine h.append fun lines => ?_
  exact (hwrite lines).trans (List.append_assoc _ _ _)

/-! ## Empty lines at the end -/

/-- Dropping a beginning keeps a sublist one. -/
theorem dropWhile_sublist_dropWhile {α : Type} (p : α → Bool) {xs ys : List α}
    (h : xs.Sublist ys) : (xs.dropWhile p).Sublist (ys.dropWhile p) := by
  induction h with
  | slnil => exact .slnil
  | @cons xs ys y h ih =>
      rw [List.dropWhile_cons]
      split
      · exact ih
      · exact ((List.dropWhile_sublist p).trans h).cons y
  | @cons_cons xs ys x h ih =>
      rw [List.dropWhile_cons, List.dropWhile_cons]
      split
      · exact ih
      · exact h.cons_cons x

/-- Removing the empty end keeps a sublist one. -/
theorem dropEmptyEnd_sublist (h : lines.Sublist lines') :
    (dropEmptyEnd lines).Sublist (dropEmptyEnd lines') :=
  (dropWhile_sublist_dropWhile _ h.reverse).reverse

/-- The empty end of two lists of lines is that of the second, unless all of it is empty. -/
theorem dropEmptyEnd_append_eq (lines more : List String) :
    dropEmptyEnd (lines ++ more) =
      if dropEmptyEnd more = [] then dropEmptyEnd lines else lines ++ dropEmptyEnd more := by
  simp only [dropEmptyEnd, List.reverse_append, List.dropWhile_append, List.reverse_eq_nil_iff,
    List.isEmpty_iff]
  split
  · rfl
  · simp

/-- Lines that follow take nothing off the lines before them. -/
theorem dropEmptyEnd_prefix (lines more : List String) :
    dropEmptyEnd lines <+: dropEmptyEnd (lines ++ more) := by
  have hself : dropEmptyEnd lines <+: lines := by
    rw [dropEmptyEnd, ← List.reverse_suffix, List.reverse_reverse]
    exact List.dropWhile_suffix _
  rw [dropEmptyEnd_append_eq]
  split
  · exact List.prefix_refl _
  · exact hself.trans (List.prefix_append _ _)

/-! ## Finished texts -/

/-- Every line of a text that has any ends with a line feed. -/
theorem render_eq_join (hne : dropEmptyEnd (Draft.lines unit draft) ≠ []) :
    render unit draft = String.join ((dropEmptyEnd (Draft.lines unit draft)).map (· ++ "\n")) := by
  rw [render]
  generalize dropEmptyEnd (Draft.lines unit draft) = lines at hne ⊢
  induction lines with
  | nil => contradiction
  | cons line rest ih =>
      cases rest with
      | nil => simp
      | cons next rest =>
          have hcons : "\n".intercalate (line :: next :: rest) =
              line ++ "\n" ++ "\n".intercalate (next :: rest) := by
            apply String.toList_injective
            simp [List.intercalate]
          rw [hcons, String.append_assoc, List.map_cons, String.join_cons, ih (by simp)]

/-- Nothing is left out that ends with a line that is not empty. -/
theorem dropEmptyEnd_eq_self (h : ∃ line ∈ lines.getLast?, line ≠ "") :
    dropEmptyEnd lines = lines := by
  obtain ⟨line, hmem, hline⟩ := h
  obtain ⟨before, rfl⟩ := List.getLast?_eq_some_iff.1 hmem
  have hdrop : dropEmptyEnd (before ++ [line] ++ []) = before ++ [line] ++ dropEmptyEnd [] :=
    dropEmptyEnd_append hline []
  simpa [dropEmptyEnd] using hdrop

/-- Its text has all lines of its strokes. -/
theorem Spaced.render_eq (h : Spaced unit draft)
    (hlast : ∃ line ∈ (draft.spread unit).getLast?, line ≠ "") :
    render unit draft = String.join ((draft.spread unit).map (· ++ "\n")) := by
  have hkept := dropEmptyEnd_eq_self hlast
  obtain ⟨line, hmem, -⟩ := hlast
  have hne : draft.spread unit ≠ [] := List.ne_nil_of_mem (List.mem_of_getLast? hmem)
  rw [← h.lines_eq] at hkept hne ⊢
  rw [render_eq_join (by rwa [hkept]), hkept]

/-- A draft with fewer strokes has fewer lines. -/
theorem sublist_render (hspaced : Spaced unit draft) (hspaced' : Spaced unit draft')
    (h : draft.Sublist draft') (hne : dropEmptyEnd (Draft.lines unit draft) ≠ []) :
    (Text.split '\n' (render unit draft)).Sublist (Text.split '\n' (render unit draft')) := by
  have hlines : (Draft.lines unit draft).Sublist (Draft.lines unit draft') := by
    rw [hspaced.lines_eq, hspaced'.lines_eq]
    exact h.flatMap _
  have hkept := dropEmptyEnd_sublist hlines
  have hne' : dropEmptyEnd (Draft.lines unit draft') ≠ [] := by
    intro hnil
    rw [hnil, List.sublist_nil] at hkept
    exact hne hkept
  rw [split_render unit draft hne, split_render unit draft' hne']
  exact (hkept.flatMap _).append (.refl _)

/-- A draft that goes on has a text that goes on. -/
theorem prefix_render (hne : dropEmptyEnd (Draft.lines unit draft) ≠ []) (more : Draft) :
    ∃ rest, render unit (draft ++ more) = render unit draft ++ rest := by
  obtain ⟨written, hwritten⟩ := prefix_foldl_write unit more (Draft.lines unit draft)
  obtain ⟨rest, hrest⟩ := dropEmptyEnd_prefix (Draft.lines unit draft) written
  rw [hwritten, ← lines_append] at hrest
  refine ⟨String.join (rest.map (· ++ "\n")), ?_⟩
  rw [render_eq_join hne, render_eq_join (by simp [← hrest, hne]), ← hrest, List.map_append,
    String.join_append]

/-- What stands in front of a draft that leaves a line stands in front of its text. -/
theorem render_append (hfront : Spaced unit front) (hspaced : Spaced unit draft)
    (hne : dropEmptyEnd (Draft.lines unit draft) ≠ []) :
    render unit (front ++ draft) =
      String.join ((front.spread unit).map (· ++ "\n")) ++ render unit draft := by
  have hkept : dropEmptyEnd (Draft.lines unit (front ++ draft)) =
      front.spread unit ++ dropEmptyEnd (Draft.lines unit draft) := by
    rw [hspaced.lines_eq] at hne ⊢
    rw [(hfront.append hspaced).lines_eq, spread_append, dropEmptyEnd_append_eq, if_neg hne]
  rw [render_eq_join hne, render_eq_join (by simp [hkept, hne]), hkept, List.map_append,
    String.join_append]

/-! ## Lines in a row -/

/-- A draft of lines without line feeds is its depths and texts. -/
theorem Straight.exists_strokes {draft : Draft} (h : draft.Straight) :
    ∃ strokes : List (Nat × String),
      (strokes.map fun stroke => Stroke.line stroke.1 stroke.2) = draft ∧
        ∀ stroke ∈ strokes, '\n' ∉ stroke.2.toList := by
  induction draft with
  | nil => exact ⟨[], rfl, List.forall_mem_nil _⟩
  | cons stroke rest ih =>
      rw [Straight, List.forall_mem_cons] at h
      obtain ⟨⟨depth, text, rfl, htext⟩, hrest⟩ := h
      obtain ⟨strokes, rfl, hstrokes⟩ := ih hrest
      exact ⟨(depth, text) :: strokes, rfl, List.forall_mem_cons.2 ⟨htext, hstrokes⟩⟩

/-- **What is drafted in lines without line feeds stands in the finished text line by line**, if
its last line is not empty. -/
theorem Straight.infix_render {part : Draft} (h : part.Straight) (hunit : '\n' ∉ unit.toList)
    (hinside : part <:+: draft) (hlast : ∀ line ∈ (part.spread unit).getLast?, line ≠ "") :
    part.spread unit <:+: Text.split '\n' (render unit draft) := by
  obtain ⟨strokes, rfl, hstrokes⟩ := h.exists_strokes
  have hspread : spread unit (strokes.map fun stroke => Stroke.line stroke.1 stroke.2) =
      strokes.map fun stroke => Stroke.textOf unit stroke.1 stroke.2 := by
    rw [spread, List.flatMap_map]
    exact List.map_eq_flatMap.symm
  rw [hspread] at hlast ⊢
  refine Draft.infix_render hinside rfl hlast (List.forall_mem_map.2 fun stroke hstroke => ?_)
  exact Stroke.notMem_textOf hunit (hstrokes stroke hstroke)

end Draft

end RpcBindings
