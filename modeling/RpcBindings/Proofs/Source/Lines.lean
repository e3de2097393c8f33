import Mathlib.Data.List.Infix
import RpcBindings.Source.Draft
import RpcBindings.Text.Split

/-!
# RpcBindings.Proofs.Source.Lines

The lines of a finished text.  Strokes may hold line feeds of their own, so the lines
that are drafted are not yet the lines of the text; each of them becomes the lines
that it is cut into.  Lines without a line feed that are drafted in a row stand in
the text in a row.
-/

namespace RpcBindings

/-! ## Cutting texts -/

namespace Text

variable {sep c : Char} {s t : String}

/-- The characters of joined parts are those of the parts and of the separator. -/
theorem mem_intercalate {sep : List Char} {parts : List (List Char)}
    (hc : c ∈ sep.intercalate parts) : c ∈ sep ∨ ∃ part ∈ parts, c ∈ part := by
  induction parts with
  | nil => simp [List.intercalate] at hc
  | cons part rest ih =>
      by_cases hrest : rest = []
      · subst hrest
        exact .inr ⟨part, by simp, by simpa [List.intercalate] using hc⟩
      · rw [List.intercalate_cons_of_ne_nil hrest, List.mem_append, List.mem_append] at hc
        obtain (hc | hc) | hc := hc
        · exact .inr ⟨part, by simp, hc⟩
        · exact .inl hc
        · exact (ih hc).imp_right fun ⟨other, hother, hc⟩ => ⟨other, by simp [hother], hc⟩

/-- Joined lists are written part by part, and so is what joins them. -/
theorem flatMap_intercalate {α β : Type} (f : α → List β) (sep : List α) (parts : List (List α)) :
    (sep.intercalate parts).flatMap f =
      (sep.flatMap f).intercalate (parts.map fun part => part.flatMap f) := by
  induction parts with
  | nil => rfl
  | cons part rest ih =>
      cases rest with
      | nil => simp only [List.map_cons, List.map_nil, List.intercalate_singleton]
      | cons next rest =>
          rw [List.intercalate_cons_cons, List.flatMap_append, List.flatMap_append, ih]
          simp only [List.map_cons, List.intercalate_cons_cons]

/-- Each part stands in the text that joins them. -/
theorem infix_intercalate {sep part : List Char} {parts : List (List Char)} (h : part ∈ parts) :
    part <:+: sep.intercalate parts := by
  induction parts with
  | nil => contradiction
  | cons first rest ih =>
      by_cases hrest : rest = []
      · subst hrest
        obtain rfl := List.mem_singleton.1 h
        simp
      · rw [List.intercalate_cons_of_ne_nil hrest]
        obtain rfl | h := List.mem_cons.1 h
        · exact (List.prefix_append _ _).isInfix.trans (List.prefix_append _ _).isInfix
        · exact (ih h).trans (List.suffix_append _ _).isInfix

theorem notMem_append : c ∉ (s ++ t).toList ↔ c ∉ s.toList ∧ c ∉ t.toList := by
  rw [String.toList_append, List.mem_append, not_or]

/-- A character of neither the separator nor a part is not in the joined text. -/
theorem notMem_intercalate {parts : List String} (hsep : c ∉ s.toList)
    (hparts : ∀ part ∈ parts, c ∉ part.toList) : c ∉ (s.intercalate parts).toList := by
  rw [String.toList_intercalate]
  intro hc
  obtain hc | ⟨part, hpart, hc⟩ := mem_intercalate hc
  · exact hsep hc
  · obtain ⟨text, htext, rfl⟩ := List.mem_map.1 hpart
    exact hparts text htext hc

theorem splitChars_append_sep (sep : Char) (cs more : List Char) :
    splitChars sep (cs ++ sep :: more) = splitChars sep cs ++ splitChars sep more := by
  induction cs with
  | nil => simp [splitChars]
  | cons c rest ih =>
      rw [List.cons_append, splitChars, splitChars, ih]
      split
      · rfl
      · cases hrest : splitChars sep rest with
        | nil => exact absurd hrest (splitChars_ne_nil sep rest)
        | cons part parts => rfl

theorem splitChars_of_notMem {cs : List Char} (h : sep ∉ cs) : splitChars sep cs = [cs] := by
  induction cs with
  | nil => rfl
  | cons c rest ih =>
      rw [List.mem_cons, not_or] at h
      rw [splitChars, ih h.2, if_neg (by simpa using Ne.symm h.1)]

/-- What stands in front of the first separator belongs to the first part. -/
theorem splitChars_append_of_notMem {cs : List Char} (h : sep ∉ cs) (more : List Char) :
    splitChars sep (cs ++ more) = (splitChars sep more).modifyHead (cs ++ ·) := by
  induction cs with
  | nil => exact (congrFun List.modifyHead_id _).symm
  | cons c rest ih =>
      rw [List.mem_cons, not_or] at h
      rw [List.cons_append, splitChars, ih h.2, if_neg (by simpa using Ne.symm h.1)]
      cases hmore : splitChars sep more with
      | nil => exact absurd hmore (splitChars_ne_nil sep more)
      | cons part parts => rfl

/-- A text is cut into pieces of it. -/
theorem infix_of_mem_split (h : t ∈ split sep s) : t.toList <:+: s.toList := by
  obtain ⟨part, hpart, rfl⟩ := List.mem_map.1 h
  have hpiece : part <:+: [sep].intercalate (splitChars sep s.toList) := infix_intercalate hpart
  rwa [intercalate_splitChars, ← @String.toList_ofList part] at hpiece

/-- A text without the separator is one part. -/
theorem split_of_notMem (h : sep ∉ s.toList) : split sep s = [s] := by
  rw [split, splitChars_of_notMem h, List.map_singleton, String.ofList_toList]

/-- A separator splits what stands before it from what stands behind it. -/
theorem split_append_sep (s t : String) :
    split sep (s ++ String.singleton sep ++ t) = split sep s ++ split sep t := by
  rw [split, String.toList_append, String.toList_append, String.toList_singleton,
    List.append_assoc, List.singleton_append, splitChars_append_sep, List.map_append]
  rfl

/-- Parts that are joined by the separator are cut each by itself. -/
theorem split_intercalate {parts : List String} (h : parts ≠ []) :
    split sep ((String.singleton sep).intercalate parts) = parts.flatMap (split sep) := by
  induction parts with
  | nil => contradiction
  | cons part rest ih =>
      cases rest with
      | nil => simp
      | cons next rest =>
          have hcons : (String.singleton sep).intercalate (part :: next :: rest) =
              part ++ String.singleton sep ++
                (String.singleton sep).intercalate (next :: rest) := by
            apply String.toList_injective
            simp [List.intercalate]
          rw [hcons, split_append_sep, ih (by simp)]
          simp only [List.flatMap_cons]

end Text

/-! ## Reading in parts -/

/-- A part of what is read that is read as `ys`, whatever follows. -/
def ReadsAs {α β : Type} (read : List α → List β) (xs : List α) (ys : List β) : Prop :=
  ∀ rest, read (xs ++ rest) = ys ++ read rest

namespace ReadsAs

variable {α β : Type} {read : List α → List β} {xs xs' : List α} {ys ys' : List β}

theorem nil (read : List α → List β) : ReadsAs read [] [] := fun _ => rfl

theorem append (h : ReadsAs read xs ys) (h' : ReadsAs read xs' ys') :
    ReadsAs read (xs ++ xs') (ys ++ ys') := by
  intro rest
  rw [List.append_assoc, h, h', List.append_assoc]

theorem read_eq (h : ReadsAs read xs ys) (hnil : read [] = []) : read xs = ys := by
  have hall := h []
  rwa [List.append_nil, hnil, List.append_nil] at hall

/-- What joins parts is passed over. -/
theorem intercalate {γ : Type} {between : List α} {parts : List γ} {write : γ → List α}
    {name : γ → β} (hbetween : ReadsAs read between [])
    (h : ∀ part ∈ parts, ReadsAs read (write part) [name part]) :
    ReadsAs read (between.intercalate (parts.map write)) (parts.map name) := by
  induction parts with
  | nil => exact nil read
  | cons part rest ih =>
      rw [List.forall_mem_cons] at h
      cases rest with
      | nil => simpa only [List.map_cons, List.map_nil, List.intercalate_singleton] using h.1
      | cons next rest =>
          have hmore := (h.1.append hbetween).append (ih h.2)
          simpa only [List.map_cons, List.intercalate_cons_cons, List.append_nil,
            List.singleton_append] using hmore

end ReadsAs

/-! ## Drafted lines -/

/-- A single drafted line. -/
def Stroke.textOf (unit : String) (depth : Nat) (text : String) : String :=
  if text.isEmpty then "" else String.join (List.replicate depth unit) ++ text

/-- Indentation consists of its unit. -/
theorem Stroke.mem_unit_of_mem_indent {unit : String} {depth : Nat} {c : Char}
    (hc : c ∈ (String.join (List.replicate depth unit)).toList) : c ∈ unit.toList := by
  rw [String.toList_join, List.mem_flatMap] at hc
  obtain ⟨part, hpart, hc⟩ := hc
  rwa [List.eq_of_mem_replicate hpart] at hc

theorem Stroke.textOf_zero (unit text : String) : textOf unit 0 text = text := by
  unfold textOf
  split
  · next hempty => rw [String.isEmpty_iff.1 hempty]
  · exact String.empty_append

namespace Draft

variable {unit : String} {draft more : Draft} {lines : List String}

/-- Strokes write behind the lines that are there. -/
theorem prefix_foldl_write (unit : String) (draft : Draft) (lines : List String) :
    lines <+: draft.foldl (Stroke.write unit) lines := by
  induction draft generalizing lines with
  | nil => exact List.prefix_refl lines
  | cons stroke rest ih =>
      rw [List.foldl_cons]
      refine List.IsPrefix.trans ?_ (ih _)
      cases stroke with
      | line depth text => exact List.prefix_append _ _
      | block text => exact List.prefix_append _ _
      | gap =>
          rw [Stroke.write]
          split
          · exact List.prefix_refl _
          · exact List.prefix_refl _
          · exact List.prefix_append _ _

/-- A draft of lines only is written line by line. -/
theorem foldl_write_lines (unit : String) (strokes : List (Nat × String)) (lines : List String) :
    (strokes.map fun stroke => Stroke.line stroke.1 stroke.2).foldl (Stroke.write unit) lines =
      lines ++ strokes.map fun stroke => Stroke.textOf unit stroke.1 stroke.2 := by
  induction strokes generalizing lines with
  | nil => simp
  | cons stroke rest ih =>
      rw [List.map_cons, List.foldl_cons, ih, Stroke.write, List.append_assoc]
      rfl

/-- Lines that are drafted in a row are among the lines in a row. -/
theorem infix_lines {strokes : List (Nat × String)}
    (h : (strokes.map fun stroke => Stroke.line stroke.1 stroke.2) <:+: draft) :
    (strokes.map fun stroke => Stroke.textOf unit stroke.1 stroke.2) <:+:
      Draft.lines unit draft := by
  obtain ⟨before, after, rfl⟩ := h
  rw [lines_append, lines_append, foldl_write_lines]
  have hsuffix : (strokes.map fun stroke => Stroke.textOf unit stroke.1 stroke.2) <:+:
      Draft.lines unit before ++ strokes.map fun stroke => Stroke.textOf unit stroke.1 stroke.2 :=
    (List.suffix_append _ _).isInfix
  exact hsuffix.trans (prefix_foldl_write unit after _).isInfix

/-- What ends with a line that is not empty stays before the empty lines at the end. -/
theorem dropEmptyEnd_append {front : List String} {line : String} (hline : line ≠ "")
    (after : List String) :
    dropEmptyEnd (front ++ [line] ++ after) = front ++ [line] ++ dropEmptyEnd after := by
  have hkept : (line :: front.reverse).dropWhile (·.isEmpty) = line :: front.reverse :=
    List.dropWhile_cons_of_neg (by simpa using hline)
  have hreverse : (front ++ [line]).reverse = line :: front.reverse := by simp
  rw [dropEmptyEnd, dropEmptyEnd, List.reverse_append, hreverse, List.dropWhile_append, hkept]
  split
  · next hempty => simp [List.isEmpty_iff.1 hempty]
  · simp

/-- Lines that do not end in an empty one survive the removal of the empty end. -/
theorem infix_dropEmptyEnd {part : List String} (h : part <:+: lines)
    (hlast : ∀ line ∈ part.getLast?, line ≠ "") : part <:+: dropEmptyEnd lines := by
  obtain ⟨before, after, rfl⟩ := h
  cases hpart : part.getLast? with
  | none =>
      rw [List.getLast?_eq_none_iff.1 hpart]
      exact List.nil_infix
  | some line =>
      obtain ⟨front, rfl⟩ := List.getLast?_eq_some_iff.1 hpart
      have hline : line ≠ "" := hlast line (by simp)
      rw [← List.append_assoc, dropEmptyEnd_append hline, List.append_assoc before]
      exact List.infix_append before _ _

/-- The lines of a finished text are those that its drafted lines are cut into, and
an empty one behind the last line feed. -/
theorem split_render (unit : String) (draft : Draft) :
    dropEmptyEnd (Draft.lines unit draft) ≠ [] →
      Text.split '\n' (render unit draft) =
        (dropEmptyEnd (Draft.lines unit draft)).flatMap (Text.split '\n') ++ [""] := by
  intro hne
  have hfeed : "\n" = String.singleton '\n' := rfl
  have hrender : render unit draft =
      (String.singleton '\n').intercalate (dropEmptyEnd (Draft.lines unit draft)) ++
        String.singleton '\n' ++ "" := by
    rw [render, String.append_empty, hfeed]
  rw [hrender, Text.split_append_sep, Text.split_intercalate hne, Text.split_of_notMem (by simp)]

/-- **Lines that are drafted in a row, the last of them not empty, and hold no line
feed stand in the finished text in a row.** -/
theorem infix_render {strokes : List (Nat × String)} {part : List String}
    (h : (strokes.map fun stroke => Stroke.line stroke.1 stroke.2) <:+: draft)
    (hpart : strokes.map (fun stroke => Stroke.textOf unit stroke.1 stroke.2) = part)
    (hlast : ∀ line ∈ part.getLast?, line ≠ "") (hfeed : ∀ line ∈ part, '\n' ∉ line.toList) :
    part <:+: Text.split '\n' (render unit draft) := by
  subst hpart
  have hkept : strokes.map (fun stroke => Stroke.textOf unit stroke.1 stroke.2) <:+:
      dropEmptyEnd (Draft.lines unit draft) := infix_dropEmptyEnd (infix_lines h) hlast
  by_cases hne : dropEmptyEnd (Draft.lines unit draft) = []
  · rw [hne, List.infix_nil] at hkept
    rw [hkept]
    exact List.nil_infix
  · rw [split_render unit draft hne]
    obtain ⟨before, after, heq⟩ := hkept
    have hcut : (strokes.map fun stroke => Stroke.textOf unit stroke.1 stroke.2).flatMap
        (Text.split '\n') = strokes.map fun stroke => Stroke.textOf unit stroke.1 stroke.2 := by
      rw [List.flatMap_congr fun line hline => Text.split_of_notMem (hfeed line hline)]
      exact List.flatMap_singleton' _
    rw [← heq, List.flatMap_append, List.flatMap_append, hcut, List.append_assoc _ _ [""]]
    exact List.infix_append _ _ _

end Draft

end RpcBindings
