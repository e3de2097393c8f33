import RpcBindings.File.Path
import RpcBindings.Proofs.Source.Lines

/-!
# RpcBindings.Proofs.File.Path

Paths and their texts.  The names of a path that is read from a text lead somewhere
and hold no slash; this is kept when paths are joined and collapsed
(`IsProper.resolve`).  A slash between two texts puts one path behind the other
(`ofString_append`).  Every proper path is read from the text that it is printed as
(`ofString_text`), and also from one that begins with a slash or a name and ends with
a full stop (`ofString_spelled`).
-/

namespace RpcBindings

namespace Text

variable {sep : Char}

/-- The parts between the occurrences of a character do not hold it. -/
theorem notMem_of_mem_splitChars {cs part : List Char} (h : part ∈ splitChars sep cs) :
    sep ∉ part := by
  induction cs generalizing part with
  | nil => simp_all [splitChars]
  | cons c rest ih =>
      rw [splitChars] at h
      split at h
      · obtain rfl | hrest := List.mem_cons.1 h
        · exact List.not_mem_nil
        · exact ih hrest
      · next hc =>
        have hne : sep ≠ c := fun heq => hc (by simp [heq])
        cases hsplit : splitChars sep rest with
        | nil => exact absurd hsplit (splitChars_ne_nil sep rest)
        | cons first parts =>
            rw [hsplit] at h ih
            obtain rfl | hparts := List.mem_cons.1 h
            · exact fun hmem => (List.mem_cons.1 hmem).elim hne (ih List.mem_cons_self)
            · exact ih (List.mem_cons_of_mem _ hparts)

/-- The parts between separators hold no separator. -/
theorem notMem_of_mem_split {s part : String} (h : part ∈ split sep s) : sep ∉ part.toList := by
  obtain ⟨cs, hcs, rfl⟩ := List.mem_map.1 h
  rw [String.toList_ofList]
  exact notMem_of_mem_splitChars hcs

end Text

namespace Path

variable {p q : Path} {name : String}

/-- A name that leads somewhere and can stand between slashes. -/
structure IsStepName (name : String) : Prop where
  leads : isStep name = true
  slash : '/' ∉ name.toList

/-- A path each name of which leads somewhere. -/
def IsProper (p : Path) : Prop := ∀ name ∈ p.parts, IsStepName name

/-- A name that leads somewhere begins with something, and not with a slash. -/
theorem IsStepName.exists_cons (h : IsStepName name) :
    ∃ c rest, name.toList = c :: rest ∧ c ≠ '/' := by
  have hslash := h.slash
  cases hname : name.toList with
  | nil =>
      obtain rfl := String.toList_eq_nil_iff.1 hname
      exact absurd h.leads (by decide)
  | cons c rest =>
      rw [hname, List.mem_cons, not_or] at hslash
      exact ⟨c, rest, rfl, Ne.symm hslash.1⟩

instance (name : String) : Decidable (IsStepName name) :=
  decidable_of_iff (isStep name = true ∧ '/' ∉ name.toList)
    ⟨fun h => ⟨h.1, h.2⟩, fun h => ⟨h.leads, h.slash⟩⟩

instance (p : Path) : Decidable p.IsProper :=
  inferInstanceAs (Decidable (∀ name ∈ p.parts, IsStepName name))

/-- Every path read from a text is a proper one. -/
theorem isProper_ofString (s : String) : (ofString s).IsProper := by
  intro name hname
  obtain ⟨hsplit, hstep⟩ := List.mem_filter.1 hname
  exact ⟨hstep, Text.notMem_of_mem_split hsplit⟩

theorem IsProper.join (hp : p.IsProper) (hq : q.IsProper) : (p.join q).IsProper := by
  unfold Path.join
  split
  · exact hq
  · exact List.forall_mem_append.2 ⟨hp, hq⟩

/-- Collapsing a path adds no name. -/
theorem foldl_follow_subset (place parts : List String) :
    parts.foldl follow place ⊆ place ++ parts := by
  induction parts generalizing place with
  | nil => simp
  | cons part rest ih =>
      intro name hname
      have hfollow : follow place part ⊆ place ++ [part] := by
        unfold follow
        split
        · exact List.Subset.trans (List.dropLast_subset place) (List.subset_append_left _ _)
        · exact List.Subset.refl _
      obtain hplace | hrest := List.mem_append.1 (ih _ hname)
      · have := hfollow hplace
        grind
      · grind

/-- Collapsing the steps up keeps a path proper. -/
theorem IsProper.collapse (hp : p.IsProper) : p.collapse.IsProper := by
  intro name hname
  have hsubset := foldl_follow_subset [] p.parts
  exact hp name (hsubset hname)

/-- A proper path resolves to a proper one. -/
theorem IsProper.resolve (hp : p.IsProper) (hq : q.IsProper) : (p.resolve q).IsProper :=
  (hp.join hq).collapse

/-! ## Paths behind paths -/

/-- Joining a relative path appends its parts. -/
theorem join_of_relative (h : q.isAbsolute = false) (p : Path) :
    p.join q = { p with parts := p.parts ++ q.parts } := by
  rw [join, h, if_neg Bool.false_ne_true]

/-- Joining is associative. -/
theorem join_assoc (p q r : Path) : (p.join q).join r = p.join (q.join r) := by
  cases hr : r.isAbsolute with
  | true => rw [join_of_isAbsolute hr, join_of_isAbsolute hr, join_of_isAbsolute hr]
  | false =>
      have hstart : (q.join r).isAbsolute = q.isAbsolute := by
        rw [join_of_relative hr]
        rfl
      cases hq : q.isAbsolute with
      | true => rw [join_of_isAbsolute hq, join_of_isAbsolute (hstart.trans hq)]
      | false =>
          rw [join_of_relative (hstart.trans hq), join_of_relative hr, join_of_relative hr,
            join_of_relative hq, List.append_assoc]

/-! ## Slashes in front -/

/-- Slashes in front of a text that begins otherwise say where its path starts. -/
theorem startOf_append {s : String} (start : PathStart) (h : s.toList.head? ≠ some '/') :
    startOf (start.text ++ s) = start := by
  have hnone : s.toList.takeWhile (· == '/') = [] := by
    cases hs : s.toList with
    | nil => rfl
    | cons c rest =>
        rw [hs, List.head?_cons, ne_eq, Option.some.injEq] at h
        rw [List.takeWhile_cons_of_neg (by simpa using h)]
  rw [startOf, String.toList_append]
  cases start <;> simp [PathStart.text, hnone]

/-- Between slashes that stand in a row there is nothing. -/
theorem filter_split_start (start : PathStart) (s : String) :
    (Text.split '/' (start.text ++ s)).filter isStep = (Text.split '/' s).filter isStep := by
  have hslash : ∀ s, (Text.split '/' ("/" ++ s)).filter isStep =
      (Text.split '/' s).filter isStep := by
    intro s
    have hsplit : Text.split '/' ("" ++ String.singleton '/' ++ s) =
        Text.split '/' "" ++ Text.split '/' s := Text.split_append_sep "" s
    rw [String.empty_append] at hsplit
    rw [show ("/" : String) = String.singleton '/' from rfl, hsplit, List.filter_append]
    rfl
  cases start with
  | here => rw [PathStart.text, String.empty_append]
  | root => exact hslash s
  | doubleRoot =>
      rw [PathStart.text, show ("//" : String) = "/" ++ "/" from rfl, String.append_assoc, hslash,
        hslash]

/-- A text is a relative path exactly where it does not start with a slash. -/
theorem isAbsolute_ofString {s : String} :
    (ofString s).isAbsolute = false ↔ s.toList.head? ≠ some '/' := by
  constructor
  · intro h hhead
    obtain ⟨rest, hrest⟩ := List.head?_eq_some_iff.1 hhead
    have hstart : startOf s ≠ .here := by
      rw [startOf, hrest, List.takeWhile_cons_of_pos rfl, List.length_cons]
      split <;> simp_all
    simp [isAbsolute, ofString, hstart] at h
  · intro h
    have hstart := startOf_append .here h
    rw [PathStart.text, String.empty_append] at hstart
    simp [isAbsolute, ofString, hstart]

/-- A slash between two texts puts the path of the second behind that of the first. -/
theorem ofString_append {a b : String} (ha : a ≠ "") (hahead : (ofString a).isAbsolute = false)
    (hb : (ofString b).isAbsolute = false) :
    ofString (a ++ "/" ++ b) = (ofString a).join (ofString b) := by
  have hsplit : Text.split '/' (a ++ "/" ++ b) = Text.split '/' a ++ Text.split '/' b :=
    Text.split_append_sep a b
  -- The text as a whole begins as the first does, since that is not empty.
  have hhead : (a ++ "/" ++ b).toList.head? = a.toList.head? := by
    rw [String.append_assoc, String.toList_append, List.head?_append_of_ne_nil]
    simpa using ha
  have hrelative : (ofString (a ++ "/" ++ b)).isAbsolute = false := by
    rw [isAbsolute_ofString, hhead]
    exact isAbsolute_ofString.1 hahead
  have hstart : startOf (a ++ "/" ++ b) = startOf a := by
    simp only [isAbsolute, ofString, bne_eq_false_iff_eq] at hahead hrelative
    rw [hahead, hrelative]
  rw [join_of_relative hb, ofString, hstart, hsplit, List.filter_append]
  rfl

/-! ## Printing -/

/-- Names with slashes between them split into those names. -/
theorem filter_split_intercalate {parts : List String} (h : ∀ name ∈ parts, IsStepName name) :
    (Text.split '/' ("/".intercalate parts)).filter isStep = parts := by
  by_cases hparts : parts = []
  · subst hparts
    rfl
  · have hsplit : Text.split '/' ("/".intercalate parts) = parts := by
      rw [show ("/" : String) = String.singleton '/' from rfl, Text.split_intercalate hparts,
        List.flatMap_congr fun name hname => Text.split_of_notMem (h name hname).slash]
      exact List.flatMap_singleton' parts
    rw [hsplit, List.filter_eq_self]
    exact fun name hname => (h name hname).leads

/-- A name stands in front of the joined names of a path, and no slash. -/
theorem head?_intercalate {parts : List String} (h : ∀ name ∈ parts, IsStepName name) :
    ("/".intercalate parts).toList.head? ≠ some '/' := by
  cases parts with
  | nil => decide
  | cons name rest =>
      obtain ⟨c, cs, hname, hc⟩ := (h name List.mem_cons_self).exists_cons
      cases rest with
      | nil => simp [hname, hc]
      | cons next rest => simp [String.intercalate_cons_cons, hname, hc]

/-- **A path is read from the text that it is printed as.** -/
theorem ofString_text (hp : p.IsProper) : ofString p.text = p := by
  obtain ⟨start, parts⟩ := p
  unfold text
  split
  · next hstart hparts =>
    cases hstart
    cases hparts
    rfl
  · rw [ofString, startOf_append start (head?_intercalate hp), filter_split_start,
      filter_split_intercalate hp]

/-! ## Spelling a path out -/

/-- A text of a path that does not begin or end with a blank, whatever the names are: there is a
slash behind each of them, and at the end the name that leads nowhere. -/
def spelled (p : Path) : String :=
  p.start.text ++ String.join (p.parts.map (· ++ "/")) ++ "."

/-- The spelling is the start, each part with a slash behind it, and a dot. -/
theorem toList_spelled (p : Path) :
    p.spelled.toList = p.start.text.toList ++ (p.parts.flatMap (·.toList ++ ['/']) ++ ['.']) := by
  simp [spelled, List.flatMap, Function.comp_def]

/-- Slashes stand before the first name and behind it, and not in its place. -/
theorem head?_parts (hp : p.IsProper) :
    (p.parts.flatMap (·.toList ++ ['/']) ++ ['.']).head? ≠ some '/' := by
  unfold IsProper at hp
  cases hparts : p.parts with
  | nil => decide
  | cons name parts =>
      obtain ⟨c, rest, hname, hc⟩ := (hp name (by simp [hparts])).exists_cons
      simp [hname, hc]

/-- The spelling of a proper path starts as the path does. -/
theorem startOf_spelled (hp : p.IsProper) : startOf p.spelled = p.start := by
  rw [spelled, String.append_assoc, startOf_append]
  have hhead := head?_parts hp
  simpa [List.flatMap, Function.comp_def] using hhead

/-- The parts are read back from the spelling, without its final dot. -/
theorem filter_split_parts {parts : List String} (h : ∀ name ∈ parts, IsStepName name) :
    (Text.split '/' (String.join (parts.map (· ++ "/")) ++ ".")).filter isStep = parts := by
  induction parts with
  | nil => rfl
  | cons name parts ih =>
      rw [List.forall_mem_cons] at h
      have hcons : String.join ((name :: parts).map (· ++ "/")) ++ "." =
          name ++ String.singleton '/' ++ (String.join (parts.map (· ++ "/")) ++ ".") := by
        apply String.toList_injective
        simp
      rw [hcons, Text.split_append_sep, Text.split_of_notMem h.1.slash, List.filter_append, ih h.2,
        List.filter_singleton, h.1.leads]
      rfl

/-- **Every proper path is the path of a text.** -/
theorem ofString_spelled (hp : p.IsProper) : ofString p.spelled = p := by
  rw [ofString, startOf_spelled hp, spelled, String.append_assoc, filter_split_start,
    filter_split_parts hp]

end Path

end RpcBindings
