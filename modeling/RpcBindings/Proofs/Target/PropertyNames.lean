import RpcBindings.Proofs.Source.Literal
import RpcBindings.Proofs.Source.Returns
import RpcBindings.Proofs.Target.Spacing
import RpcBindings.Proofs.Text.Trimmed

/-!
# RpcBindings.Proofs.Target.PropertyNames

The properties of an interface in TypeScript.  A name stands as it is where it is an identifier, and
as a literal otherwise; names that have been trimmed are told apart by this rightly, since they do
not end with a line feed.  So the properties are read with the names of the members, from the lines
that are drafted for an interface (`properties_lines`) and from its finished text if no comment ends
too early (`properties_render`).
-/

namespace RpcBindings.TypeScript

/-! ## The reader -/

/-- A character that an identifier may go on with. -/
def isKeyChar (c : Char) : Bool :=
  startsIdentifier c || c.isDigit

/-- The identifier at the start, and what follows it. -/
def identifier? : List Char → Option (List Char × List Char)
  | [] => none
  | c :: rest =>
    if startsIdentifier c then
      some (c :: rest.takeWhile isKeyChar, rest.dropWhile isKeyChar)
    else none

/-- The name of the property at the start, and what follows it. -/
def key? (cs : List Char) : Option (List Char × List Char) :=
  (identifier? cs).or (Literal.read Literal.sharedEscapes cs)

/-- The name of the property that a line declares. -/
def property? (line : String) : Option String :=
  match key? (line.toList.dropWhile Text.isIndent) with
  | some (key, ':' :: _) | some (key, '?' :: ':' :: _) => some (String.ofList key)
  | _ => none

/-- Whether a comment ends in some characters. -/
def endsComment (cs : List Char) : Bool :=
  decide ("*/".toList <:+: cs)

/-- The names of the properties that lines declare, perhaps from within a comment. -/
def properties (inComment : Bool) : List String → List String
  | [] => []
  | line :: rest =>
    if inComment then properties (!endsComment line.toList) rest
    else
      match Text.after? "/*".toList (line.toList.dropWhile Text.isIndent) with
      | some behind => properties (!endsComment behind) rest
      | none => (property? line).toList ++ properties false rest

variable {name text : String} {xs ys rest : List Char} {m : Member} {d : Declaration}

/-! ## Names -/

/-- A trimmed name that stands as it is is an identifier. -/
theorem exists_of_isPlainKey (hsolid : Text.EndsSolid name.toList) (h : isPlainKey name = true) :
    ∃ c rest, name.toList = c :: rest ∧ startsIdentifier c = true ∧
      ∀ d ∈ rest, isKeyChar d = true := by
  have hlast : (name.toList.getLast? == some '\n') = false := by
    rw [beq_eq_false_iff_ne]
    intro heq
    exact absurd (hsolid '\n' (by simp [heq])) (by decide)
  rw [isPlainKey] at h
  simp only [hlast, Bool.false_eq_true, if_false] at h
  split at h
  · contradiction
  · next c rest hname =>
    rw [Bool.and_eq_true, List.all_eq_true] at h
    exact ⟨c, rest, hname, h.1, h.2⟩

/-- The line feed at the end of a name that has not been trimmed is overlooked. -/
example : isPlainKey "id\n" = true := by decide

/-- A plain key is read as an identifier, up to the first character of no key. -/
theorem identifier?_append (hsolid : Text.EndsSolid name.toList) (h : isPlainKey name = true)
    (hstop : ∀ c ∈ rest.head?, isKeyChar c = false) :
    identifier? (name.toList ++ rest) = some (name.toList, rest) := by
  obtain ⟨c, more, hname, hc, hmore⟩ := exists_of_isPlainKey hsolid h
  have htake : rest.takeWhile isKeyChar = [] ∧ rest.dropWhile isKeyChar = rest := by
    cases rest with
    | nil => exact ⟨rfl, rfl⟩
    | cons d rest =>
        have hd : ¬ isKeyChar d = true := by simp [hstop d rfl]
        exact ⟨List.takeWhile_cons_of_neg hd, List.dropWhile_cons_of_neg hd⟩
  rw [hname, List.cons_append, identifier?, if_pos hc, List.takeWhile_append_of_pos hmore,
    List.dropWhile_append_of_pos hmore, htake.1, htake.2, List.append_nil]

theorem toList_doubleQuoted (name : String) :
    ∃ rest, (Literal.doubleQuoted name).toList = '"' :: rest := by
  rw [Literal.doubleQuoted, Json.string, String.toList_ofList, Json.stringChars]
  exact ⟨_, rfl⟩

/-- The key of a property is read as the name that it was written for. -/
theorem key?_propertyKey (hsolid : Text.EndsSolid name.toList)
    (hstop : ∀ c ∈ rest.head?, isKeyChar c = false) :
    key? ((propertyKey name).toList ++ rest) = some (name.toList, rest) := by
  rw [propertyKey]
  split
  · next hplain => rw [key?, identifier?_append hsolid hplain hstop, Option.some_or]
  · have hnone : identifier? ((Literal.doubleQuoted name).toList ++ rest) = none := by
      obtain ⟨body, hbody⟩ := toList_doubleQuoted name
      rw [hbody]
      rfl
    rw [key?, hnone, Option.none_or, Literal.read_doubleQuoted]

/-! ## Lines of an interface -/

/-- The property of a line does not depend on its indentation. -/
theorem property?_lineAt (depth : Nat) (text : String) :
    property? (dialect.lineAt depth text) = property? text := by
  rw [property?, property?,
    @Dialect.dropWhile_lineAt dialect (Language.isIndent_indentUnit .typescript)]

/-- A line that opens no comment is read by itself. -/
theorem reads_line {line : String} {names : List String}
    (hopen : Text.after? "/*".toList (line.toList.dropWhile Text.isIndent) = none)
    (hnames : (property? line).toList = names) : ReadsAs (properties false) [line] names := by
  intro rest
  rw [List.singleton_append, properties, if_neg Bool.false_ne_true, hopen, ← hnames]

/-- The opening line of an interface names no property. -/
theorem reads_interface (name : String) :
    ReadsAs (properties false) ["export interface " ++ name ++ " \x7b"] [] := by
  apply reads_line
  · rw [String.toList_append, String.toList_append]
    rfl
  · rw [property?, String.toList_append, String.toList_append]
    rfl

/-- A key begins neither with a blank character nor with a comment. -/
theorem exists_propertyKey (hsolid : Text.EndsSolid name.toList) :
    ∃ c rest, (propertyKey name).toList = c :: rest ∧ Text.isIndent c = false ∧ c ≠ '/' := by
  rw [propertyKey]
  split
  · next hplain =>
    obtain ⟨c, rest, hname, hc, -⟩ := exists_of_isPlainKey hsolid hplain
    refine ⟨c, rest, hname, ?_, ?_⟩
    · rw [Text.isIndent, Bool.or_eq_false_iff, beq_eq_false_iff_ne, beq_eq_false_iff_ne]
      constructor
      · rintro rfl
        exact absurd hc (by decide)
      · rintro rfl
        exact absurd hc (by decide)
    · rintro rfl
      exact absurd hc (by decide)
  · obtain ⟨rest, hrest⟩ := toList_doubleQuoted name
    exact ⟨'"', rest, hrest, by decide, by decide⟩

/-- The line that declares a member. -/
def memberText (m : Member) : String :=
  propertyKey m.identifier ++ (if m.optional then "?" else "") ++ ": " ++ m.type

theorem toList_memberText (m : Member) :
    (memberText m).toList = (propertyKey m.identifier).toList ++
      ((if m.optional then "?" else "").toList ++ ':' :: ' ' :: m.type.toList) := by
  simp [memberText, String.toList_append]

/-- The text of a member starts with no blank. -/
theorem dropWhile_memberText (hsolid : Text.EndsSolid m.identifier.toList) :
    (memberText m).toList.dropWhile Text.isIndent = (memberText m).toList := by
  obtain ⟨c, rest, hkey, hc, -⟩ := exists_propertyKey hsolid
  rw [toList_memberText, hkey, List.cons_append, List.dropWhile_cons_of_neg (by simp [hc])]

/-- A member declares the property of its name. -/
theorem property?_memberText (hsolid : Text.EndsSolid m.identifier.toList) :
    property? (memberText m) = some m.identifier := by
  rw [property?, dropWhile_memberText hsolid, toList_memberText]
  cases m.optional with
  | true =>
      rw [if_pos rfl, key?_propertyKey hsolid]
      · exact congrArg some String.ofList_toList
      · rintro c ⟨⟩
        decide
  | false =>
      rw [if_neg Bool.false_ne_true, key?_propertyKey hsolid]
      · exact congrArg some String.ofList_toList
      · rintro c ⟨⟩
        decide

/-- A member's line is read as the property of its name. -/
theorem reads_member (hsolid : Text.EndsSolid m.identifier.toList) :
    ReadsAs (properties false) [dialect.lineAt 1 (memberText m)] [m.identifier] := by
  apply reads_line
  · obtain ⟨c, rest, hkey, -, hc⟩ := exists_propertyKey hsolid
    have hopen : ¬ ('/' == c) = true := fun heq => hc (beq_iff_eq.1 heq).symm
    rw [@Dialect.dropWhile_lineAt dialect (Language.isIndent_indentUnit .typescript),
      dropWhile_memberText hsolid, toList_memberText, hkey]
    exact if_neg hopen
  · rw [property?_lineAt, property?_memberText hsolid, Option.toList_some]

/-! ## Comments -/

/-- A comment goes on over lines that do not end it. -/
theorem properties_comment {lines : List String}
    (h : ∀ line ∈ lines, endsComment line.toList = false) (rest : List String) :
    properties true (lines ++ rest) = properties true rest := by
  induction lines with
  | nil => rfl
  | cons line lines ih =>
      obtain ⟨hline, hlines⟩ := List.forall_mem_cons.1 h
      rw [List.cons_append, properties, if_pos rfl, hline]
      exact ih hlines

/-- A comment that says something on some lines. -/
def commentLines (depth : Nat) (said : List String) : List String :=
  dialect.lineAt depth "/**" :: said ++ [dialect.lineAt depth " */"]

/-- What is said is read within the comment. -/
theorem properties_commentLines (depth : Nat) (said rest : List String) :
    properties false (commentLines depth said ++ rest) =
      properties true (said ++ dialect.lineAt depth " */" :: rest) := by
  have hopen : Text.after? "/*".toList
      ((dialect.lineAt depth "/**").toList.dropWhile Text.isIndent) = some ['*'] := by
    rw [@Dialect.dropWhile_lineAt dialect (Language.isIndent_indentUnit .typescript)]
    decide
  have hends : endsComment ['*'] = false := by decide
  rw [commentLines, List.cons_append, List.cons_append, List.append_assoc, List.singleton_append,
    properties, if_neg Bool.false_ne_true, hopen]
  simp only [hends, Bool.not_false]

/-- A text that closes a comment does so within a longer one. -/
theorem endsComment_mono (h : xs <:+: ys) (hends : endsComment xs = true) :
    endsComment ys = true := by
  rw [endsComment, decide_eq_true_iff] at hends ⊢
  exact hends.trans h

theorem endsComment_cons {c : Char} (h : ¬ "*/".toList <+: c :: xs) :
    endsComment (c :: xs) = endsComment xs := by
  rw [endsComment, endsComment, decide_eq_decide, List.infix_cons_iff]
  exact or_iff_right h

/-- A text without an asterisk closes no comment. -/
theorem endsComment_append (h : '*' ∉ xs) (ys : List Char) :
    endsComment (xs ++ ys) = endsComment ys := by
  induction xs with
  | nil => rfl
  | cons c xs ih =>
      rw [List.mem_cons, not_or] at h
      rw [List.cons_append, endsComment_cons fun hprefix => h.1 (List.cons_prefix_cons.1 hprefix).1]
      exact ih h.2

/-- The indentation and the star in front of a text do not make it end a comment. -/
theorem endsComment_lineAt (depth : Nat) (text : String) :
    endsComment (dialect.lineAt depth (" * " ++ text)).toList = endsComment text.toList := by
  have hindent : '*' ∉ (String.join (List.replicate depth dialect.indentUnit)).toList := fun hc =>
    absurd (Stroke.mem_unit_of_mem_indent hc) (by decide)
  have hstar : (" * " ++ text).toList = ' ' :: '*' :: ' ' :: text.toList := String.toList_append
  have hne : ¬ (" * " ++ text).isEmpty = true := by
    rw [String.isEmpty_iff]
    intro heq
    simpa [hstar] using congrArg String.toList heq
  rw [Dialect.lineAt, Stroke.textOf, if_neg hne, String.toList_append, endsComment_append hindent,
    hstar]
  have hblank (xs : List Char) : ¬ "*/".toList <+: ' ' :: xs := fun hprefix =>
    absurd (List.cons_prefix_cons.1 hprefix).1 (by decide)
  have hslash : ¬ "*/".toList <+: '*' :: ' ' :: text.toList := fun hprefix =>
    absurd (List.cons_prefix_cons.1 (List.cons_prefix_cons.1 hprefix).2).1 (by decide)
  rw [endsComment_cons (hblank _), endsComment_cons hslash, endsComment_cons (hblank _)]

/-- Comment lines whose texts do not close the comment name no property. -/
theorem reads_commentLines {said : List String}
    (h : ∀ line ∈ said, endsComment line.toList = false) (depth : Nat) :
    ReadsAs (properties false) (commentLines depth said) [] := by
  intro rest
  have hclose : endsComment (dialect.lineAt depth " */").toList = true := by
    rw [Dialect.lineAt, Stroke.textOf, if_neg (by decide), String.toList_append]
    exact endsComment_mono (List.suffix_append _ _).isInfix (by decide)
  rw [properties_commentLines, properties_comment h, properties, if_pos rfl, hclose]
  rfl

/-- What is said on one line may end the comment, but there is no property on this line. -/
theorem reads_commentLines_singleton (depth : Nat) (line : String) :
    ReadsAs (properties false) (commentLines depth [line]) [] := by
  cases hline : endsComment line.toList with
  | false => exact reads_commentLines (by simpa using hline) depth
  | true =>
      intro rest
      have hclose : ReadsAs (properties false) [dialect.lineAt depth " */"] [] := by
        apply reads_line
        · rw [@Dialect.dropWhile_lineAt dialect (Language.isIndent_indentUnit .typescript)]
          decide
        · rw [property?_lineAt]
          decide
      rw [properties_commentLines, List.singleton_append, properties, if_pos rfl, hline]
      exact hclose rest

/-! ## Interfaces -/

/-- Lines of an interface, whatever is said above it and above its members. -/
def interfaceLines (above : List String) (said : Member → List String) (d : Declaration) :
    List String :=
  commentLines 0 above ++ ["export interface " ++ d.name ++ " \x7b"] ++
    [""].intercalate (d.members.map fun m =>
      commentLines 1 (said m) ++ [dialect.lineAt 1 (memberText m)]) ++ ["\x7d"]

/-- **The properties of an interface are read with the names of its members**, if there are none in
its comments. -/
theorem reads_interfaceLines {above : List String} {said : Member → List String}
    (hsolid : ∀ m ∈ d.members, Text.EndsSolid m.identifier.toList)
    (habove : ReadsAs (properties false) (commentLines 0 above) [])
    (hsaid : ∀ m ∈ d.members, ReadsAs (properties false) (commentLines 1 (said m)) []) :
    ReadsAs (properties false) (interfaceLines above said d) (d.members.map (·.identifier)) := by
  have hbetween : ReadsAs (properties false) [""] [] := reads_line (by decide) (by decide)
  have hclosing : ReadsAs (properties false) ["\x7d"] [] := reads_line (by decide) (by decide)
  have hmember : ∀ m ∈ d.members, ReadsAs (properties false)
      (commentLines 1 (said m) ++ [dialect.lineAt 1 (memberText m)]) [m.identifier] :=
    fun m hm => (hsaid m hm).append (reads_member (hsolid m hm))
  have hall := ((habove.append (reads_interface d.name)).append
    (ReadsAs.intercalate hbetween hmember)).append hclosing
  rw [interfaceLines]
  simpa only [List.nil_append, List.append_nil] using hall

/-- The lines that are drafted for an interface. -/
theorem lines_declaration (options : Options) (d : Declaration) :
    Draft.lines dialect.indentUnit (declaration options d) =
      interfaceLines [dialect.lineAt 0 (" * " ++ summary d)]
        (fun m => [dialect.lineAt 1 (" * " ++ m.summary)]) d := by
  have hmembers :
      Draft.spread dialect.indentUnit ([Draft.emptyLine].intercalate (d.members.map member)) =
        [""].intercalate (d.members.map fun m =>
          commentLines 1 [dialect.lineAt 1 (" * " ++ m.summary)] ++
            [dialect.lineAt 1 (memberText m)]) := by
    rw [Draft.spread, Text.flatMap_intercalate, List.map_map]
    rfl
  have honly : (declaration options d).OnlyLines :=
    Language.onlyLines_declaration (by decide : Language.typescript ≠ .ruby) options d
  rw [honly.spaced.lines_eq, declaration, Draft.spread_append, Draft.spread_append,
    Draft.spread_append, hmembers]
  simp only [Draft.spread, comment, commentLines, interfaceLines, Dialect.lineAt, List.flatMap_cons,
    List.flatMap_nil, Stroke.spread, Stroke.textOf_zero, List.cons_append, List.nil_append]

/-- From these lines its properties are read without further ado. -/
theorem properties_lines (options : Options)
    (hsolid : ∀ m ∈ d.members, Text.EndsSolid m.identifier.toList) :
    properties false (Draft.lines dialect.indentUnit (declaration options d)) =
      d.members.map (·.identifier) := by
  rw [lines_declaration, (reads_interfaceLines hsolid (reads_commentLines_singleton 0 _)
    fun m _ => reads_commentLines_singleton 1 _).read_eq rfl]

/-! ## Finished texts -/

/-- The key of a property is on one line. -/
theorem notMem_propertyKey (hsolid : Text.EndsSolid name.toList) :
    '\n' ∉ (propertyKey name).toList := by
  rw [propertyKey]
  split
  · next hplain =>
    obtain ⟨c, rest, hname, hc, hrest⟩ := exists_of_isPlainKey hsolid hplain
    rw [hname, List.mem_cons]
    rintro (rfl | hfeed)
    · exact absurd hc (by decide)
    · exact absurd (hrest _ hfeed) (by decide)
  · exact Literal.notMem_doubleQuoted name

/-- A line without a line feed is one line. -/
theorem split_lineAt {depth : Nat} (h : '\n' ∉ text.toList) :
    Text.split '\n' (dialect.lineAt depth text) = [dialect.lineAt depth text] :=
  Text.split_of_notMem (Dialect.notMem_lineAt (Language.isIndent_indentUnit .typescript) h)

/-- Texts of a comment are split into lines of the same comment. -/
theorem split_commentLines (depth : Nat) (said : List String) :
    (commentLines depth said).flatMap (Text.split '\n') =
      commentLines depth (said.flatMap (Text.split '\n')) := by
  rw [commentLines, commentLines, List.flatMap_append, List.flatMap_cons, List.flatMap_singleton,
    split_lineAt (by decide), split_lineAt (by decide)]
  rfl

/-- The lines of the finished text. -/
theorem split_declaration (options : Options)
    (hsolid : ∀ m ∈ d.members, Text.EndsSolid m.identifier.toList)
    (htypes : ∀ m ∈ d.members, '\n' ∉ m.type.toList) (hname : '\n' ∉ d.name.toList) :
    Text.split '\n' (Draft.render dialect.indentUnit (declaration options d)) =
      interfaceLines (Text.split '\n' (dialect.lineAt 0 (" * " ++ summary d)))
        (fun m => Text.split '\n' (dialect.lineAt 1 (" * " ++ m.summary))) d ++ [""] := by
  have hsplit : Text.split '\n' (Draft.render dialect.indentUnit (declaration options d)) =
      (Draft.lines dialect.indentUnit (declaration options d)).flatMap (Text.split '\n') ++ [""] :=
    Language.split_declaration (by decide : Language.typescript ≠ .ruby) _ options d
  have hbetween : [""].flatMap (Text.split '\n') = [""] := by decide
  have hclosing : ["\x7d"].flatMap (Text.split '\n') = ["\x7d"] := by decide
  have hinterface : ["export interface " ++ d.name ++ " \x7b"].flatMap (Text.split '\n') =
      ["export interface " ++ d.name ++ " \x7b"] := by
    rw [List.flatMap_singleton, Text.split_of_notMem]
    simp only [Text.notMem_append]
    exact ⟨⟨by decide, hname⟩, by decide⟩
  have hmembers : d.members.map ((fun part => part.flatMap (Text.split '\n')) ∘ fun m =>
      commentLines 1 [dialect.lineAt 1 (" * " ++ m.summary)] ++ [dialect.lineAt 1 (memberText m)]) =
        d.members.map fun m =>
          commentLines 1 (Text.split '\n' (dialect.lineAt 1 (" * " ++ m.summary))) ++
          [dialect.lineAt 1 (memberText m)] := by
    apply List.map_congr_left
    intro m hm
    have hmember : '\n' ∉ (memberText m).toList := by
      rw [memberText, Text.notMem_append, Text.notMem_append, Text.notMem_append]
      refine ⟨⟨⟨notMem_propertyKey (hsolid m hm), ?_⟩, by decide⟩, htypes m hm⟩
      split <;> decide
    rw [Function.comp, List.flatMap_append, split_commentLines, List.flatMap_singleton,
      List.flatMap_singleton, split_lineAt hmember]
  rw [hsplit, lines_declaration, interfaceLines, List.flatMap_append,
    List.flatMap_append, List.flatMap_append, split_commentLines, hinterface,
    Text.flatMap_intercalate, hbetween, hclosing, List.map_map, hmembers, List.flatMap_singleton]
  rfl

/-- A text that does not end a comment says nothing but a comment, on however many lines. -/
theorem reads_commentLines_split (depth : Nat) (h : endsComment text.toList = false) :
    ReadsAs (properties false)
      (commentLines depth (Text.split '\n' (dialect.lineAt depth (" * " ++ text)))) [] := by
  refine reads_commentLines (fun line hline => ?_) depth
  rw [← endsComment_lineAt depth] at h
  by_contra hends
  rw [Bool.not_eq_false] at hends
  have hwhole := endsComment_mono (Text.infix_of_mem_split hline) hends
  rw [h] at hwhole
  contradiction

/-- What the comments of an interface say. -/
def comments (d : Declaration) : List String :=
  summary d :: d.members.map (·.summary)

/-- The properties of an interface are read from its finished text with the names of its members,
if no comment ends before its last line. -/
theorem properties_render (options : Options)
    (hsolid : ∀ m ∈ d.members, Text.EndsSolid m.identifier.toList)
    (htypes : ∀ m ∈ d.members, '\n' ∉ m.type.toList) (hname : '\n' ∉ d.name.toList)
    (hcomments : ∀ text ∈ comments d, endsComment text.toList = false) :
    properties false
        (Text.split '\n' (Draft.render dialect.indentUnit (declaration options d))) =
      d.members.map (·.identifier) := by
  rw [comments, List.forall_mem_cons, List.forall_mem_map] at hcomments
  have hend : ReadsAs (properties false) [""] [] := reads_line (by decide) (by decide)
  have hreads := (reads_interfaceLines hsolid (reads_commentLines_split 0 hcomments.1)
    fun m hm => reads_commentLines_split 1 (hcomments.2 m hm)).append hend
  rw [split_declaration options hsolid htypes hname, hreads.read_eq rfl, List.append_nil]

end RpcBindings.TypeScript
