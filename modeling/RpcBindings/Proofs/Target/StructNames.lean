import RpcBindings.Proofs.Source.Literal
import RpcBindings.Proofs.Target.Comments
import RpcBindings.Proofs.Target.Spacing

/-!
# RpcBindings.Proofs.Target.StructNames

The names under which the members of a struct in Rust are written to the wire, read off its lines:
an attribute in front of a member renames it, and without one it goes by its identifier, raw or not.
The members of a declaration are read from the lines that are drafted for it with the names of their
fields (`wireNames_lines`), and from its finished text if comments leave nothing but comments behind
(`wireNames_render`).
-/

namespace RpcBindings.Rust

/-! ## The reader -/

/-- A character of an identifier, or of the mark of raw ones. -/
def isIdentifierChar (c : Char) : Bool :=
  c.isAlphanum || c == '_' || c == '#'

/-- The name that an attribute on a line gives to the next member. -/
def renamed? (line : String) : Option String :=
  match Text.after? "#[serde(rename = ".toList (line.toList.dropWhile Text.isIndent) with
  | none => none
  | some behind =>
    match Literal.read Literal.rustEscapes behind with
    | some (name, [')', ']']) => some (String.ofList name)
    | _ => none

/-- The identifier of the member that a line declares. -/
def declared? (line : String) : Option String :=
  match Text.after? "pub ".toList (line.toList.dropWhile Text.isIndent) with
  | none => none
  | some behind =>
    match behind.dropWhile isIdentifierChar with
    | ':' :: _ => some (String.ofList (behind.takeWhile isIdentifierChar))
    | _ => none

/-- The names of the members on the wire, where one may be given to the first of them. -/
def wireNames (given : Option String) : List String → List String
  | [] => []
  | line :: rest =>
    match renamed? line, declared? line with
    | some name, _ => wireNames (some name) rest
    | none, some identifier => given.getD (plainIdentifier identifier) :: wireNames none rest
    | none, none => wireNames given rest

/-- A line that neither renames nor declares a member. -/
def Idle (line : String) : Prop :=
  renamed? line = none ∧ declared? line = none

instance (line : String) : Decidable (Idle line) :=
  inferInstanceAs (Decidable (_ ∧ _))

variable {lines : List String} {given : Option String} {name identifier : String} {m : Member}
  {d : Declaration} {options : Options}

/-- Idle lines change nothing about the names that are read behind them. -/
theorem wireNames_idle (h : ∀ line ∈ lines, Idle line) (rest : List String) :
    wireNames given (lines ++ rest) = wireNames given rest := by
  induction lines with
  | nil => rfl
  | cons line lines ih =>
      obtain ⟨⟨hrenamed, hdeclared⟩, hlines⟩ := List.forall_mem_cons.1 h
      rw [List.cons_append, wireNames, hrenamed, hdeclared]
      exact ih hlines

theorem reads_idle (h : ∀ line ∈ lines, Idle line) : ReadsAs (wireNames none) lines [] :=
  wireNames_idle h

/-! ## Single lines -/

/-- A rename is read past the indentation. -/
theorem renamed?_lineAt (depth : Nat) (text : String) :
    renamed? (dialect.lineAt depth text) = renamed? text := by
  rw [renamed?, renamed?, @Dialect.dropWhile_lineAt dialect (Language.isIndent_indentUnit .rust)]

/-- A member is read past the indentation. -/
theorem declared?_lineAt (depth : Nat) (text : String) :
    declared? (dialect.lineAt depth text) = declared? text := by
  rw [declared?, declared?, @Dialect.dropWhile_lineAt dialect (Language.isIndent_indentUnit .rust)]

/-- A line is idle where its text is. -/
theorem idle_lineAt {depth : Nat} {text : String} :
    Idle (dialect.lineAt depth text) ↔ Idle text := by
  rw [Idle, Idle, renamed?_lineAt, declared?_lineAt]

/-- A comment line is idle. -/
theorem idle_comment (text : String) : Idle ("// " ++ text) := by
  constructor
  · rw [renamed?, String.toList_append]; rfl
  · rw [declared?, String.toList_append]; rfl

/-- The opening line of a structure is idle. -/
theorem idle_struct (name : String) : Idle ("pub struct " ++ name ++ " \x7b") := by
  constructor
  · rw [renamed?, String.toList_append, String.toList_append]; rfl
  · rw [declared?, String.toList_append, String.toList_append]; rfl

/-- The line of derived traits is idle. -/
theorem idle_derive (role : DeclarationRole) :
    Idle ("#[derive(" ++ conversions role ++ ", Debug, Clone)]") := by
  have hall : ∀ traits ∈ ["Serialize, Deserialize", "Serialize", "Deserialize"],
      Idle ("#[derive(" ++ traits ++ ", Debug, Clone)]") := by decide
  cases role <;> exact hall _ (by simp [conversions])

/-- An attribute is read as the name that it was written for. -/
theorem renamed?_rename (name : String) :
    renamed? ("#[serde(rename = " ++ Literal.rust name ++ ")]") = some name := by
  have hline : ("#[serde(rename = " ++ Literal.rust name ++ ")]").toList.dropWhile Text.isIndent =
      "#[serde(rename = ".toList ++ ((Literal.rust name).toList ++ [')', ']']) := by
    rw [String.toList_append, String.toList_append, List.append_assoc]
    rfl
  rw [renamed?, hline, Text.after?_append]
  simp only [Literal.read_rust, String.ofList_toList]

/-- A member is read as its identifier, up to the colon. -/
theorem declared?_member (h : ∀ c ∈ identifier.toList, isIdentifierChar c = true)
    (type : String) :
    declared? ("pub " ++ identifier ++ ": " ++ type ++ ",") = some identifier := by
  have hline : ("pub " ++ identifier ++ ": " ++ type ++ ",").toList.dropWhile Text.isIndent =
      "pub ".toList ++ (identifier.toList ++ ':' :: ' ' :: (type.toList ++ [','])) := by
    simp only [String.toList_append, List.append_assoc]
    rfl
  have hstop : isIdentifierChar ':' = false := by decide
  rw [declared?, hline, Text.after?_append]
  simp only [List.dropWhile_append_of_pos h, List.takeWhile_append_of_pos h,
    List.dropWhile_cons, List.takeWhile_cons, hstop, Bool.false_eq_true, if_false,
    List.append_nil, String.ofList_toList]

/-- A member's line renames nothing. -/
theorem renamed?_member (text : String) : renamed? ("pub " ++ text) = none := by
  rw [renamed?, String.toList_append]
  rfl

/-! ## Members -/

/-- The identifier of a member holds identifier characters only. -/
theorem isIdentifierChar_rustMember {c : Char} (hc : c ∈ (Name.rustMember name).toList) :
    isIdentifierChar c = true := by
  have hword := Name.isWordChar_rustMember hc
  simpa only [isIdentifierChar, Name.isWordChar, Bool.or_eq_true, beq_iff_eq, or_assoc] using hword

/-- The attribute of a member, if it has one. -/
def renameLines (m : Member) : List String :=
  if plainIdentifier m.identifier == m.field.name then []
  else [dialect.lineAt 1 ("#[serde(rename = " ++ Literal.rust m.field.name ++ ")]")]

/-- The lines of a member without the comment above it. -/
def memberCode (m : Member) : List String :=
  renameLines m ++ [dialect.lineAt 1 ("pub " ++ m.identifier ++ ": " ++ m.type ++ ",")]

/-- A member is read with the name of its field. -/
theorem reads_memberCode (hidentifier : m.identifier = Name.rustMember m.field.name) :
    ReadsAs (wireNames none) (memberCode m) [m.field.name] := by
  have hchars : ∀ c ∈ m.identifier.toList, isIdentifierChar c = true := fun c hc =>
    isIdentifierChar_rustMember (hidentifier ▸ hc)
  have hrenamed : renamed? ("pub " ++ m.identifier ++ ": " ++ m.type ++ ",") = none := by
    rw [String.append_assoc, String.append_assoc, String.append_assoc]
    exact renamed?_member _
  have hdeclared := declared?_member hchars m.type
  have hrename := renamed?_rename m.field.name
  intro rest
  rw [memberCode, renameLines]
  split
  · next hsame =>
    -- The identifier says it all.
    simp only [List.nil_append, List.singleton_append, wireNames, renamed?_lineAt,
      declared?_lineAt, hrenamed, hdeclared, Option.getD_none, beq_iff_eq.1 hsame]
  · simp only [List.nil_append, List.cons_append, wireNames, renamed?_lineAt, declared?_lineAt,
      hrenamed, hdeclared, hrename, Option.getD_some]

/-! ## Structs -/

/-- The lines that open a struct. -/
def opening (d : Declaration) : List String :=
  ["#[derive(" ++ conversions d.role ++ ", Debug, Clone)]", "pub struct " ++ d.name ++ " \x7b"]

/-- Lines of a struct, whatever is said above it and above its members. -/
def structLines (above : List String) (said : Member → List String) (d : Declaration) :
    List String :=
  above ++ opening d ++ [""].intercalate (d.members.map fun m => said m ++ memberCode m) ++ ["\x7d"]

/-- **The members of a struct are read with the names of their fields**, if all that is said of
them is idle. -/
theorem reads_structLines {above : List String} {said : Member → List String}
    (hidentifiers : ∀ m ∈ d.members, m.identifier = Name.rustMember m.field.name)
    (habove : ∀ line ∈ above, Idle line) (hsaid : ∀ m ∈ d.members, ∀ line ∈ said m, Idle line) :
    ReadsAs (wireNames none) (structLines above said d) (d.members.map (·.field.name)) := by
  have hopening : ∀ line ∈ opening d, Idle line :=
    List.forall_mem_cons.2 ⟨idle_derive _, List.forall_mem_singleton.2 (idle_struct _)⟩
  have hbetween : ∀ line ∈ [""], Idle line := by decide
  have hclosing : ∀ line ∈ ["\x7d"], Idle line := by decide
  have hmember : ∀ m ∈ d.members,
      ReadsAs (wireNames none) (said m ++ memberCode m) [m.field.name] :=
    fun m hm => (reads_idle (hsaid m hm)).append (reads_memberCode (hidentifiers m hm))
  have hall := (((reads_idle habove).append (reads_idle hopening)).append
    (ReadsAs.intercalate (reads_idle hbetween) hmember)).append (reads_idle hclosing)
  rw [structLines]
  simpa only [List.nil_append, List.append_nil] using hall

/-- The lines that are drafted for a struct. -/
theorem lines_declaration (options : Options) (d : Declaration) :
    Draft.lines dialect.indentUnit (declaration options d) =
      structLines ["// " ++ comment d] (fun m => [dialect.lineAt 1 ("// " ++ m.summary)]) d := by
  have hmember (m : Member) : Draft.spread dialect.indentUnit (member m) =
      [dialect.lineAt 1 ("// " ++ m.summary)] ++ memberCode m := by
    rw [member, rename, memberCode, renameLines]
    split <;> rfl
  have hmembers :
      Draft.spread dialect.indentUnit ([Draft.emptyLine].intercalate (d.members.map member)) =
        [""].intercalate (d.members.map fun m =>
          [dialect.lineAt 1 ("// " ++ m.summary)] ++ memberCode m) := by
    rw [Draft.spread, Text.flatMap_intercalate, List.map_map]
    exact congrArg (fun write => [""].intercalate (d.members.map write)) (funext hmember)
  have honly : (declaration options d).OnlyLines :=
    Language.onlyLines_declaration (by decide : Language.rust ≠ .ruby) options d
  rw [honly.spaced.lines_eq, declaration, Draft.spread_append, Draft.spread_append, hmembers]
  simp only [Draft.spread, List.flatMap_cons, List.flatMap_nil, Stroke.spread,
    Stroke.textOf_zero, structLines, opening, List.cons_append, List.nil_append]

/-! ## Finished texts -/

/-- The lines of code that the comments of a struct leave behind their first lines. -/
def overruns (d : Declaration) : List String :=
  (comment d :: d.members.map (·.summary)).flatMap fun text => Text.overrun "//" (" " ++ text)

/-- A line that begins with code is code. -/
theorem codeLines_lineAt {depth : Nat} {text : String} {c : Char} (hfeed : '\n' ∉ text.toList)
    (hhead : text.toList.head? = some c) (hcode : Text.isBlank c = false ∧ c ≠ '/') :
    Text.codeLines "//" (dialect.lineAt depth text) = [dialect.lineAt depth text] := by
  have hunit : Text.IsIndent dialect.indentUnit := Language.rust.isIndent
  apply Text.codeLines_of_notMem
  · exact Dialect.notMem_lineAt (Language.isIndent_indentUnit .rust) hfeed
  · obtain ⟨rest, hrest⟩ := List.head?_eq_some_iff.1 hhead
    have hdrop : text.toList.dropWhile Text.isBlank = c :: rest := by
      rw [hrest, List.dropWhile_cons_of_neg (by simp [hcode.1])]
    have hslash : ('/' == c) = false := beq_false_of_ne hcode.2.symm
    rw [Text.isComment, Dialect.lineAt, Stroke.dropWhile_textOf hunit.blank, hdrop]
    show (['/', '/'].isPrefixOf (c :: rest)) = false
    rw [List.isPrefixOf, hslash, Bool.false_and]

/-- The code of a member survives the removal of comments. -/
theorem codeLines_memberCode (hidentifier : m.identifier = Name.rustMember m.field.name)
    (htype : '\n' ∉ m.type.toList) :
    (memberCode m).flatMap (Text.codeLines "//") = memberCode m := by
  have hfeed : '\n' ∉ m.identifier.toList := by
    rw [hidentifier]
    exact fun hc => absurd (isIdentifierChar_rustMember hc) (by decide)
  have hmember : Text.codeLines "//"
      (dialect.lineAt 1 ("pub " ++ m.identifier ++ ": " ++ m.type ++ ",")) =
      [dialect.lineAt 1 ("pub " ++ m.identifier ++ ": " ++ m.type ++ ",")] := by
    refine codeLines_lineAt (c := 'p') ?_ ?_ (by decide)
    · simp only [Text.notMem_append]
      exact ⟨⟨⟨⟨by decide, hfeed⟩, by decide⟩, htype⟩, by decide⟩
    · simp [String.toList_append]
  have hrename : (renameLines m).flatMap (Text.codeLines "//") = renameLines m := by
    rw [renameLines]
    split
    · rfl
    · rw [List.flatMap_singleton]
      refine codeLines_lineAt (c := '#') ?_ ?_ (by decide)
      · simp only [Text.notMem_append]
        exact ⟨⟨by decide, Literal.notMem_rust _⟩, by decide⟩
      · simp [String.toList_append]
  rw [memberCode, List.flatMap_append, hrename, List.flatMap_singleton, hmember]

/-- Of a comment there is its overrun. -/
theorem codeLines_comment (depth : Nat) (text : String) :
    Text.codeLines "//" (dialect.lineAt depth ("// " ++ text)) =
      Text.overrun "//" (" " ++ text) := by
  rw [slashes_append]
  exact Stroke.codeLines_textOf isMarker_slashes Language.rust.isIndent depth _

/-- The opening of a structure survives the removal of comments. -/
theorem codeLines_opening (hname : '\n' ∉ d.name.toList) :
    (opening d).flatMap (Text.codeLines "//") = opening d := by
  have hderive : Text.codeLines "//"
      (dialect.lineAt 0 ("#[derive(" ++ conversions d.role ++ ", Debug, Clone)]")) =
        [dialect.lineAt 0 ("#[derive(" ++ conversions d.role ++ ", Debug, Clone)]")] := by
    refine codeLines_lineAt (c := '#') ?_ ?_ (by decide)
    · cases d.role <;> simp only [conversions] <;> decide
    · simp [String.toList_append]
  have hstruct : Text.codeLines "//" (dialect.lineAt 0 ("pub struct " ++ d.name ++ " \x7b")) =
      [dialect.lineAt 0 ("pub struct " ++ d.name ++ " \x7b")] := by
    refine codeLines_lineAt (c := 'p') ?_ ?_ (by decide)
    · simp only [Text.notMem_append]
      exact ⟨⟨by decide, hname⟩, by decide⟩
    · simp [String.toList_append]
  rw [Dialect.lineAt_zero] at hderive hstruct
  simp only [opening, List.flatMap_cons, List.flatMap_nil, hderive, hstruct, List.append_nil,
    List.singleton_append]

/-- The lines of the finished text that are no comments. -/
theorem codeLines_declaration (options : Options)
    (hidentifiers : ∀ m ∈ d.members, m.identifier = Name.rustMember m.field.name)
    (htypes : ∀ m ∈ d.members, '\n' ∉ m.type.toList) (hname : '\n' ∉ d.name.toList) :
    Text.codeLines "//" (Draft.render dialect.indentUnit (declaration options d)) =
      structLines (Text.overrun "//" (" " ++ comment d))
        (fun m => Text.overrun "//" (" " ++ m.summary)) d ++ [""] := by
  have hsplit : Text.split '\n' (Draft.render dialect.indentUnit (declaration options d)) =
      (Draft.lines dialect.indentUnit (declaration options d)).flatMap (Text.split '\n') ++ [""] :=
    Language.split_declaration (by decide : Language.rust ≠ .ruby) _ options d
  have hcode : Text.codeLines "//" (Draft.render dialect.indentUnit (declaration options d)) =
      (Draft.lines dialect.indentUnit (declaration options d)).flatMap (Text.codeLines "//") ++
        [""] := by
    rw [Text.codeLines, hsplit, List.filter_append, List.filter_flatMap]
    rfl
  have hbetween : [""].flatMap (Text.codeLines "//") = [""] := by decide
  have hclosing : ["\x7d"].flatMap (Text.codeLines "//") = ["\x7d"] := by decide
  have habove : ["// " ++ comment d].flatMap (Text.codeLines "//") =
      Text.overrun "//" (" " ++ comment d) := by
    rw [← dialect.lineAt_zero ("// " ++ comment d), List.flatMap_singleton, codeLines_comment]
  have hmembers : d.members.map ((fun part => part.flatMap (Text.codeLines "//")) ∘ fun m =>
      [dialect.lineAt 1 ("// " ++ m.summary)] ++ memberCode m) =
        d.members.map fun m => Text.overrun "//" (" " ++ m.summary) ++ memberCode m := by
    apply List.map_congr_left
    intro m hm
    rw [Function.comp, List.flatMap_append, List.flatMap_singleton, codeLines_comment,
      codeLines_memberCode (hidentifiers m hm) (htypes m hm)]
  rw [hcode, lines_declaration, structLines, List.flatMap_append,
    List.flatMap_append, List.flatMap_append, habove, codeLines_opening hname,
    Text.flatMap_intercalate, hbetween, hclosing, List.map_map, hmembers]
  rfl

/-- The members of a struct are read from its finished text with the names of their fields, if all
comments are nothing but comments. -/
theorem wireNames_render (options : Options)
    (hidentifiers : ∀ m ∈ d.members, m.identifier = Name.rustMember m.field.name)
    (htypes : ∀ m ∈ d.members, '\n' ∉ m.type.toList) (hname : '\n' ∉ d.name.toList)
    (hconfined : overruns d = []) :
    wireNames none (Text.codeLines "//" (Draft.render dialect.indentUnit (declaration options d))) =
      d.members.map (·.field.name) := by
  rw [overruns, List.flatMap_eq_nil_iff, List.forall_mem_cons, List.forall_mem_map] at hconfined
  have habove : ∀ line ∈ Text.overrun "//" (" " ++ comment d), Idle line := by
    simp [hconfined.1]
  have hsaid : ∀ m ∈ d.members, ∀ line ∈ Text.overrun "//" (" " ++ m.summary), Idle line := by
    intro m hm
    simp [hconfined.2 m hm]
  have hend : ReadsAs (wireNames none) [""] [] := reads_idle (by decide)
  have hreads := (reads_structLines hidentifiers habove hsaid).append hend
  rw [codeLines_declaration options hidentifiers htypes hname, hreads.read_eq rfl, List.append_nil]

/-- And from the lines that are drafted for it without further ado. -/
theorem wireNames_lines (options : Options)
    (hidentifiers : ∀ m ∈ d.members, m.identifier = Name.rustMember m.field.name) :
    wireNames none (Draft.lines dialect.indentUnit (declaration options d)) =
      d.members.map (·.field.name) := by
  have habove : ∀ line ∈ ["// " ++ comment d], Idle line :=
    List.forall_mem_singleton.2 (idle_comment _)
  have hsaid : ∀ m ∈ d.members, ∀ line ∈ [dialect.lineAt 1 ("// " ++ m.summary)], Idle line :=
    fun m _ => List.forall_mem_singleton.2 (idle_lineAt.2 (idle_comment m.summary))
  rw [lines_declaration, (reads_structLines hidentifiers habove hsaid).read_eq rfl]

end RpcBindings.Rust
