import RpcBindings.Proofs.Target.PropertyNames
import RpcBindings.Proofs.Target.Steps

/-!
# RpcBindings.Proofs.Target.PropertyAccess

The properties that validation in TypeScript looks at.  A line is read token by token: what stands
in literals does not count, and neither does what is called `value` without an access behind it.  A
step of validation looks at the property of its member and at no other (`looksAt_identifier`).
-/

namespace RpcBindings.TypeScript

/-! ## The reader -/

/-- The name of the property that is looked at, and what follows. -/
def accessed? : List Char → Option (List Char × List Char)
  | '.' :: rest => identifier? rest
  | '[' :: rest =>
    match Literal.read Literal.sharedEscapes rest with
    | some (key, ']' :: rest) => some (key, rest)
    | _ => none
  | _ => none

/-- A property of `value`, with its name, or a literal, and what follows it. -/
def token? (cs : List Char) : Option (Option (List Char) × List Char) :=
  match Text.after? "value".toList cs with
  | some behind => (accessed? behind).map fun (key, rest) => (some key, rest)
  | none => (Literal.read Literal.sharedEscapes cs).map fun (_, rest) => (none, rest)

/-- The properties of `value` that are looked at behind some characters that are passed over. -/
def accessesFrom : Nat → List Char → List (List Char)
  | _, [] => []
  | passed + 1, _ :: rest => accessesFrom passed rest
  | 0, c :: rest =>
    match token? (c :: rest) with
    | none => accessesFrom 0 rest
    | some (key, behind) => key.toList ++ accessesFrom (rest.length - behind.length) rest

/-- The properties of `value` that a line looks at; what stands in literals does not count. -/
def accesses (line : String) : List String :=
  (accessesFrom 0 line.toList).map String.ofList

variable {name text text' : String} {names names' : List String} {xs rest : List Char}
  {key : Option (List Char)} {m : Member} {s : Step}

/-! ## Tokens -/

/-- What begins with no quote is no literal. -/
theorem read_eq_none (h : xs.head? ≠ some '"') : Literal.read Literal.sharedEscapes xs = none := by
  cases xs with
  | nil => rfl
  | cons c xs =>
      rw [Literal.read]
      rintro xs' ⟨⟩
      exact h rfl

/-- Nothing is accessed where neither a dot nor a bracket follows. -/
theorem accessed?_eq_none (h : ∀ c ∈ xs.head?, c ≠ '.' ∧ c ≠ '[') : accessed? xs = none := by
  cases xs with
  | nil => rfl
  | cons c xs =>
      obtain ⟨hdot, hbracket⟩ := h c rfl
      rw [accessed?]
      · rintro xs' ⟨⟩
        exact hdot rfl
      · rintro xs' ⟨⟩
        exact hbracket rfl

/-- An access is read as the name that it was written for. -/
theorem accessed?_propertyAccess (hsolid : Text.EndsSolid name.toList)
    (hstop : ∀ c ∈ rest.head?, isKeyChar c = false) :
    accessed? ((propertyAccess name).toList ++ rest) = some (name.toList, rest) := by
  rw [propertyAccess]
  split
  · next hplain =>
    rw [String.toList_append, List.append_assoc]
    exact identifier?_append hsolid hplain hstop
  · have hread := Literal.read_doubleQuoted name (']' :: rest)
    have hchars : ("[" ++ Literal.doubleQuoted name ++ "]").toList ++ rest =
        '[' :: ((Literal.doubleQuoted name).toList ++ ']' :: rest) := by
      simp [String.toList_append]
    simp only [hchars, accessed?, hread]

/-! ## Pieces of lines -/

/-- A piece of a line in which these properties are looked at, whatever follows. -/
def Sees (text : String) (names : List String) : Prop :=
  ReadsAs (accessesFrom 0) text.toList (names.map String.toList)

/-- Whether there is neither a literal nor the start of a value in a text. -/
def isPlain (text : String) : Bool :=
  text.toList.all fun c => c != 'v' && c != '"'

/-- Whether a text ends an identifier in front of it, and is plain itself. -/
def closes (text : String) : Bool :=
  isPlain text && text.toList.head?.any fun c => !isKeyChar c

/-- What two texts access is accessed in the text of both. -/
theorem Sees.append (h : Sees text names) (h' : Sees text' names') :
    Sees (text ++ text') (names ++ names') := by
  rw [Sees, String.toList_append, List.map_append]
  exact ReadsAs.append h h'

/-- The accesses of a text are those that are seen in it. -/
theorem Sees.accesses_eq (h : Sees text names) : accesses text = names := by
  rw [accesses, ReadsAs.read_eq h rfl, List.map_map]
  exact List.map_id'' (fun _ => String.ofList_toList) names

/-- Characters that are passed over do not count. -/
theorem accessesFrom_append (xs rest : List Char) :
    accessesFrom xs.length (xs ++ rest) = accessesFrom 0 rest := by
  induction xs with
  | nil => rfl
  | cons c xs ih => exact ih

/-- A token is passed over as one, with the accesses it makes. -/
theorem accessesFrom_token (hne : xs ≠ []) (h : token? (xs ++ rest) = some (key, rest)) :
    accessesFrom 0 (xs ++ rest) = key.toList ++ accessesFrom 0 rest := by
  obtain ⟨c, xs, rfl⟩ := List.exists_cons_of_ne_nil hne
  have hlength : (xs ++ rest).length - rest.length = xs.length := by simp
  rw [List.cons_append] at h ⊢
  simp only [accessesFrom, h, hlength, accessesFrom_append]

/-- A plain text accesses nothing. -/
theorem sees_of_isPlain (h : isPlain text = true) : Sees text [] := by
  intro rest
  rw [isPlain, List.all_eq_true] at h
  rw [List.map_nil, List.nil_append]
  generalize text.toList = cs at h
  induction cs with
  | nil => rfl
  | cons c cs ih =>
      obtain ⟨hc, hcs⟩ := List.forall_mem_cons.1 h
      rw [Bool.and_eq_true, bne_iff_ne, bne_iff_ne] at hc
      have hstart : ¬ ('v' == c) = true := fun heq => hc.1 (beq_iff_eq.1 heq).symm
      have hvalue : Text.after? "value".toList (c :: (cs ++ rest)) = none := if_neg hstart
      have hread : Literal.read Literal.sharedEscapes (c :: (cs ++ rest)) = none :=
        read_eq_none fun hquote => hc.2 (Option.some.inj hquote)
      have hnone : token? (c :: (cs ++ rest)) = none := by
        rw [token?, hvalue, hread]
        rfl
      rw [List.cons_append, accessesFrom, hnone]
      exact ih hcs

/-- A literal accesses nothing. -/
theorem sees_literal (s : String) : Sees (Literal.doubleQuoted s) [] := by
  intro rest
  obtain ⟨body, hbody⟩ := toList_doubleQuoted s
  have htoken : token? ((Literal.doubleQuoted s).toList ++ rest) = some (none, rest) := by
    have hvalue : Text.after? "value".toList ((Literal.doubleQuoted s).toList ++ rest) = none := by
      rw [hbody]
      rfl
    rw [token?, hvalue, Literal.read_doubleQuoted]
    rfl
  exact accessesFrom_token (by simp [hbody]) htoken

theorem sees_literals (texts : List String) :
    Sees (", ".intercalate (texts.map Literal.doubleQuoted)) [] := by
  induction texts with
  | nil => exact sees_of_isPlain (by decide)
  | cons text rest ih =>
      cases rest with
      | nil => simpa using sees_literal text
      | cons next rest =>
          have hcomma : Sees ", " [] := sees_of_isPlain (by decide)
          have hcons := ((sees_literal text).append hcomma).append ih
          simpa [String.intercalate_cons_cons] using hcons

/-- A text in which a property is looked at, where something else follows its name. -/
def Addresses (value name : String) : Prop :=
  ∀ behind, closes behind = true → Sees (value ++ behind) [name]

/-- A property of the value is addressed under its own name. -/
theorem addresses_propertyAccess (hsolid : Text.EndsSolid name.toList) :
    Addresses ("value" ++ propertyAccess name) name := by
  intro behind h rest
  rw [closes, Bool.and_eq_true] at h
  obtain ⟨hplain, hstop⟩ := h
  have hrest : ∀ c ∈ (behind.toList ++ rest).head?, isKeyChar c = false := by
    cases hbehind : behind.toList with
    | nil => simp [hbehind] at hstop
    | cons c cs => simpa [hbehind] using hstop
  have htoken : token? (("value" ++ propertyAccess name).toList ++ (behind.toList ++ rest)) =
      some (some name.toList, behind.toList ++ rest) := by
    rw [token?, String.toList_append, List.append_assoc, Text.after?_append]
    simp only [accessed?_propertyAccess hsolid hrest, Option.map_some]
  have hne : ("value" ++ propertyAccess name).toList ≠ [] := by simp
  rw [String.toList_append, List.append_assoc, accessesFrom_token hne htoken,
    sees_of_isPlain hplain]
  rfl

/-! ## Whole lines -/

/-- The indentation of a line accesses nothing. -/
theorem accesses_textOf (depth : Nat) (text : String) :
    accesses (Stroke.textOf dialect.indentUnit depth text) = accesses text := by
  have hunit : isPlain dialect.indentUnit = true := by decide
  have hspaces : isPlain (String.join (List.replicate depth dialect.indentUnit)) = true := by
    rw [isPlain, List.all_eq_true] at hunit ⊢
    exact fun c hc => hunit c (Stroke.mem_unit_of_mem_indent hc)
  rw [Stroke.textOf]
  split
  · next hempty => rw [String.isEmpty_iff.1 hempty]
  · rw [accesses, String.toList_append, sees_of_isPlain hspaces]
    rfl

/-- Whether a character begins a literal or an access. -/
def isSign (c : Char) : Bool :=
  c == '"' || c == '.' || c == '['

/-- A text without signs starts no token. -/
theorem token?_eq_none (h : xs.any isSign = false) : token? xs = none := by
  rw [List.any_eq_false] at h
  have hquote : xs.head? ≠ some '"' := fun heq => h _ (List.mem_of_mem_head? heq) rfl
  rw [token?]
  split
  · next behind hafter =>
    have hbehind : ∀ c ∈ behind.head?, c ≠ '.' ∧ c ≠ '[' := by
      intro c hc
      have hmem : c ∈ xs :=
        Text.eq_append_of_after? hafter ▸ List.mem_append_right _ (List.mem_of_mem_head? hc)
      exact ⟨by rintro rfl; exact h _ hmem rfl, by rintro rfl; exact h _ hmem rfl⟩
    rw [accessed?_eq_none hbehind]
    rfl
  · rw [read_eq_none hquote]
    rfl

/-- There is no access without a sign of one. -/
theorem accesses_eq_nil (h : text.toList.any isSign = false) : accesses text = [] := by
  have hall : accessesFrom 0 text.toList = [] := by
    generalize text.toList = cs at h
    induction cs with
    | nil => rw [accessesFrom]
    | cons c cs ih =>
        rw [accessesFrom, token?_eq_none h]
        exact ih (Bool.or_eq_false_iff.1 h).2
  rw [accesses, hall, List.map_nil]

/-- The accesses of a draft begin with those of its first line. -/
theorem accesses_spread_line (depth : Nat) (text : String) (draft : Draft) :
    (Draft.spread dialect.indentUnit (.line depth text :: draft)).flatMap accesses =
      accesses text ++ (Draft.spread dialect.indentUnit draft).flatMap accesses := by
  rw [Draft.spread, List.flatMap_cons, List.flatMap_append, Stroke.spread, List.flatMap_singleton,
    accesses_textOf]
  rfl

/-! ## Steps of validation -/

section

variable {value front behind : String} (hvalue : Addresses value name)
include hvalue

/-- An address between plain texts is the only access. -/
theorem Addresses.enclosed (hfront : isPlain front = true) (hbehind : closes behind = true) :
    Sees (front ++ value ++ behind) [name] := by
  rw [String.append_assoc]
  exact (sees_of_isPlain hfront).append (hvalue behind hbehind)

/-- The test for absence looks at the property once or twice. -/
theorem sees_missing (kind : Kind) :
    ∃ n, Sees ("if (" ++ missing kind value ++ ") \x7b") (List.replicate (n + 1) name) := by
  have hnull : Sees ("if (" ++ (value ++ " == null") ++ ") \x7b") [name] := by
    rw [← String.append_assoc, String.append_assoc]
    exact hvalue.enclosed (by decide) (by decide)
  unfold missing
  split
  · exact ⟨0, hnull⟩
  · exact ⟨0, hnull⟩
  · have hfirst : Sees ("if (" ++ value ++ " == null || ") [name] :=
      hvalue.enclosed (by decide) (by decide)
    have hagain := hvalue (".getTime() === zeroInstant" ++ ") \x7b") (by decide)
    refine ⟨1, ?_⟩
    show Sees ("if (" ++ (value ++ " == null || " ++ value ++ ".getTime() === zeroInstant") ++
      ") \x7b") ([name] ++ [name])
    simpa only [String.append_assoc] using hfirst.append hagain
  · refine ⟨0, ?_⟩
    rw [← String.append_assoc]
    exact hvalue.enclosed (by decide) (by decide)

end

theorem accesses_spread_failure (field message : String) (draft : Draft) :
    (Draft.spread dialect.indentUnit (failure field message :: draft)).flatMap accesses =
      (Draft.spread dialect.indentUnit draft).flatMap accesses := by
  have hreturn : Sees "return " [] := sees_of_isPlain (by decide)
  rw [failure, accesses_spread_line, (hreturn.append (sees_literal _)).accesses_eq]
  rfl

/-- A written default accesses nothing. -/
theorem sees_default {d : DefaultValue} (h : Schema.Suits m.field (.default d)) :
    Sees (if m.field.type.kind == .int then d.render else Literal.doubleQuoted d.render) [] := by
  split
  · next hkind =>
    obtain ⟨i, rfl⟩ := Schema.exists_int_of_suits h (beq_iff_eq.1 hkind)
    refine sees_of_isPlain (List.all_eq_true.2 fun c hc => ?_)
    rw [Bool.and_eq_true, bne_iff_ne, bne_iff_ne]
    obtain hdigit | rfl := Schema.mem_render_int hc
    · exact ⟨by rintro rfl; contradiction, by rintro rfl; contradiction⟩
    · decide
  · exact sees_literal _

/-- The call of the validation of an element is no access, whatever its name. -/
theorem accesses_validate (type : String) :
    accesses ("const err = validate" ++ Language.typescript.casing .declaration type ++ "(item)") =
      [] := by
  have htype : (Language.typescript.casing .declaration type).toList.any isSign = false := by
    rw [List.any_eq_false]
    intro c hc
    rw [Bool.not_eq_true]
    exact Name.of_isWordChar (P := fun c => isSign c = false) (by decide)
      (Language.isWordChar_of_declaration hc)
  apply accesses_eq_nil
  rw [String.toList_append, String.toList_append, List.any_append, List.any_append, htype]
  decide

/-- A written step that looks at the property of a name, and at no other. -/
def LooksAt (m : Member) (s : Step) (name : String) : Prop :=
  ∃ n, (Draft.lines dialect.indentUnit (step m s)).flatMap accesses = List.replicate (n + 1) name

/-- **A step of validation looks at the property of its member.** -/
theorem looksAt_identifier (hsolid : Text.EndsSolid m.identifier.toList)
    (h : Schema.Suits m.field s) : LooksAt m s m.identifier := by
  have hvalue := addresses_propertyAccess hsolid
  have hclosing (depth : Nat) :
      (Draft.spread dialect.indentUnit [.line depth "\x7d"]).flatMap accesses = [] := by
    rw [accesses_spread_line]
    decide
  have hempty : (Draft.spread dialect.indentUnit [Draft.emptyLine]).flatMap accesses = [] := by
    decide
  rw [LooksAt, onlyLines_step.spaced.lines_eq, step, Draft.spread_append, List.flatMap_append,
    hempty, List.append_nil]
  generalize "value" ++ propertyAccess m.identifier = value at hvalue
  cases s with
  | default d =>
      have hif : Sees ("if (!" ++ value ++ ") \x7b") [m.identifier] :=
        hvalue.enclosed (by decide) (by decide)
      have hset : Sees s!"{value} = {if m.field.type.kind == .int then d.render
          else Literal.doubleQuoted d.render}" [m.identifier] :=
        (hvalue " = " (by decide)).append (sees_default h)
      refine ⟨1, ?_⟩
      rw [stepBody, accesses_spread_line, accesses_spread_line, hif.accesses_eq, hset.accesses_eq,
        hclosing]
      rfl
  | required =>
      obtain ⟨n, hif⟩ := sees_missing hvalue m.field.type.kind
      refine ⟨n, ?_⟩
      rw [stepBody, accesses_spread_line, hif.accesses_eq, accesses_spread_failure, hclosing,
        List.append_nil]
  | oneOf allowed =>
      have hopen : Sees ("if (" ++ value ++ " && ![") [m.identifier] :=
        hvalue.enclosed (by decide) (by decide)
      have hincludes : Sees ("].includes(" ++ value ++ ")) \x7b") [m.identifier] :=
        hvalue.enclosed (by decide) (by decide)
      have hif := (hopen.append (sees_literals allowed)).append hincludes
      simp only [← String.append_assoc] at hif
      refine ⟨1, ?_⟩
      rw [stepBody, accesses_spread_line, hif.accesses_eq, accesses_spread_failure, hclosing]
      rfl
  | elements type =>
      have hfor : Sees ("for (const [i, item] of (" ++ value ++ " ?? []).entries()) \x7b")
          [m.identifier] := hvalue.enclosed (by decide) (by decide)
      have hrest : (Draft.spread dialect.indentUnit
          [.line 2 "if (err) \x7b", .line 3 "return \x60element $\x7bi\x7d: $\x7berr\x7d\x60",
           .line 2 "\x7d", .line 1 "\x7d"]).flatMap accesses = [] := by decide
      refine ⟨0, ?_⟩
      rw [stepBody, accesses_spread_line, hfor.accesses_eq, accesses_spread_line,
        accesses_validate, hrest]
      rfl

end RpcBindings.TypeScript
