import RpcBindings.Proofs.Name.Casing
import RpcBindings.Proofs.Name.Scope
import RpcBindings.Proofs.Typing.Expression

/-!
# RpcBindings.Proofs.Typing.Marks

Pieces of text that tell what a type expression has at its base.  A language writes
a few characters of its own around a base, and identifiers consist of letters and
digits.  A piece that begins with another character than those, and goes on to one
that is neither, cannot come about in any other way than from the type of the kind
that it belongs to (`IsMark.infix_fieldType_iff`).
-/

namespace RpcBindings

/-- What occurs across a text up to a sign that does not occur behind it has the sign in the text,
if it begins with what does not occur in front of it. -/
theorem mem_of_infix_append {α : Type} {first sign : α} {middle rest before base after : List α}
    (h : first :: (middle ++ sign :: rest) <:+: before ++ base ++ after) (hfirst : first ∉ before)
    (hsign : sign ∉ after) : sign ∈ base := by
  obtain ⟨front, back, heq⟩ := h
  have hsplit : (front ++ first :: middle) ++ sign :: (rest ++ back) =
      before ++ (base ++ after) := by
    rw [← List.append_assoc before, ← heq]
    simp only [List.append_assoc, List.cons_append]
  obtain ⟨more, rfl, -⟩ | ⟨more, -, hrest⟩ := List.append_eq_append_iff.1 hsplit
  · exact absurd (by simp) hfirst
  · have hmem : sign ∈ base ++ after := by simp [hrest]
    exact (List.mem_append.1 hmem).resolve_right hsign

/-- Whether a kind of values occurs along a chain is told by its innermost descriptor. -/
theorem Descriptor.mentions_iff_of_hasShape {d : Descriptor} (h : d.HasShape) {kind : Kind}
    (hkind : kind.isPrimitive = true) : d.mentions kind = true ↔ d.core = .primitive kind := by
  induction h with
  | primitive hother => simp [mentions, layers, primitive, core]
  | reference target =>
      have hne : Kind.reference ≠ kind := by
        rintro rfl
        contradiction
      simp [mentions, layers, reference, core, primitive, hne]
  | @array items _ ih =>
      have hne : (Kind.array == kind) = false := by
        rw [beq_eq_false_iff_ne]
        rintro rfl
        contradiction
      have hcons : (array items).mentions kind = items.mentions kind := by
        rw [mentions, array, layers, List.any_cons, hne, Bool.false_or, mentions]
      rw [hcons]
      exact ih

namespace Language

variable {language : Language} {base type : String}

/-! ## Around a base -/

/-- The characters that stand in front of a base. -/
def opening : Language → List Char
  | .go => ['[', ']', '*']
  | .rust => "Vec<Option<".toList
  | .typescript => []
  | .ruby => "Array<".toList

/-- The characters that stand behind a base. -/
def closing : Language → List Char
  | .go => []
  | .rust => ['>']
  | .typescript => "[] | undefined".toList
  | .ruby => ">, nil".toList

/-- A type that consists of a base and of what the language writes around it. -/
def Wraps (language : Language) (base type : String) : Prop :=
  ∃ before after, type.toList = before ++ base.toList ++ after ∧
    (∀ c ∈ before, c ∈ language.opening) ∧ ∀ c ∈ after, c ∈ language.closing

theorem Wraps.refl (language : Language) (base : String) : language.Wraps base base :=
  ⟨[], [], by simp, by simp, by simp⟩

/-- One more layer. -/
theorem Wraps.layer (h : language.Wraps base type) (front back : String)
    (hfront : front.toList ⊆ language.opening) (hback : back.toList ⊆ language.closing) :
    language.Wraps base (front ++ type ++ back) := by
  obtain ⟨before, after, heq, hbefore, hafter⟩ := h
  refine ⟨front.toList ++ before, after ++ back.toList, ?_, ?_, ?_⟩
  · simp only [String.toList_append, heq, List.append_assoc]
  · exact List.forall_mem_append.2 ⟨fun _ hc => hfront hc, hbefore⟩
  · exact List.forall_mem_append.2 ⟨hafter, fun _ hc => hback hc⟩

/-- A sequence of a wrapped base wraps it as well. -/
theorem Wraps.sequence (h : language.Wraps base type) :
    language.Wraps base (language.sequence type) := by
  cases language with
  | go =>
      have hlayer := h.layer "[]" "" (by decide) (by decide)
      rwa [String.append_empty] at hlayer
  | rust => exact h.layer "Vec<" ">" (by decide) (by decide)
  | typescript =>
      have hlayer := h.layer "" "[]" (by decide) (by decide)
      rwa [String.empty_append] at hlayer
  | ruby => exact h.layer "Array<" ">" (by decide) (by decide)

/-- An optional type wraps the base of the type. -/
theorem Wraps.optional (h : language.Wraps base type) (kind : Kind) :
    language.Wraps base (language.optional kind type) := by
  cases language with
  | go =>
      show Language.go.Wraps base
        (if kind == .array || kind == .object then type else "*" ++ type)
      split
      · exact h
      · have hlayer := h.layer "*" "" (by decide) (by decide)
        rwa [String.append_empty] at hlayer
  | rust => exact h.layer "Option<" ">" (by decide) (by decide)
  | typescript =>
      have hlayer := h.layer "" " | undefined" (by decide) (by decide)
      rwa [String.empty_append] at hlayer
  | ruby =>
      have hlayer := h.layer "" ", nil" (by decide) (by decide)
      rwa [String.empty_append] at hlayer

/-- The marks of a descriptor wrap the base. -/
theorem wraps_around (language : Language) (base : String) (d : Descriptor) :
    language.Wraps base (language.around base d) := by
  induction d with
  | plain _ _ => exact .refl language base
  | nested _ _ items ih => exact ih.sequence

/-- The marks of a field wrap the base. -/
theorem wraps_fieldType (language : Language) (base : String) (field : Field) :
    language.Wraps base (language.fieldType base field) := by
  unfold fieldType
  simp only
  split
  · exact wraps_around language base field.type
  · exact (wraps_around language base field.type).optional field.type.kind

/-! ## Marks -/

/-- A piece of the type of a kind that cannot occur in the type of a field unless the kind is at the
base. -/
structure IsMark (language : Language) (kind : Kind) (mark : String) (first sign : Char) :
    Prop where
  /-- The piece begins with the one character and has the other one later. -/
  shape : ∃ middle rest, mark.toList = first :: (middle ++ sign :: rest)
  /-- The first one is not written around a base. -/
  inner : first ∉ language.opening ++ language.closing
  /-- The sign is not written behind a base, and no part of a name. -/
  foreign : sign ∉ language.closing ∧ Name.isWordChar sign = false
  /-- No other type of the language has both. -/
  others : ∀ entry ∈ language.primitives, first ∈ entry.2.toList → sign ∈ entry.2.toList →
    entry.1 = kind
  /-- The type of the kind has the piece. -/
  written : ∀ entry ∈ language.primitives, entry.1 = kind → mark.toList <:+: entry.2.toList

variable {schema : Schema} {field : Field} {kind : Kind} {mark : String} {first sign : Char}

/-- The base `time.Time` marks timestamps in Go documents. -/
theorem isMark_time : IsMark .go .timestamp "time.Time" 't' '.' where
  shape := ⟨"ime".toList, "Time".toList, by decide⟩
  inner := by decide
  foreign := by decide
  others := by decide
  written := by decide

/-- The base `DateTime<Utc>` marks timestamps in Rust documents. -/
theorem isMark_dateTime : IsMark .rust .timestamp "DateTime<Utc>" 'D' '<' where
  shape := ⟨"ateTime".toList, "Utc>".toList, by decide⟩
  inner := by decide
  foreign := by decide
  others := by decide
  written := by decide

/-- The opening of a `HashMap` marks objects in Rust documents. -/
theorem isMark_hashMap : IsMark .rust .object "HashMap<" 'H' '<' where
  shape := ⟨"ashMap".toList, [], by decide⟩
  inner := by decide
  foreign := by decide
  others := by decide
  written := by decide

/-- A mark that occurs in a type has both of its characters in the base. -/
theorem IsMark.mem_of_infix (h : IsMark language kind mark first sign)
    (hwraps : language.Wraps base type) (hoccurs : mark.toList <:+: type.toList) :
    first ∈ base.toList ∧ sign ∈ base.toList := by
  obtain ⟨before, after, heq, hbefore, hafter⟩ := hwraps
  obtain ⟨middle, rest, hmark⟩ := h.shape
  obtain ⟨hopening, hclosing⟩ := not_or.1 (fun hmem => h.inner (List.mem_append.2 hmem))
  have hfirst : first ∉ before := fun hmem => hopening (hbefore _ hmem)
  rw [hmark, heq] at hoccurs
  constructor
  · have hmem : first ∈ before ++ base.toList ++ after :=
      hoccurs.subset List.mem_cons_self
    have hmem := (List.mem_append.1 hmem).resolve_right fun hmem => hclosing (hafter _ hmem)
    exact (List.mem_append.1 hmem).resolve_left hfirst
  · exact mem_of_infix_append hoccurs hfirst fun hmem => h.foreign.1 (hafter _ hmem)

/-- A primitive that is looked up stands in the table. -/
theorem mem_primitives_of_lookup (h : language.primitives.lookup kind = some type) :
    (kind, type) ∈ language.primitives := by
  obtain ⟨front, back, hentries, -⟩ := List.lookup_eq_some_iff.1 h
  simp [hentries]

/-- **Types tell their kind**: the mark of a kind occurs in the type of a field just where the
kind is at the base. -/
theorem IsMark.infix_fieldType_iff (h : IsMark language kind mark first sign)
    (hbase : TypeSystem.IsBase language schema field.type base) :
    mark.toList <:+: (language.fieldType base field).toList ↔
      field.type.core = .primitive kind := by
  have hwraps := wraps_fieldType language base field
  constructor
  · intro hoccurs
    obtain ⟨hfirst, hsign⟩ := h.mem_of_infix hwraps hoccurs
    obtain ⟨other, hcore, hlookup⟩ | ⟨target, found, -, -, hidentifier⟩ := hbase
    · obtain rfl : other = kind := h.others _ (mem_primitives_of_lookup hlookup) hfirst hsign
      exact hcore
    · rw [← casing_of_identifier hidentifier] at hsign
      have hword := isWordChar_of_declaration hsign
      rw [h.foreign.2] at hword
      contradiction
  · intro hcore
    obtain ⟨other, hother, hlookup⟩ | ⟨target, found, href, -, -⟩ := hbase
    · obtain rfl : other = kind := by
        rw [hcore] at hother
        cases hother
        rfl
      obtain ⟨before, after, heq, -⟩ := hwraps
      rw [heq]
      exact (h.written _ (mem_primitives_of_lookup hlookup) rfl).trans (List.infix_append _ _ _)
    · rw [hcore] at href
      cases href

end Language

namespace TypeSystem

/-- The type of a field stands on one line. -/
theorem notMem_expressField {language : Language} {schema : Schema} {owner : Option String}
    {field : Field} {type : String} (hshape : field.type.HasShape)
    (h : language.typeSystem.expressField schema owner field = .ok type) : '\n' ∉ type.toList := by
  obtain ⟨base, hbase, rfl⟩ := expressField_eq_ok hshape h
  have hfeed : '\n' ∉ base.toList := by
    obtain ⟨kind, -, hkind⟩ | ⟨target, found, -, -, hidentifier⟩ := hbase
    · have hall : ∀ entry ∈ language.primitives, '\n' ∉ entry.2.toList := by
        cases language <;> decide
      exact hall _ (Language.mem_primitives_of_lookup hkind)
    · rw [← Language.casing_of_identifier hidentifier]
      exact Language.notMem_of_declaration _ _
  have houter : '\n' ∉ language.opening ++ language.closing := by cases language <;> decide
  obtain ⟨before, after, heq, hbefore, hafter⟩ := Language.wraps_fieldType language base field
  rw [heq, List.mem_append, List.mem_append]
  rintro ((hc | hc) | hc)
  · exact houter (List.mem_append_left _ (hbefore _ hc))
  · exact hfeed hc
  · exact houter (List.mem_append_right _ (hafter _ hc))

end TypeSystem

end RpcBindings
