import RpcBindings.Proofs.Source.Literal

/-!
# RpcBindings.Proofs.Source.Quotation

What a literal says.  The literal that is written for a text ends at its last character and
nowhere before, as no quote stands between its quotes but behind a backslash; and it is read
as the text, whatever the text is.  This holds of literals in double quotes with the escapes
that JSON, Go and TypeScript have in common, and with those of Rust, which stay on one line
besides; and it holds of literals in single quotes, as Ruby reads them.
-/

namespace RpcBindings.Literal

variable {quote c : Char} {cs cs' text literal spelled rest : List Char} {escapes : Escapes}

/-! ## Between quotes -/

/-- What can stand between quotes: a backslash takes the next character with it, and of the
others none is the quote. -/
inductive IsBody (quote : Char) : List Char → Prop where
  | nil : IsBody quote []
  | plain {c : Char} {cs : List Char} (hquote : c ≠ quote) (hslash : c ≠ '\\')
    (h : IsBody quote cs) : IsBody quote (c :: cs)
  | escaped (c : Char) {cs : List Char} (h : IsBody quote cs) : IsBody quote ('\\' :: c :: cs)

/-- A literal that only its last character ends. -/
def IsQuoted (quote : Char) (literal : List Char) : Prop :=
  ∃ body, IsBody quote body ∧ literal = quote :: body ++ [quote]

theorem IsBody.append (h : IsBody quote cs) (h' : IsBody quote cs') : IsBody quote (cs ++ cs') := by
  induction h with
  | nil => exact h'
  | plain hquote hslash _ ih => exact .plain hquote hslash ih
  | escaped c _ ih => exact .escaped c ih

/-- Characters that are neither the quotation mark nor a backslash form a body. -/
theorem isBody_of_forall (h : ∀ c ∈ cs, c ≠ quote ∧ c ≠ '\\') : IsBody quote cs := by
  induction cs with
  | nil => exact .nil
  | cons c rest ih =>
      rw [List.forall_mem_cons] at h
      exact .plain h.1.1 h.1.2 (ih h.2)

/-- Characters that are each written as a body form a quoted text. -/
theorem isQuoted_flatMap {write : Char → List Char} (hwrite : ∀ c, IsBody quote (write c))
    (text : List Char) : IsQuoted quote (quote :: text.flatMap write ++ [quote]) := by
  refine ⟨text.flatMap write, ?_, rfl⟩
  induction text with
  | nil => exact .nil
  | cons c rest ih =>
      rw [List.flatMap_cons]
      exact (hwrite c).append ih

/-! ## Double quotes -/

/-- What spells a character is a body between double quotation marks. -/
theorem Spells.isBody (h : Spells escapes c spelled) : IsBody '"' spelled := by
  have hdigits {digits : List Char} {n : Nat} (hvalue : hexValue? 0 digits = some n) :
      IsBody '"' digits :=
    isBody_of_forall fun d hd => ⟨(of_hexValue? hvalue d hd).1, (of_hexValue? hvalue d hd).2.1⟩
  cases h with
  | plain hquote hslash _ => exact .plain hquote hslash .nil
  | short _ => exact .escaped _ .nil
  | numbered _ _ hvalue => exact .escaped 'u' (hdigits hvalue)
  | braced _ _ _ hvalue =>
      have hclose : IsBody '"' ['\x7d'] := .plain (by decide) (by decide) .nil
      exact .escaped 'u' (.plain (by decide) (by decide) ((hdigits hvalue).append hclose))

/-- What a literal means for a language with these escapes: it spells a text, ends where it
ends, holds no control character, and is read as the text whatever follows it. -/
structure Denotes (escapes : Escapes) (text literal : List Char) : Prop where
  spelled : IsLiteral escapes text literal
  quoted : IsQuoted '"' literal
  noControls : ∀ c ∈ literal, 0x20 ≤ c.toNat
  read : ∀ rest, read escapes (literal ++ rest) = some (text, rest)

/-- A literal with regular escapes denotes its text, and no other. -/
theorem IsLiteral.denotes (h : IsLiteral escapes text literal) (hregular : escapes.Regular) :
    Denotes escapes text literal := by
  refine ⟨h, ?_, h.le_toNat hregular, h.read_append hregular⟩
  obtain ⟨pieces, hpieces, rfl⟩ := h
  refine ⟨pieces.flatten, ?_, rfl⟩
  induction hpieces with
  | nil => exact .nil
  | cons hspells _ ih =>
      rw [List.flatten_cons]
      exact hspells.isBody.append ih

/-! ## Single quotes -/

/-- The text up to the closing single quote, and what follows it.  A backslash is one unless
a quote or another backslash follows it. -/
def readSingleFrom : List Char → Option (List Char × List Char)
  | [] => none
  | '\'' :: rest => some ([], rest)
  | '\\' :: c :: rest =>
    if c == '\'' || c == '\\' then within c (readSingleFrom rest)
    else within '\\' (readSingleFrom (c :: rest))
  | c :: rest => within c (readSingleFrom rest)

/-- The text of a literal in single quotes at the start, and what follows the literal. -/
def readSingle : List Char → Option (List Char × List Char)
  | '\'' :: cs => readSingleFrom cs
  | _ => none

/-- An escaped character is read back, and the rest after it. -/
theorem readSingleFrom_escapeSingle (c : Char) (rest : List Char) :
    readSingleFrom (escapeSingle c ++ rest) = within c (readSingleFrom rest) := by
  unfold escapeSingle
  split
  · next h => simp [readSingleFrom, h]
  · next h =>
    simp only [Bool.or_eq_true, beq_iff_eq, not_or] at h
    rw [List.singleton_append, readSingleFrom]
    · exact fun hquote => h.1 hquote
    · exact fun _ _ hslash _ => h.2 hslash

/-- A single-quoted text is read back, up to its closing mark. -/
theorem readSingle_singleQuoted (s : String) (rest : List Char) :
    readSingle ((singleQuoted s).toList ++ rest) = some (s.toList, rest) := by
  rw [singleQuoted, String.toList_ofList, singleQuotedChars, List.cons_append, List.cons_append,
    readSingle, List.append_assoc, List.singleton_append]
  induction s.toList with
  | nil => rfl
  | cons c more ih =>
      rw [List.flatMap_cons, List.append_assoc, readSingleFrom_escapeSingle, ih, within]

/-- An escaped character is a body between single quotation marks. -/
theorem isBody_escapeSingle (c : Char) : IsBody '\'' (escapeSingle c) := by
  unfold escapeSingle
  split
  · exact .escaped c .nil
  · next h =>
    simp only [Bool.or_eq_true, beq_iff_eq, not_or] at h
    exact .plain h.1 h.2 .nil

/-- A single-quoted text closes at its end and not before. -/
theorem isQuoted_singleQuoted (s : String) : IsQuoted '\'' (singleQuoted s).toList := by
  rw [singleQuoted, String.toList_ofList, singleQuotedChars]
  exact isQuoted_flatMap isBody_escapeSingle _

/-! ## All literals -/

/-- What is read as it was written is written for one text only. -/
theorem injective_of_read {write : String → String}
    {read : List Char → Option (List Char × List Char)}
    (hread : ∀ s rest, read ((write s).toList ++ rest) = some (s.toList, rest)) :
    Function.Injective write := by
  intro s s' heq
  have hs := hread s []
  rw [heq, hread s' [], Option.some.injEq, Prod.mk.injEq] at hs
  exact String.toList_injective hs.1.symm

/-- **Literals say what they were written for.**  For every text the literal of Rust and the
one in double quotes are literals of that text on one line, the latter for JSON, for what Go
and TypeScript have in common, and for what all three have; the literal in single quotes has
no other quote that ends it, and Ruby reads it as the text.  So different texts have
different literals. -/
theorem literals_denote :
    (∀ s : String, Denotes rustEscapes s.toList (rust s).toList) ∧
      (∀ s : String, Denotes commonEscapes s.toList (doubleQuoted s).toList ∧
        Denotes jsonEscapes s.toList (doubleQuoted s).toList ∧
        Denotes sharedEscapes s.toList (doubleQuoted s).toList) ∧
      (∀ s : String, IsQuoted '\'' (singleQuoted s).toList ∧
        ∀ rest, readSingle ((singleQuoted s).toList ++ rest) = some (s.toList, rest)) ∧
      Function.Injective rust ∧ Function.Injective doubleQuoted ∧
        Function.Injective singleQuoted := by
  refine ⟨fun s => (isLiteral_rust s).denotes regular_rustEscapes, fun s => ?_,
    fun s => ⟨isQuoted_singleQuoted s, readSingle_singleQuoted s⟩, injective_of_read read_rust,
    injective_of_read read_doubleQuoted, injective_of_read readSingle_singleQuoted⟩
  have hcommon := isLiteral_doubleQuoted s
  exact ⟨hcommon.denotes (commonEscapes_within_shared.regular regular_sharedEscapes),
    (hcommon.mono commonEscapes_within_json).denotes regular_jsonEscapes,
    (hcommon.mono commonEscapes_within_shared).denotes regular_sharedEscapes⟩

end RpcBindings.Literal
