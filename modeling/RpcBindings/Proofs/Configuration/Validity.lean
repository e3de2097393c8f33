import RpcBindings.Host
import RpcBindings.Proofs.Configuration.Faults
import RpcBindings.Proofs.File.Path
import RpcBindings.Proofs.Name.Casing
import RpcBindings.Proofs.Text.Trimmed
import RpcBindings.Proofs.Value.Keyed

/-!
# RpcBindings.Proofs.Configuration.Validity

What configurations are like.  `Configuration.IsValid` says it of the configuration
alone: the target exists, names are names of their kinds, nothing is blank at its
ends, and paths start at the root.  Whatever data and options describe is valid in
this sense, and conversely every valid configuration is described by some data
(`exists_ofEntries_iff`).
-/

namespace RpcBindings

namespace Configuration

variable {s : String} {c : Char} {cs : List Char}

/-! ## Names -/

/-- A letter of ASCII, a digit or an underscore. -/
def IsWordLike (c : Char) : Prop := c.isAlphanum = true ∨ c = '_'

/-- A text of ASCII letters, digits and underscores that does not begin with a digit. -/
structure IsIdentifier (s : String) : Prop where
  nonempty : s ≠ ""
  chars : ∀ c ∈ s.toList, IsWordLike c
  start : ∀ c ∈ s.toList.head?, c.isDigit = false

/-- A capital, and behind it ASCII letters, digits and underscores. -/
def IsConstantName (cs : List Char) : Prop :=
  ∃ c rest, cs = c :: rest ∧ c.isUpper = true ∧ ∀ c ∈ rest, IsWordLike c

/-- Names of constants with double colons between them. -/
def IsConstantPath (s : String) : Prop :=
  ∃ segments, segments ≠ [] ∧ (∀ segment ∈ segments, IsConstantName segment) ∧
    s.toList = [':', ':'].intercalate segments

/-- The check of a character accepts letters of ASCII, digits and the underscore. -/
theorem isNameChar_iff : isNameChar c = true ↔ IsWordLike c := by
  simp [isNameChar, IsWordLike]

theorem all_isNameChar_iff : cs.all isNameChar = true ↔ ∀ c ∈ cs, IsWordLike c := by
  simp only [List.all_eq_true, isNameChar_iff]

/-- No letter is a digit. -/
theorem isAlpha_iff : c.isAlpha = true ↔ c.isAlphanum = true ∧ c.isDigit = false := by
  constructor
  · intro h
    have hword : Name.isWordChar c = true := by simp [Name.isWordChar, Char.isAlphanum, h]
    revert h
    exact Name.of_isWordChar
      (P := fun c => c.isAlpha = true → c.isAlphanum = true ∧ c.isDigit = false) (by decide) hword
  · rintro ⟨h, hdigit⟩
    simpa [Char.isAlphanum, hdigit] using h

/-- The check of an identifier accepts those, and nothing else. -/
theorem isIdentifier_iff : isIdentifier s = true ↔ IsIdentifier s := by
  unfold isIdentifier
  cases hs : s.toList with
  | nil => exact iff_of_false Bool.false_ne_true fun h => h.nonempty (String.toList_eq_nil_iff.1 hs)
  | cons c rest =>
      have hfirst : c.isAlpha = true ∨ c = '_' ↔ IsWordLike c ∧ c.isDigit = false := by
        rw [isAlpha_iff, IsWordLike]
        constructor
        · rintro (⟨h, hdigit⟩ | rfl)
          · exact ⟨.inl h, hdigit⟩
          · exact ⟨.inr rfl, rfl⟩
        · rintro ⟨h | h, hdigit⟩
          · exact .inl ⟨h, hdigit⟩
          · exact .inr h
      simp only [Bool.and_eq_true, Bool.or_eq_true, beq_iff_eq, all_isNameChar_iff, hfirst]
      constructor
      · rintro ⟨⟨hword, hdigit⟩, hrest⟩
        refine ⟨fun h => by simp [h] at hs, ?_, ?_⟩
        · rw [hs, List.forall_mem_cons]
          exact ⟨hword, hrest⟩
        · simpa [hs] using hdigit
      · rintro ⟨-, hchars, hstart⟩
        rw [hs] at hstart
        rw [hs, List.forall_mem_cons] at hchars
        exact ⟨⟨hchars.1, hstart c rfl⟩, hchars.2⟩

/-- The check of a segment accepts the names of constants. -/
theorem isConstantSegment_iff : isConstantSegment cs = true ↔ IsConstantName cs := by
  cases cs with
  | nil => simp [isConstantSegment, IsConstantName]
  | cons c rest => simp [isConstantSegment, IsConstantName, -List.all_eq_true, all_isNameChar_iff]

/-! ### Names between double colons -/

theorem constantSegments_ne_nil (cs : List Char) : constantSegments cs ≠ [] := by
  fun_cases constantSegments cs <;> simp_all

/-- Joining the parts gives the text back. -/
theorem intercalate_constantSegments (cs : List Char) :
    [':', ':'].intercalate (constantSegments cs) = cs := by
  fun_induction constantSegments cs with
  | case1 => rfl
  | case2 rest ih =>
      rw [List.intercalate_cons_of_ne_nil (constantSegments_ne_nil rest), ih]
      rfl
  | case3 c rest _ hnil => exact absurd hnil (constantSegments_ne_nil rest)
  | case4 c rest _ segment segments hrest ih =>
      rw [hrest] at ih
      cases segments with
      | nil => simpa [List.intercalate] using ih
      | cons next segments =>
          rw [List.intercalate_cons_cons, List.cons_append, List.cons_append] at *
          rw [ih]

/-- A character that is no colon belongs to the part that it begins. -/
theorem constantSegments_cons (hc : c ≠ ':') {segment : List Char} {segments : List (List Char)}
    (h : constantSegments cs = segment :: segments) :
    constantSegments (c :: cs) = (c :: segment) :: segments := by
  rw [constantSegments, h]
  exact fun _ heq _ => hc heq

/-- What stands without a colon in front of two colons is a segment of its own. -/
theorem constantSegments_append {segment : List Char} (h : ':' ∉ segment)
    {segments : List (List Char)} (hcs : constantSegments cs = [] :: segments) :
    constantSegments (segment ++ cs) = segment :: segments := by
  induction segment with
  | nil => exact hcs
  | cons c rest ih =>
      rw [List.mem_cons, not_or] at h
      exact constantSegments_cons (Ne.symm h.1) (ih h.2)

/-- Parts without colons are found again. -/
theorem constantSegments_intercalate {segments : List (List Char)} (hne : segments ≠ [])
    (h : ∀ segment ∈ segments, ':' ∉ segment) :
    constantSegments ([':', ':'].intercalate segments) = segments := by
  induction segments with
  | nil => contradiction
  | cons segment rest ih =>
      rw [List.forall_mem_cons] at h
      cases rest with
      | nil =>
          have hempty : constantSegments [] = [[]] := rfl
          simpa using constantSegments_append h.1 hempty
      | cons next rest =>
          rw [List.intercalate_cons_cons, List.append_assoc]
          refine constantSegments_append h.1 ?_
          rw [List.cons_append, List.cons_append, List.nil_append, constantSegments,
            ih (by simp) h.2]

theorem IsConstantName.notMem (h : IsConstantName cs) : ':' ∉ cs := by
  obtain ⟨c, rest, rfl, hc, hrest⟩ := h
  intro hmem
  obtain rfl | hmem := List.mem_cons.1 hmem
  · contradiction
  · obtain hword | heq := hrest _ hmem <;> contradiction

/-- The check of a constant accepts paths of constants, and nothing else. -/
theorem isConstant_iff : isConstant s = true ↔ IsConstantPath s := by
  simp only [isConstant, List.all_eq_true, isConstantSegment_iff]
  constructor
  · intro h
    exact ⟨_, constantSegments_ne_nil _, h, (intercalate_constantSegments _).symm⟩
  · rintro ⟨segments, hne, hnames, hs⟩
    rw [hs, constantSegments_intercalate hne
      fun segment hsegment => (hnames segment hsegment).notMem]
    exact hnames

/-! ### Names are not blank -/

theorem IsWordLike.not_isBlank (h : IsWordLike c) : Text.isBlank c = false := by
  obtain hword | rfl := h
  · exact Name.of_isWordChar (P := fun c => Text.isBlank c = false) (by decide) hword
  · rfl

/-- A text without blanks is a name unless it is empty. -/
theorem isName_of_not_isBlank (hne : s ≠ "") (h : ∀ c ∈ s.toList, Text.isBlank c = false) :
    Text.IsName s :=
  ⟨⟨fun c hc => h c (List.mem_of_mem_head? hc), fun c hc => h c (List.mem_of_getLast? hc)⟩, hne⟩

/-- Every identifier is a name. -/
theorem IsIdentifier.isName (h : IsIdentifier s) : Text.IsName s :=
  isName_of_not_isBlank h.nonempty fun c hc => (h.chars c hc).not_isBlank

/-- The name of a constant holds no blank. -/
theorem IsConstantName.not_isBlank (h : IsConstantName cs) : ∀ c ∈ cs, Text.isBlank c = false := by
  obtain ⟨c, rest, rfl, hc, hrest⟩ := h
  refine List.forall_mem_cons.2
    ⟨IsWordLike.not_isBlank (.inl ?_), fun d hd => (hrest d hd).not_isBlank⟩
  unfold Char.isAlphanum Char.isAlpha
  simp [hc]

/-- Every path of constants is a name. -/
theorem IsConstantPath.isName (h : IsConstantPath s) : Text.IsName s := by
  obtain ⟨segments, hne, hnames, hs⟩ := h
  apply isName_of_not_isBlank
  · rintro rfl
    cases segments with
    | nil => contradiction
    | cons segment rest =>
        obtain ⟨c, more, rfl, -⟩ := (List.forall_mem_cons.1 hnames).1
        cases rest <;> simp [List.intercalate_cons_cons] at hs
  · intro c hc
    rw [hs] at hc
    obtain hcolon | ⟨segment, hsegment, hc⟩ := Text.mem_intercalate hc
    · obtain rfl : c = ':' := by simpa using hcolon
      rfl
    · exact (hnames segment hsegment).not_isBlank c hc

end Configuration

/-! ## Valid configurations -/

/-- Settings with a target that exists and with names of their kinds. -/
structure Settings.IsValid (settings : Settings) : Prop where
  target : ∃ target ∈ Target.all, target.name = settings.target
  package : Configuration.IsIdentifier settings.package
  fetchLibrary : Text.IsName settings.fetchLibrary
  tags : ∀ tags, settings.tags = some tags → tags ≠ [] ∧ ∀ tag ∈ tags, Text.IsName tag
  rubyModule : Configuration.IsConstantPath settings.rubyModule
  rubyClass : Configuration.IsConstantPath settings.rubyClass

/-- A path from the root. -/
structure Path.IsPlace (p : Path) : Prop where
  absolute : p.isAbsolute = true
  proper : p.IsProper

namespace Configuration

/-- A configuration with valid settings and with paths from the root. -/
structure IsValid (c : Configuration) : Prop where
  settings : c.settings.IsValid
  schemaPath : c.schemaPath.IsPlace
  outputPath : ∀ p, c.outputPath = some p → p.IsPlace

variable {s : String} {key : String} {v : Value} {base : Path} {path : Option Path}
  {c : Configuration}

/-! ### Single settings -/

/-- A text that the reader requires is a name. -/
theorem isName_of_requiredText (h : requiredText key v = .ok s) : Text.IsName s := by
  unfold requiredText at h
  split at h
  · simp only at h
    split at h
    · contradiction
    · next hne =>
      cases h
      exact Text.isName_trim (by simpa using hne)
  · contradiction

/-- A name is read as it stands where a text is required. -/
theorem requiredText_of_isName (key : String) (h : Text.IsName s) :
    requiredText key (.text s) = .ok s := by
  simp [requiredText, Text.trim_eq_self h.trimmed, h.nonempty]

/-- A checked text is a required one that passes its check. -/
theorem checkedText_eq_ok_iff {p : String → Bool} {fault : String → ConfigurationError} :
    (requiredText key v >>= fun text => if p text then pure text else throw (fault text)) = .ok s ↔
      requiredText key v = .ok s ∧ p s = true := by
  rw [bind_eq_ok_iff]
  constructor
  · rintro ⟨text, htext, h⟩
    split at h
    · next hp =>
      cases h
      exact ⟨htext, hp⟩
    · contradiction
  · rintro ⟨htext, hp⟩
    exact ⟨s, htext, by rw [if_pos hp]; rfl⟩

/-- A target is read where its name is a known one. -/
theorem targetName_eq_ok_iff :
    targetName v = .ok s ↔ requiredText "target" v = .ok s ∧ (Target.ofName? s).isSome = true :=
  checkedText_eq_ok_iff (p := fun s => (Target.ofName? s).isSome)

/-- An identifier is read where the text is one. -/
theorem identifier_eq_ok_iff :
    identifier key v = .ok s ↔ requiredText key v = .ok s ∧ IsIdentifier s := by
  rw [← isIdentifier_iff]
  exact checkedText_eq_ok_iff

/-- A constant is read where the text is a path of constants. -/
theorem constant_eq_ok_iff :
    constant key v = .ok s ↔ requiredText key v = .ok s ∧ IsConstantPath s := by
  rw [← isConstant_iff]
  exact checkedText_eq_ok_iff

/-- The known targets are those of the list. -/
theorem ofName?_isSome_iff :
    (Target.ofName? s).isSome = true ↔ ∃ target ∈ Target.all, target.name = s := by
  simp [Target.ofName?]

/-- Targets are called by names. -/
theorem isName_of_target (h : ∃ target ∈ Target.all, target.name = s) : Text.IsName s := by
  obtain ⟨target, htarget, rfl⟩ := h
  revert target
  decide

/-- Tags that are read are names, and there is one at least. -/
theorem valid_of_trimmedTags {texts : List String} {read : Option (List String)}
    (h : trimmedTags texts = .ok read) :
    ∀ tags, read = some tags → tags ≠ [] ∧ ∀ tag ∈ tags, Text.IsName tag := by
  unfold trimmedTags at h
  split at h
  · contradiction
  · next hne =>
    cases h
    intro tags htags
    obtain rfl := Option.some.inj htags
    refine ⟨hne, fun tag htag => ?_⟩
    obtain ⟨hmem, hfull⟩ := List.mem_filter.1 htag
    obtain ⟨text, -, rfl⟩ := List.mem_map.1 hmem
    exact Text.isName_trim (by simpa using hfull)

/-- Tags that are read are not blank, and there are some. -/
theorem valid_of_tags {read : Option (List String)} (h : tags v = .ok read) :
    ∀ tags, read = some tags → tags ≠ [] ∧ ∀ tag ∈ tags, Text.IsName tag := by
  unfold Configuration.tags at h
  split at h
  · cases h
    simp
  · exact valid_of_trimmedTags h
  · split at h
    · contradiction
    · split at h
      · contradiction
      · exact valid_of_trimmedTags h

/-- The text of a path from the root leads to that path. -/
theorem locate_of_read [Encoding] {p : Path} (hread : Path.ofString s = p) (h : p.isAbsolute = true)
    (base : Path) : locate base s = .ok p := by
  rw [locate, hread]
  simp only [h, if_true]

/-- A path is resolved exactly where the joined path has no fault. -/
theorem resolved_eq_ok_iff [Encoding] {p q : Path} :
    resolved base p = .ok q ↔ (base.join p).fault? = none ∧ base.resolve p = q := by
  unfold resolved
  cases (base.join p).fault? <;> simp

/-- What is located from a proper base is a place. -/
theorem isPlace_of_locate [Encoding] (hbase : base.IsProper) {p : Path}
    (h : locate base s = .ok p) : p.IsPlace := by
  unfold locate at h
  simp only at h
  split at h
  · next habsolute =>
    cases h
    exact ⟨habsolute, Path.isProper_ofString s⟩
  · obtain ⟨-, rfl⟩ := resolved_eq_ok_iff.1 h
    exact ⟨rfl, hbase.resolve (Path.isProper_ofString s)⟩

/-- What is stated about a configuration is valid. -/
theorem settings_of_stated {sections : Sections} {schema : String} {output : Option String}
    {settings : Settings} (h : stated sections = .ok (schema, output, settings)) :
    settings.IsValid := by
  simp only [stated, bind_eq_ok_iff, pure_eq_ok, Except.ok.injEq, Prod.mk.injEq,
    targetName_eq_ok_iff, identifier_eq_ok_iff, constant_eq_ok_iff, ofName?_isSome_iff] at h
  obtain ⟨_, -, _, -, target, ⟨-, htarget⟩, package, ⟨-, hpackage⟩, fetchLibrary, hfetch, tags,
    htags, validate, -, rubyModule, ⟨-, hmodule⟩, rubyClass, ⟨-, hclass⟩, -, -, rfl⟩ := h
  exact ⟨htarget, hpackage, isName_of_requiredText hfetch, valid_of_tags htags, hmodule, hclass⟩

/-- What data and options describe is valid. -/
theorem isValid_of_ofEntries [Encoding] (hbase : base.IsProper) {values options : Entries}
    (h : ofEntries base path values options = .ok c) : c.path = path ∧ c.IsValid := by
  simp only [ofEntries_eq_bind, bind_eq_ok_iff, Except.ok.injEq] at h
  obtain ⟨_, -, ruby, -, ⟨schema, output, settings⟩, hstated, schemaPath, hschema, outputPath,
    houtput, rfl⟩ := h
  refine ⟨rfl, settings_of_stated hstated, isPlace_of_locate hbase hschema, ?_⟩
  rintro p rfl
  cases output with
  | none => cases houtput
  | some text =>
      obtain ⟨found, hfound, heq⟩ :=
        map_eq_ok_iff.1 (show (locate base text).map some = _ from houtput)
      cases heq
      exact isPlace_of_locate hbase hfound

/-! ### Data for a valid configuration -/

/-- The spelling of a place is a name. -/
theorem isName_spelled {p : Path} (h : p.IsPlace) : Text.IsName p.spelled := by
  have hend : p.spelled.toList.getLast? = some '.' := by
    rw [Path.toList_spelled, ← List.append_assoc, List.getLast?_concat]
  have hstart : p.spelled.toList.head? = some '/' := by
    have habsolute := h.absolute
    rw [Path.toList_spelled]
    cases hp : p.start with
    | here => simp [Path.isAbsolute, hp] at habsolute
    | root => rfl
    | doubleRoot => rfl
  refine ⟨⟨?_, ?_⟩, ?_⟩
  · rw [hstart]
    intro c hc
    obtain rfl := Option.some.inj hc
    rfl
  · rw [Text.EndsSolid, hend]
    intro c hc
    obtain rfl := Option.some.inj hc
    rfl
  · rintro hempty
    simp [hempty] at hend

/-- A place is located again from its spelling, whatever the base. -/
theorem locate_spelled [Encoding] {p : Path} (h : p.IsPlace) (base : Path) :
    locate base p.spelled = .ok p :=
  locate_of_read (Path.ofString_spelled h.proper) h.absolute base

/-- The section on Ruby of some settings. -/
def rubyToEntries (settings : Settings) : Entries :=
  Entries.ofTexts [("module", .text settings.rubyModule), ("class", .text settings.rubyClass)]

/-- Data that describe a configuration: its settings, each under its key. -/
def toEntries (c : Configuration) : Entries :=
  Entries.ofTexts
    [("schema", .text c.schemaPath.spelled),
     ("target", .text c.settings.target),
     ("output", c.outputPath.elim .null fun p => .text p.spelled),
     ("package", .text c.settings.package),
     ("fetch_library", .text c.settings.fetchLibrary),
     ("tags", c.settings.tags.elim .null Value.ofTexts),
     ("validate", c.settings.validate.elim .null .bool),
     ("ruby", .map (rubyToEntries c.settings))]

/-- Valid tags are read back, and so is their absence. -/
theorem tags_elim {given : Option (List String)}
    (h : ∀ tags, given = some tags → tags ≠ [] ∧ ∀ tag ∈ tags, Text.IsName tag) :
    tags (given.elim .null Value.ofTexts) = .ok given := by
  cases given with
  | none => rfl
  | some texts =>
      obtain ⟨hne, hnames⟩ := h texts rfl
      have htrim : texts.map Text.trim = texts :=
        (List.map_congr_left fun text htext => Text.trim_eq_self (hnames text htext).trimmed).trans
          (List.map_id texts)
      have hfilter : texts.filter (!·.isEmpty) = texts :=
        List.filter_eq_self.2 fun text htext => by simpa using (hnames text htext).nonempty
      simp only [Option.elim_some, Value.ofTexts, Configuration.tags, Value.items?,
        Value.mapM_text?, trimmedTags, htrim, hfilter]

/-- The spelling of an output is read back, and so is its absence. -/
theorem optionalText_elim {output : Option Path} (h : ∀ p, output = some p → p.IsPlace)
    (key : String) :
    optionalText key (output.elim .null fun p => .text p.spelled) =
      .ok (output.map Path.spelled) := by
  cases output with
  | none => rfl
  | some p =>
      have hname := isName_spelled (h p rfl)
      simp [optionalText, Text.trim_eq_self hname.trimmed, hname.nonempty]

/-- An output is located again from its spelling. -/
theorem mapM_locate_spelled [Encoding] {output : Option Path} (h : ∀ p, output = some p → p.IsPlace)
    (base : Path) : (output.map Path.spelled).mapM (locate base) = .ok output := by
  cases output with
  | none => rfl
  | some p => simp [locate_spelled (h p rfl)]

/-- A truth value is read back, and so is its absence. -/
theorem optionalBool_elim (key : String) (b : Option Bool) :
    optionalBool key (b.elim .null .bool) = .ok b := by
  cases b <;> rfl

/-- A valid configuration is read back from the entries it is written as. -/
theorem stated_toEntries (h : c.IsValid) :
    stated ⟨c.toEntries, rubyToEntries c.settings⟩ =
      .ok (c.schemaPath.spelled, c.outputPath.map Path.spelled, c.settings) := by
  have hschema : requiredText "schema" (Entries.get c.toEntries "schema") = .ok _ :=
    requiredText_of_isName _ (isName_spelled h.schemaPath)
  have houtput : optionalText "output" (Entries.get c.toEntries "output") = .ok _ :=
    optionalText_elim h.outputPath _
  have htarget : targetName (Entries.get c.toEntries "target") = .ok _ :=
    targetName_eq_ok_iff.2 ⟨requiredText_of_isName _ (isName_of_target h.settings.target),
      ofName?_isSome_iff.2 h.settings.target⟩
  have hpackage : identifier "package" (getD c.toEntries "package" "api") = .ok _ :=
    identifier_eq_ok_iff.2 ⟨requiredText_of_isName _ h.settings.package.isName, h.settings.package⟩
  have hfetch : requiredText "fetch_library"
      (getD c.toEntries "fetch_library" "node-fetch") = .ok _ :=
    requiredText_of_isName _ h.settings.fetchLibrary
  have htags : tags (Entries.get c.toEntries "tags") = .ok _ := tags_elim h.settings.tags
  have hvalidate : optionalBool "validate" (Entries.get c.toEntries "validate") = .ok _ :=
    optionalBool_elim _ c.settings.validate
  have hconstant {s : String} (key : String) (hs : IsConstantPath s) :
      constant key (.text s) = .ok s :=
    constant_eq_ok_iff.2 ⟨requiredText_of_isName _ hs.isName, hs⟩
  have hmodule : constant "ruby.module"
      (getD (rubyToEntries c.settings) "module" "Api") = .ok _ := hconstant _ h.settings.rubyModule
  have hclass : constant "ruby.class"
      (getD (rubyToEntries c.settings) "class" "Client") = .ok _ := hconstant _ h.settings.rubyClass
  simp only [stated, hschema, houtput, htarget, hpackage, hfetch, htags, hvalidate, hmodule, hclass,
    ok_bind, pure_eq_ok]

/-- Data of a valid configuration describe it. -/
theorem ofEntries_toEntries [Encoding] (h : c.IsValid) (base : Path) :
    ofEntries base c.path c.toEntries [] = .ok c := by
  have hkeys : checkKeys c.toEntries = .ok () := checkKeys_eq_ok_iff.2 rfl
  have hruby : section? "ruby" (Entries.get c.toEntries "ruby") =
      .ok (rubyToEntries c.settings) := rfl
  rw [ofEntries_eq_bind, hkeys, ok_bind, hruby, ok_bind, List.foldl_nil, stated_toEntries h,
    ok_bind, locate_spelled h.schemaPath, ok_bind, mapM_locate_spelled h.outputPath, ok_bind]

/-- A document for a target that exists fails, if it does, on the way to its text. -/
theorem generate_ne_unknownTarget {settings : Settings} (h : settings.IsValid) (schema : Schema)
    (name : String) : (schema.generate settings).outcome ≠ .error (.unknownTarget name) := by
  have hfails : FailsOnly (fun e => ∃ emission, e = DocumentError.emission emission)
      (schema.generate settings).outcome := by
    obtain ⟨target, htarget⟩ := Option.isSome_iff_exists.1 (ofName?_isSome_iff.2 h.target)
    simp only [Schema.generate, htarget, Noted.outcome_bind, Noted.outcome_lift, Noted.outcome_note,
      Noted.outcome_mapError, Noted.outcome_mapNotices, Noted.outcome_pure]
    refine FailsOnly.bind (.mapError fun _ _ => ⟨_, rfl⟩) fun _ _ => ?_
    refine FailsOnly.bind (.ok ()) fun _ _ => ?_
    refine FailsOnly.bind (.mapError fun _ _ => ⟨_, rfl⟩) fun _ _ => ?_
    refine FailsOnly.bind (.mapError fun _ _ => ⟨_, rfl⟩) fun _ _ => ?_
    exact FailsOnly.bind (.ok ()) fun _ _ => .ok _
  intro heq
  obtain ⟨emission, hemission⟩ := hfails _ heq
  contradiction

/-- **Accepted configurations are the valid ones.**  What data and options describe, seen from any
directory, is a valid configuration, and every valid configuration is described by some data.  No
document of any schema fails under its settings for an unknown target. -/
theorem exists_ofEntries_iff [Encoding] (hbase : base.IsProper) (path : Option Path)
    (c : Configuration) :
    ((∃ values options, ofEntries base path values options = .ok c) ↔ c.path = path ∧ c.IsValid) ∧
      (c.IsValid → ∀ (schema : Schema) (name : String),
        (schema.generate c.settings).outcome ≠ .error (.unknownTarget name)) := by
  refine ⟨⟨?_, ?_⟩, fun h => generate_ne_unknownTarget h.settings⟩
  · rintro ⟨values, options, h⟩
    exact isValid_of_ofEntries hbase h
  · rintro ⟨rfl, h⟩
    exact ⟨_, _, ofEntries_toEntries h base⟩

/-- Data with blanks and a line break around what they say. -/
def looseValues : Entries :=
  Entries.ofTexts
    [("schema", .text " ../shop.yaml\n"), ("target", .text "ruby-client "),
     ("package", .text "api_2\n"), ("tags", .text "json, , yaml"),
     ("ruby", .map (Entries.ofTexts [("module", .text "Shop::V1\n")]))]

/-- What they describe. -/
def looseConfiguration : Configuration where
  path := none
  schemaPath := Path.ofString "/shop.yaml"
  outputPath := none
  settings := { target := "ruby-client", package := "api_2", tags := some ["json", "yaml"]
                rubyModule := "Shop::V1" }

open scoped Host in
theorem loose_exists_ofEntries_iff :
    (Path.ofString "/work").IsProper ∧
      ofEntries (Path.ofString "/work") none looseValues [] = .ok looseConfiguration ∧
      looseConfiguration.IsValid ∧ ∀ (schema : Schema) (name : String),
        (schema.generate looseConfiguration.settings).outcome ≠ .error (.unknownTarget name) := by
  have hbase : (Path.ofString "/work").IsProper := Path.isProper_ofString _
  have hok : ofEntries (Path.ofString "/work") none looseValues [] = .ok looseConfiguration := rfl
  obtain ⟨hiff, htarget⟩ := exists_ofEntries_iff hbase none looseConfiguration
  have hvalid := (hiff.1 ⟨_, _, hok⟩).2
  exact ⟨hbase, hok, hvalid, htarget hvalid⟩

end Configuration

end RpcBindings
