import RpcBindings.Configuration.Reader
import RpcBindings.Proofs.Outcome

/-!
# RpcBindings.Proofs.Configuration.Faults

What readers of configurations do not provide for.  Every setting is refused with
a cause that names it; what breaks a reader off is a key that is no text among
those that no configuration has, and a path that is to start at a directory and
cannot be handed to the operating system (`ofEntries_unprovided_iff`).
-/

namespace RpcBindings

/-- A text. -/
def Value.IsText (v : Value) : Prop := ∃ s, v = .text s

namespace Configuration

variable {base : Path} {path : Option Path} {values options : Entries} {s : Sections}
  {key : Value} {keys : List Value} {name : String} {v : Value} {e : ConfigurationError}

/-! ## Keys -/

/-- Keys are read as texts exactly where each of them is one. -/
theorem mapM_text?_isSome_iff : (keys.mapM Value.text?).isSome ↔ ∀ k ∈ keys, k.IsText := by
  induction keys with
  | nil => simp
  | cons k rest ih =>
      rw [List.forall_mem_cons, ← ih, List.mapM_cons]
      cases k with
      | text s => cases rest.mapM Value.text? <;> simp [Value.text?, Value.IsText]
      | _ => simp [Value.text?, Value.IsText]

/-- Keys without an order are never provided for. -/
theorem isProvidedFor_of_orderFault? {next : Value} (h : orderFault? key next = some e) :
    e.isProvidedFor = false := by
  unfold orderFault? at h
  split at h
  all_goals try split at h
  all_goals cases h
  all_goals rfl

/-- Unknown keys are told to the user just where all of them are texts. -/
theorem isProvidedFor_unknownKeysError_iff (key : Value) (keys : List Value) :
    (unknownKeysError key keys).isProvidedFor = true ↔ ∀ k ∈ key :: keys, k.IsText := by
  rw [← mapM_text?_isSome_iff]
  unfold unknownKeysError
  cases (key :: keys).mapM Value.text? with
  | some texts => exact iff_of_true rfl rfl
  | none =>
      refine iff_of_false ?_ (by simp)
      rw [Bool.not_eq_true]
      simp only
      split
      · next fault hfault =>
        obtain ⟨pair, -, hpair⟩ := List.exists_of_findSome?_eq_some hfault
        exact isProvidedFor_of_orderFault? hpair
      · rfl

/-- Keys are accepted where all are known. -/
theorem checkKeys_eq_ok_iff : checkKeys values = .ok () ↔ unknownKeys values = [] := by
  unfold checkKeys
  split <;> simp_all

/-- The check of keys fails unprovided for exactly where an unknown key is no text. -/
theorem checkKeys_unprovided_iff :
    (∃ e, checkKeys values = .error e ∧ e.isProvidedFor = false) ↔
      ∃ k ∈ unknownKeys values, ¬ k.IsText := by
  unfold checkKeys
  cases unknownKeys values with
  | nil => simp
  | cons key keys =>
      have hiff := not_congr (isProvidedFor_unknownKeysError_iff key keys)
      rw [Bool.not_eq_true] at hiff
      simpa [imp_iff_not_or] using hiff

/-! ## Settings -/

/-- Whatever goes wrong is provided for. -/
abbrev FailsInOrder {α : Type} (x : Except ConfigurationError α) : Prop :=
  FailsOnly (fun e => e.isProvidedFor = true) x

theorem failsInOrder_section? (name : String) (v : Value) : FailsInOrder (section? name v) := by
  unfold section?
  split
  · exact .ok _
  · exact .ok _
  · exact .error rfl

theorem failsInOrder_requiredText (name : String) (v : Value) :
    FailsInOrder (requiredText name v) := by
  unfold requiredText
  split
  · simp only
    split
    · exact .error rfl
    · exact .ok _
  · exact .error rfl

theorem failsInOrder_optionalText (name : String) (v : Value) :
    FailsInOrder (optionalText name v) := by
  unfold optionalText
  split
  · exact .ok _
  · exact .ok _
  · exact .error rfl

theorem failsInOrder_optionalBool (name : String) (v : Value) :
    FailsInOrder (optionalBool name v) := by
  unfold optionalBool
  split
  · exact .ok _
  · exact .ok _
  · exact .error rfl

/-- A text with a condition on it. -/
theorem failsInOrder_checkedText {p : String → Bool} {fault : String → ConfigurationError}
    (hfault : ∀ text, (fault text).isProvidedFor = true) (name : String) (v : Value) :
    FailsInOrder (requiredText name v >>= fun text =>
      if p text then pure text else throw (fault text)) := by
  refine (failsInOrder_requiredText name v).bind fun text _ => ?_
  split
  · exact .ok _
  · exact .error (hfault text)

theorem failsInOrder_trimmedTags (texts : List String) : FailsInOrder (trimmedTags texts) := by
  unfold trimmedTags
  split
  · exact .error rfl
  · exact .ok _

theorem failsInOrder_tags (v : Value) : FailsInOrder (tags v) := by
  unfold tags
  split
  · exact .ok _
  · exact failsInOrder_trimmedTags _
  · split
    · exact .error rfl
    · split
      · exact .error rfl
      · exact failsInOrder_trimmedTags _

/-- What settings say, before any path among them is found: the text of the path of the schema, that
of the path of the output if there is one, and the settings of the generator. -/
def stated (s : Sections) : Except ConfigurationError (String × Option String × Settings) := do
  let schema ← requiredText "schema" (Entries.get s.top "schema")
  let output ← optionalText "output" (Entries.get s.top "output")
  let target ← targetName (Entries.get s.top "target")
  let package ← identifier "package" (getD s.top "package" "api")
  let fetchLibrary ← requiredText "fetch_library" (getD s.top "fetch_library" "node-fetch")
  let tags ← tags (Entries.get s.top "tags")
  let validate ← optionalBool "validate" (Entries.get s.top "validate")
  let rubyModule ← constant "ruby.module" (getD s.ruby "module" "Api")
  let rubyClass ← constant "ruby.class" (getD s.ruby "class" "Client")
  return (schema, output,
    { target, package, fetchLibrary, tags, validate, rubyModule, rubyClass })

/-- Reading the statements of a configuration fails only in ways that are provided for. -/
theorem failsInOrder_stated (s : Sections) : FailsInOrder (stated s) := by
  refine (failsInOrder_requiredText _ _).bind fun schema _ => ?_
  refine (failsInOrder_optionalText _ _).bind fun output _ => ?_
  refine (failsInOrder_checkedText (fun _ => rfl) _ _).bind fun target _ => ?_
  refine (failsInOrder_checkedText (fun _ => rfl) _ _).bind fun package _ => ?_
  refine (failsInOrder_requiredText _ _).bind fun fetchLibrary _ => ?_
  refine (failsInOrder_tags _).bind fun tags _ => ?_
  refine (failsInOrder_optionalBool _ _).bind fun validate _ => ?_
  refine (failsInOrder_checkedText (fun _ => rfl) _ _).bind fun rubyModule _ => ?_
  exact (failsInOrder_checkedText (fun _ => rfl) _ _).bind fun rubyClass _ => .ok _

/-- Settings describe a configuration once the paths that they state are found. -/
theorem ofSections_eq_bind [Encoding] (base : Path) (path : Option Path) (s : Sections) :
    ofSections base path s =
      stated s >>= fun (schema, output, settings) => do
        let schemaPath ← locate base schema
        let outputPath ← output.mapM (locate base)
        return { path, schemaPath, outputPath, settings } := by
  simp only [ofSections, stated, bind_assoc, pure_bind]

/-! ## Paths -/

section

variable [Encoding]

/-- A path that starts at a directory, and as seen from there cannot be handed to the operating
system. -/
structure IsLost (base : Path) (s : String) : Prop where
  relative : (Path.ofString s).isAbsolute = false
  unfit : (base.join (Path.ofString s)).fault?.isSome

/-- A path is not resolved exactly where the joined path is at fault. -/
theorem resolved_eq_error_iff {q : Path} :
    resolved base q = .error e ↔ ∃ fault, (base.join q).fault? = some fault ∧
      e = .unfitPath fault := by
  unfold resolved
  cases (base.join q).fault? with
  | none => simp
  | some fault => simp [eq_comm]

/-- A text is not located exactly where it is relative and unfit, joined to the base. -/
theorem locate_eq_error_iff {text : String} :
    locate base text = .error e ↔ (Path.ofString text).isAbsolute = false ∧
      ∃ fault, (base.join (Path.ofString text)).fault? = some fault ∧ e = .unfitPath fault := by
  unfold locate
  simp only
  split <;> simp_all [resolved_eq_error_iff]

/-- A path does not come out just where it is lost. -/
theorem exists_locate_eq_error_iff {text : String} :
    (∃ e, locate base text = .error e) ↔ IsLost base text := by
  simp only [locate_eq_error_iff]
  constructor
  · rintro ⟨e, hrelative, fault, hfault, -⟩
    exact ⟨hrelative, Option.isSome_of_mem hfault⟩
  · rintro ⟨hrelative, hunfit⟩
    obtain ⟨fault, hfault⟩ := Option.isSome_iff_exists.1 hunfit
    exact ⟨_, hrelative, fault, hfault, rfl⟩

/-- Paths that do not come out are not provided for. -/
theorem isProvidedFor_of_locate {text : String} (h : locate base text = .error e) :
    e.isProvidedFor = false := by
  obtain ⟨-, fault, -, rfl⟩ := locate_eq_error_iff.1 h
  rfl

end

/-- What is stated about a configuration: by its data, which have known keys only, and by the
options that are written over them. -/
def States (values options : Entries) (schema : String) (output : Option String)
    (settings : Settings) : Prop :=
  unknownKeys values = [] ∧ ∃ ruby, section? "ruby" (Entries.get values "ruby") = .ok ruby ∧
    stated (options.foldl Sections.override ⟨values, ruby⟩) = .ok (schema, output, settings)

section

variable [Encoding]

/-- A configuration is checked for its keys, read, and located, in this order. -/
theorem ofEntries_eq_bind (base : Path) (path : Option Path) (values options : Entries) :
    ofEntries base path values options =
      checkKeys values >>= fun _ => section? "ruby" (Entries.get values "ruby") >>= fun ruby =>
      stated (options.foldl Sections.override ⟨values, ruby⟩) >>= fun said =>
      locate base said.1 >>= fun schemaPath =>
      said.2.1.mapM (locate base) >>= fun outputPath =>
      .ok { path, schemaPath, outputPath, settings := said.2.2 } := by
  simp only [ofEntries, ofSections_eq_bind, pure_eq_ok]

/-- The target of a configuration exists. -/
theorem target_of_ofEntries {c : Configuration} (h : ofEntries base path values options = .ok c) :
    ∃ target, Target.ofName? c.settings.target = some target := by
  rw [ofEntries_eq_bind] at h
  simp only [stated, targetName, bind_eq_ok_iff, pure_eq_ok, Except.ok.injEq] at h
  obtain ⟨_, -, ruby, -, said, hsaid, schemaPath, -, outputPath, -, rfl⟩ := h
  obtain ⟨schema, -, output, -, name, ⟨text, -, hname⟩, hrest⟩ := hsaid
  obtain ⟨package, -, fetchLibrary, -, tags, -, validate, -, rubyModule, -, rubyClass, -, rfl⟩ :=
    hrest
  split at hname
  · next hknown =>
    cases hname
    exact Option.isSome_iff_exists.1 hknown
  · contradiction

/-- An output is not located exactly where it is given and its text is not. -/
theorem mapM_locate_eq_error_iff {output : Option String} :
    output.mapM (locate base) = .error e ↔
      ∃ text, output = some text ∧ locate base text = .error e := by
  cases output with
  | none => simp
  | some text =>
      have hmap : (some text).mapM (locate base) = (locate base text).map some := rfl
      rw [hmap, map_eq_error_iff]
      simp

/-- What breaks the reader of a configuration off. -/
inductive BreaksReader (base : Path) (values options : Entries) : Prop where
  /-- A key that no configuration has is no text. -/
  | key {key : Value} (hkey : key ∈ unknownKeys values) (h : ¬ key.IsText) :
    BreaksReader base values options
  /-- A path that is stated does not come out. -/
  | path {schema text : String} {output : Option String} {settings : Settings}
    (hstates : States values options schema output settings)
    (htext : text = schema ∨ output = some text) (h : IsLost base text) :
    BreaksReader base values options

/-- **What breaks a reader off.**  A configuration is refused with a cause that is not provided for
just where one of its own keys is unknown and no text, or where a path that it states, all else in
order, does not come out. -/
theorem ofEntries_unprovided_iff (base : Path) (path : Option Path) (values options : Entries) :
    (∃ e, ofEntries base path values options = .error e ∧ e.isProvidedFor = false) ↔
      BreaksReader base values options := by
  rw [ofEntries_eq_bind]
  constructor
  · rintro ⟨e, he, hunprovided⟩
    rw [bind_eq_error_iff] at he
    obtain hkeys | ⟨_, hkeys, he⟩ := he
    · obtain ⟨key, hkey, htext⟩ := checkKeys_unprovided_iff.1 ⟨e, hkeys, hunprovided⟩
      exact .key hkey htext
    · have hinOrder : e.isProvidedFor ≠ true := by simp [hunprovided]
      rw [bind_eq_error_iff] at he
      obtain hsection | ⟨ruby, hruby, he⟩ := he
      · exact absurd (failsInOrder_section? _ _ e hsection) hinOrder
      · rw [bind_eq_error_iff] at he
        obtain hstated | ⟨⟨schema, output, settings⟩, hstated, he⟩ := he
        · exact absurd (failsInOrder_stated _ e hstated) hinOrder
        · have hstates : States values options schema output settings :=
            ⟨checkKeys_eq_ok_iff.1 hkeys, ruby, hruby, hstated⟩
          rw [bind_eq_error_iff] at he
          obtain hschema | ⟨schemaPath, -, he⟩ := he
          · exact .path hstates (.inl rfl) (exists_locate_eq_error_iff.1 ⟨e, hschema⟩)
          · simp only [bind_eq_error_iff, reduceCtorEq, and_false, exists_false, or_false,
              mapM_locate_eq_error_iff] at he
            obtain ⟨text, houtput, htext⟩ := he
            exact .path hstates (.inr houtput) (exists_locate_eq_error_iff.1 ⟨e, htext⟩)
  · intro hbreaks
    cases hbreaks with
    | key hkey h =>
        obtain ⟨e, he, hunprovided⟩ := checkKeys_unprovided_iff.2 ⟨_, hkey, h⟩
        exact ⟨e, bind_eq_error_iff.2 (.inl he), hunprovided⟩
    | @path schema text output settings hstates htext h =>
        obtain ⟨hkeys, ruby, hruby, hstated⟩ := hstates
        obtain ⟨e, hlost⟩ := exists_locate_eq_error_iff.2 h
        rw [checkKeys_eq_ok_iff.2 hkeys, ok_bind, hruby, ok_bind, hstated, ok_bind]
        cases hschema : locate base schema with
        | error e => exact ⟨e, bind_eq_error_iff.2 (.inl rfl), isProvidedFor_of_locate hschema⟩
        | ok schemaPath =>
            obtain rfl | houtput := htext
            · rw [hlost] at hschema
              contradiction
            · have hmap := mapM_locate_eq_error_iff.2 ⟨text, houtput, hlost⟩
              refine ⟨e, ?_, isProvidedFor_of_locate hlost⟩
              rw [ok_bind]
              exact bind_eq_error_iff.2 (.inl hmap)

end

end Configuration

end RpcBindings
