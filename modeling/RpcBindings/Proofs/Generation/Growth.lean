import RpcBindings.Proofs.Generation.Declared

/-!
# RpcBindings.Proofs.Generation.Growth

Validation and clients only add to documents.  Whatever document there is with them,
there is one without them, from the same outline less what they ask for; so its lines
are some of the lines of the other, and where only the client is missing it is what
the other begins with (`generate_growth`).
-/

namespace RpcBindings

/-! ## Settings -/

/-- The settings for a target, with or without validation, or as is usual for it. -/
def Settings.retarget (settings : Settings) (target : Target) (validate : Option Bool) :
    Settings :=
  { settings with target := target.name, validate := validate }

/-- Settings for another target name that target. -/
theorem Target.ofName?_retarget {target : Target} (h : target ∈ all) (settings : Settings)
    (validate : Option Bool) :
    ofName? (settings.retarget target validate).target = some target := by
  simp only [all, List.mem_cons, List.not_mem_nil, or_false] at h
  obtain rfl | rfl | rfl | rfl | rfl | rfl := h <;> rfl

/-- Documents with declarations are not in Ruby. -/
theorem Target.language_ne_ruby {target : Target} (h : target ∈ all)
    (htypes : target.includeTypes = true) : target.language ≠ .ruby := by
  simp only [all, List.mem_cons, List.not_mem_nil, or_false] at h
  obtain rfl | rfl | rfl | rfl | rfl | rfl := h
  · decide
  · decide
  · decide
  · decide
  · decide
  · exact absurd htypes (by decide)

/-- The options for a target ask for no more than those for one with the same
declarations if neither its validation nor its client is new. -/
theorem Settings.within_retarget (less more : Target) {validate validate' : Option Bool}
    (htypes : less.includeTypes = more.includeTypes)
    (hvalidate : validate.getD less.validateByDefault = true →
      validate'.getD more.validateByDefault = true)
    (hclient : less.includeClient = true → more.includeClient = true)
    (settings : Settings) (schema : Schema) :
    ((settings.retarget less validate).options schema less).Within
      ((settings.retarget more validate').options schema more) := by
  refine ⟨?_, hvalidate, hclient⟩
  simp only [options, retarget, htypes]

/-! ## Clients -/

/-- The notice, with the empty line behind it. -/
def noticeText : String := "// " ++ generatedNotice ++ "\n\n"

/-- The draft of this text. -/
def noticeDraft : Draft :=
  [.line 0 ("// " ++ generatedNotice), Draft.emptyLine]

namespace TypeScript

/-- The import of `fetch` in a client, with the empty line behind it. -/
def importText (library : String) : String :=
  "import fetch from " ++ Literal.singleQuoted library ++ "\n\n"

/-- The draft of this text. -/
def importDraft (library : String) : Draft :=
  [.line 0 ("import fetch from " ++ Literal.singleQuoted library), Draft.emptyLine]

/-- The import of a library takes the lines of its text. -/
theorem join_importDraft (unit library : String) :
    String.join ((Draft.spread unit (importDraft library)).map (· ++ "\n")) =
      importText library := by
  have hfeeds : "\n" ++ "\n" = "\n\n" := by decide
  have hspread : Draft.spread unit (importDraft library) =
      ["import fetch from " ++ Literal.singleQuoted library, ""] := by
    simp only [Draft.spread, importDraft, Draft.emptyLine, List.flatMap_cons, List.flatMap_nil,
      Stroke.spread, Stroke.textOf_zero, List.append_nil, List.cons_append, List.nil_append]
  rw [hspread, List.map_cons, List.map_cons, List.map_nil, String.join_cons, String.join_cons,
    String.join_nil, String.empty_append, String.append_empty, String.append_assoc, hfeeds]
  rfl

/-- What stands behind the notice and the import stands behind the notice alone, too. -/
theorem render_client {unit library : String} {body front : Draft}
    (hbody : Draft.Spaced unit body)
    (hclient : Draft.Spaced unit (front ++ [.line 0 "\x7d"])) :
    ∃ rest more,
      Draft.render unit
        (noticeDraft ++ importDraft library ++ (body ++ (front ++ [.line 0 "\x7d"]))) =
          noticeText ++ importText library ++ rest ∧
      noticeText ++ rest = Draft.render unit (noticeDraft ++ body) ++ more := by
  have hnotice : Draft.OnlyLines noticeDraft := by simp [noticeDraft, Draft.emptyLine]
  have himport : Draft.OnlyLines (noticeDraft ++ importDraft library) := by
    simp [noticeDraft, importDraft, Draft.emptyLine]
  have hrest := hbody.append hclient
  have hne : Draft.dropEmptyEnd (Draft.lines unit (body ++ (front ++ [.line 0 "\x7d"]))) ≠ [] := by
    rw [← List.append_assoc]
    exact Language.lines_brace_ne_nil _
  have htext : noticeText =
      String.join ((Draft.spread unit noticeDraft).map (· ++ "\n")) := rfl
  obtain ⟨more, hmore⟩ := Draft.prefix_render
    (Language.lines_notice_ne_nil (by decide : "// " ++ generatedNotice ≠ "")
      (Draft.emptyLine :: body)) (front ++ [.line 0 "\x7d"])
  refine ⟨Draft.render unit (body ++ (front ++ [.line 0 "\x7d"])), more, ?_, ?_⟩
  · rw [Draft.render_append himport.spaced hrest hne, Draft.spread_append, List.map_append,
      String.join_append, ← htext, join_importDraft]
  · rw [htext, ← Draft.render_append hnotice.spaced hrest hne, ← List.append_assoc]
    exact hmore

end TypeScript

section

variable {options options' : Options} (schema : Schema) {outline : Outline}

/-- Declarations that are validated by some options are by others that say the same. -/
theorem Outline.under_eq (hvalidate : options.validate = options'.validate)
    (hunder : outline.under options' = outline) :
    (outline.under options).declarations = outline.declarations := by
  have heq : Declaration.under options = Declaration.under options' := by
    funext d
    rw [Declaration.under, Declaration.under, hvalidate]
  calc (outline.under options).declarations
      = outline.declarations.map (Declaration.under options') := by rw [Outline.under, heq]
    _ = outline.declarations := congrArg Outline.declarations hunder

variable (htypes : options.includeTypes = options'.includeTypes)
  (hvalidate : options.validate = options'.validate) (hclient : options.includeClient = false)
  (hclient' : options'.includeClient = true) (hunder : outline.under options' = outline)
include hvalidate hclient hclient' hunder

include htypes in
/-- A Rust client stands behind the declarations. -/
theorem Rust.draft_client :
    Rust.dialect.draft options' schema outline =
      Rust.dialect.draft options schema (outline.under options) ++
        Rust.dialect.client options' outline.stubs := by
  have hheader : Rust.header options schema = Rust.header options' schema := by
    rw [Rust.header, Rust.header, htypes]
  rw [Dialect.draft, Dialect.draft, Outline.under_eq hvalidate hunder, hclient, hclient',
    if_pos rfl, if_neg Bool.false_ne_true, List.append_nil]
  exact congrArg (· ++ _ ++ _) hheader.symm

/-- A TypeScript client stands behind the declarations as well, and has its import
behind the notice. -/
theorem TypeScript.draft_client :
    ∃ body : Draft, (∀ unit, Draft.Spaced unit body) ∧
      TypeScript.dialect.draft options schema (outline.under options) = noticeDraft ++ body ∧
      TypeScript.dialect.draft options' schema outline =
        noticeDraft ++ importDraft options'.fetchLibrary ++
          (body ++ TypeScript.dialect.client options' outline.stubs) := by
  refine ⟨(if options'.validate && schema.usesKind .timestamp then
      Draft.ready TypeScript.zeroInstant ++ [Draft.emptyLine] else []) ++
    outline.declarations.flatMap (TypeScript.dialect.part options'), fun unit => ?_, ?_, ?_⟩
  · have hpart (d : Declaration) : Draft.Spaced unit (TypeScript.dialect.part options' d) :=
      Language.spaced_part (by decide : Language.typescript ≠ .ruby)
    refine Draft.Spaced.append (Draft.OnlyLines.spaced ?_) (Draft.Spaced.flatMap fun d _ => hpart d)
    split <;> simp [Draft.emptyLine]
  · rw [Dialect.draft, Outline.under_eq hvalidate hunder, hclient, if_neg Bool.false_ne_true,
      List.append_nil]
    simp only [TypeScript.dialect, TypeScript.header, hvalidate, hclient]
    rfl
  · rw [Dialect.draft, hclient', if_pos rfl]
    simp only [TypeScript.dialect, TypeScript.header, hclient', List.append_assoc]
    rfl

end

namespace Schema

section

variable {schema : Schema} {settings : Settings} (less more : Target)
  {validate validate' : Option Bool} {document : String}
  (hless : less ∈ Target.all) (hmore : more ∈ Target.all)
  (hlanguage : less.language = more.language)
  (hwithin : ((settings.retarget less validate).options schema less).Within
    ((settings.retarget more validate').options schema more))
  (hdocument : (schema.generate (settings.retarget more validate')).outcome = .ok document)
include hless hmore hlanguage hwithin hdocument

/-- A document under fewer options is written from the outline of the one under more. -/
theorem generate_within :
    ∃ outline,
      (schema.generate (settings.retarget less validate)).outcome =
        .ok (Draft.render more.language.dialect.indentUnit
          (more.language.dialect.draft ((settings.retarget less validate).options schema less)
            schema (outline.under ((settings.retarget less validate).options schema less)))) ∧
      document = Draft.render more.language.dialect.indentUnit
        (more.language.dialect.draft ((settings.retarget more validate').options schema more)
          schema outline) ∧
      outline.under ((settings.retarget more validate').options schema more) = outline := by
  obtain ⟨hreferences, e', outline, hcreate', houtline', rfl⟩ :=
    (generate_eq_ok_iff (Target.ofName?_retarget hmore _ _)).1 hdocument
  obtain ⟨e, hcreate, hemitter⟩ := Emitter.create_within hwithin hcreate'
  have houtline := Emitter.outline_within hemitter houtline'
  have hunder := Emitter.under_of_outline houtline'
  have hoptions : e.options = _ := (Emitter.owns_of_create hcreate).1.options
  have hoptions' : e'.options = _ := (Emitter.owns_of_create hcreate').1.options
  rw [hoptions] at houtline
  rw [hoptions'] at hunder
  rw [← hlanguage] at hcreate ⊢
  have hplain := (generate_eq_ok_iff (Target.ofName?_retarget hless _ _)).2
    ⟨hreferences, e, _, hcreate, houtline, rfl⟩
  exact ⟨outline, hplain, rfl, hunder⟩

/-- A document with declarations has fewer lines under fewer options. -/
theorem generate_sublist (hruby : more.language ≠ .ruby) :
    ∃ plain, (schema.generate (settings.retarget less validate)).outcome = .ok plain ∧
      (Text.split '\n' plain).Sublist (Text.split '\n' document) := by
  obtain ⟨outline, hplain, rfl, -⟩ :=
    generate_within less more hless hmore hlanguage hwithin hdocument
  exact ⟨_, hplain, Draft.sublist_render (Language.spaced_draft hruby)
    (Language.spaced_draft hruby) (Language.sublist_draft hwithin) Language.lines_draft_ne_nil⟩

end

variable {schema : Schema} {settings : Settings} {validate validate' : Option Bool}
  {document : String}

/-- Without its client a Rust document ends earlier. -/
theorem generate_rustClient
    (hvalidate : validate'.getD Target.rustTypes.validateByDefault =
      validate.getD Target.rustClient.validateByDefault)
    (hdocument :
      (schema.generate (settings.retarget .rustClient validate)).outcome = .ok document) :
    ∃ types more,
      (schema.generate (settings.retarget .rustTypes validate')).outcome = .ok types ∧
      document = types ++ more := by
  have hwithin := Settings.within_retarget .rustTypes .rustClient rfl (fun h => hvalidate ▸ h)
    (by decide) settings schema
  obtain ⟨outline, htypes, rfl, hunder⟩ := generate_within .rustTypes .rustClient
    (by simp [Target.all]) (by simp [Target.all]) rfl hwithin hdocument
  have hdraft := Rust.draft_client schema hwithin.includeTypes hvalidate rfl rfl hunder
  obtain ⟨more, hmore⟩ := Draft.prefix_render
    (Language.lines_draft_ne_nil : Draft.dropEmptyEnd (Draft.lines _
      (Language.rust.dialect.draft _ schema _)) ≠ []) (Dialect.client _ _ _)
  exact ⟨_, more, htypes, (congrArg (Draft.render _) hdraft).trans hmore⟩

/-- Without its client a TypeScript document ends earlier and has no import. -/
theorem generate_typeScriptClient
    (hvalidate : validate'.getD Target.typeScriptTypes.validateByDefault =
      validate.getD Target.typeScriptClient.validateByDefault)
    (hdocument :
      (schema.generate (settings.retarget .typeScriptClient validate)).outcome = .ok document) :
    ∃ types rest more,
      (schema.generate (settings.retarget .typeScriptTypes validate')).outcome = .ok types ∧
      document = noticeText ++ TypeScript.importText settings.fetchLibrary ++ rest ∧
      noticeText ++ rest = types ++ more := by
  have hwithin := Settings.within_retarget .typeScriptTypes .typeScriptClient rfl
    (fun h => hvalidate ▸ h) (by decide) settings schema
  obtain ⟨outline, htypes, rfl, hunder⟩ := generate_within .typeScriptTypes .typeScriptClient
    (by simp [Target.all]) (by simp [Target.all]) rfl hwithin hdocument
  have hclient : ((settings.retarget .typeScriptTypes validate').options schema
      .typeScriptTypes).includeClient = false := rfl
  obtain ⟨body, hbody, hplain, hdraft⟩ :=
    TypeScript.draft_client schema hvalidate hclient rfl hunder
  obtain ⟨rest, more, hdocument, hgrown⟩ := TypeScript.render_client
    (hbody Language.typescript.dialect.indentUnit)
    (Language.spaced_client .typescript
      ((settings.retarget .typeScriptClient validate).options schema .typeScriptClient)
      outline.stubs)
  refine ⟨_, rest, more, htypes, ?_, ?_⟩
  · exact (congrArg (Draft.render _) hdraft).trans hdocument
  · exact hgrown.trans (congrArg (Draft.render _ · ++ more) hplain.symm)

/-- **Validation and clients only add text.**  A document without validation is there
whenever the one with it is, and has some of its lines.  A Rust document without a
client is there whenever the one with it is, which begins with it; so it is in
TypeScript, but for the import behind the notice. -/
theorem generate_growth (schema : Schema) (settings : Settings) :
    (∀ target ∈ Target.all, target.includeTypes = true → ∀ asked declined : Option Bool,
      declined.getD target.validateByDefault = false →
      ∀ document, (schema.generate (settings.retarget target asked)).outcome = .ok document →
        ∃ plain, (schema.generate (settings.retarget target declined)).outcome = .ok plain ∧
          (Text.split '\n' plain).Sublist (Text.split '\n' document)) ∧
    (∀ validate validate' : Option Bool,
      validate'.getD Target.rustTypes.validateByDefault =
        validate.getD Target.rustClient.validateByDefault →
      ∀ document,
        (schema.generate (settings.retarget .rustClient validate)).outcome = .ok document →
        ∃ types more,
          (schema.generate (settings.retarget .rustTypes validate')).outcome = .ok types ∧
          document = types ++ more) ∧
    ∀ validate validate' : Option Bool,
      validate'.getD Target.typeScriptTypes.validateByDefault =
        validate.getD Target.typeScriptClient.validateByDefault →
      ∀ document,
        (schema.generate (settings.retarget .typeScriptClient validate)).outcome = .ok document →
        ∃ types rest more,
          (schema.generate (settings.retarget .typeScriptTypes validate')).outcome = .ok types ∧
          document = noticeText ++ TypeScript.importText settings.fetchLibrary ++ rest ∧
          noticeText ++ rest = types ++ more := by
  refine ⟨?_, ?_, ?_⟩
  · intro target htarget htypes asked declined hdeclined document hdocument
    have hvalidate : declined.getD target.validateByDefault = true →
        asked.getD target.validateByDefault = true := by simp [hdeclined]
    have hwithin := Settings.within_retarget target target rfl hvalidate id settings schema
    exact generate_sublist target target htarget htarget rfl hwithin hdocument
      (Target.language_ne_ruby htarget htypes)
  · exact fun _ _ hvalidate _ => generate_rustClient hvalidate
  · exact fun _ _ hvalidate _ => generate_typeScriptClient hvalidate

theorem forest_generate_growth :
    (∃ document plain,
      (forest.generate (validatedClient.retarget .goTypes (some true))).outcome = .ok document ∧
      (forest.generate (validatedClient.retarget .goTypes (some false))).outcome = .ok plain ∧
      (Text.split '\n' plain).Sublist (Text.split '\n' document)) ∧
    (∃ document types more,
      (forest.generate (validatedClient.retarget .rustClient none)).outcome = .ok document ∧
      (forest.generate (validatedClient.retarget .rustTypes (some false))).outcome = .ok types ∧
      document = types ++ more) ∧
    ∃ document types rest more,
      (forest.generate (validatedClient.retarget .typeScriptClient (some true))).outcome =
        .ok document ∧
      (forest.generate (validatedClient.retarget .typeScriptTypes none)).outcome = .ok types ∧
      document = noticeText ++ TypeScript.importText "node-fetch" ++ rest ∧
      noticeText ++ rest = types ++ more := by
  have hgenerate (target : Target) (htarget : target ∈ Target.all) (validate : Option Bool)
      (h : ∃ e outline,
        Emitter.create target.language forest
          ((validatedClient.retarget target validate).options forest target) = .ok e ∧
        e.outline.outcome = .ok outline) :
      ∃ document,
        (forest.generate (validatedClient.retarget target validate)).outcome = .ok document := by
    obtain ⟨e, outline, hcreate, houtline⟩ := h
    exact ⟨_, (generate_eq_ok_iff (Target.ofName?_retarget htarget _ _)).2
      ⟨by decide, e, outline, hcreate, houtline, rfl⟩⟩
  obtain ⟨hvalidation, hrust, htypeScript⟩ := generate_growth forest validatedClient
  refine ⟨?_, ?_, ?_⟩
  · obtain ⟨document, hdocument⟩ :=
      hgenerate .goTypes (by simp [Target.all]) (some true) ⟨_, _, rfl, rfl⟩
    obtain ⟨plain, hplain⟩ := hvalidation .goTypes (by simp [Target.all]) rfl (some true)
      (some false) rfl document hdocument
    exact ⟨document, plain, hdocument, hplain⟩
  · obtain ⟨document, hdocument⟩ :=
      hgenerate .rustClient (by simp [Target.all]) none ⟨_, _, rfl, rfl⟩
    obtain ⟨types, more, hmore⟩ := hrust none (some false) rfl document hdocument
    exact ⟨document, types, more, hdocument, hmore⟩
  · obtain ⟨document, hdocument⟩ :=
      hgenerate .typeScriptClient (by simp [Target.all]) (some true) ⟨_, _, rfl, rfl⟩
    obtain ⟨types, rest, more, hmore⟩ := htypeScript (some true) none rfl document hdocument
    exact ⟨document, types, rest, more, hdocument, hmore⟩

end Schema

end RpcBindings
