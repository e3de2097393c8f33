import RpcBindings.Proofs.Generation.Ready
import RpcBindings.Proofs.Value.Json

/-!
# RpcBindings.Proofs.Generation.Defaults

When a document fails for a default without a JSON form.  Comments tell the
defaults of fields, in Ruby those of the parameters of methods and elsewhere
those of the fields of all that is declared.  A document of a schema that was
read fails for such a default if the names come out up to it
(`generate_json_iff`).
-/

namespace RpcBindings

namespace Field

/-- The sentences on a field can be written if its default has a JSON form. -/
theorem constraintSentences_isOk_iff (field : Field) :
    (∃ sentences, field.constraintSentences = .ok sentences) ↔ ¬ field.default.Formless := by
  rw [constraintSentences, ← Json.render_isOk_iff]
  cases field.default with
  | null => exact iff_of_true ⟨_, rfl⟩ ⟨_, rfl⟩
  | _ => simp [bind_eq_ok_iff]

/-- A field has a summary exactly where its default has a JSON form. -/
theorem summary_isOk_iff (field : Field) (member : String) :
    (∃ text, field.summary member = .ok text) ↔ ¬ field.default.Formless := by
  rw [← constraintSentences_isOk_iff, summary]
  simp [bind_eq_ok_iff]

end Field

namespace Emitter

variable {e : Emitter} {owner : String} {fields : List Field} {json : JsonError}

/-! ## Members -/

/-- Fields that have types are typed if they are granted their identifiers. -/
theorem typedFields_isOk_iff (scope : Scope)
    (hexpress : ∀ field ∈ fields, ∀ owner, ∃ type,
      e.language.typeSystem.expressField e.schema owner field = .ok type) :
    (∃ typed, e.typedFields owner scope fields = .ok typed) ↔
      ∃ s, scope.claimAll (fields.map (·.name)) = .ok s := by
  induction fields generalizing scope with
  | nil => exact iff_of_true ⟨[], rfl⟩ ⟨scope, rfl⟩
  | cons field rest ih =>
      rw [List.forall_mem_cons] at hexpress
      obtain ⟨type, htype⟩ := hexpress.1 (some owner)
      simp only [typedFields, List.map_cons, Scope.claimAll, htype, ok_bind, bind_eq_ok_iff,
        mapError_eq_ok_iff, pure_eq_ok, Except.ok.injEq]
      constructor
      · rintro ⟨_, granted, hclaim, more, hmore, -⟩
        obtain ⟨s, hs⟩ := (ih granted.2 hexpress.2).1 ⟨more, hmore⟩
        exact ⟨s, granted, hclaim, hs⟩
      · rintro ⟨s, granted, hclaim, hs⟩
        obtain ⟨more, hmore⟩ := (ih granted.2 hexpress.2).2 ⟨s, hs⟩
        exact ⟨_, granted, hclaim, more, hmore, rfl⟩

/-- The identifiers of some fields can be told apart. -/
def NamesFields (e : Emitter) (fields : List Field) : Prop :=
  e.language.Distinguishes .field (e.language.reserved e.options .field) (fields.map (·.name))

/-- The member of a field with its identifier and type. -/
def memberOf (e : Emitter) : Field × String × String → Except EmissionError Member
  | (field, identifier, type) => do
    let summary ← orFail .json (e.summaryOf identifier field)
    return { field, identifier, type, summary }

/-- Members are fields that are typed first and summarized then. -/
theorem members_eq_bind (e : Emitter) (owner : String) (fields : List Field) :
    e.members owner fields =
      orFail .generation (e.typedFields owner (e.fieldScope owner) fields) >>= fun typed =>
        typed.mapM e.memberOf := rfl

/-- A typed field is a member exactly where its default has a JSON form. -/
theorem memberOf_isOk_iff (hlanguage : e.language ≠ .ruby) (t : Field × String × String) :
    (∃ m, e.memberOf t = .ok m) ↔ ¬ t.1.default.Formless := by
  have hsummary : (∃ text, e.summaryOf t.2.1 t.1 = .ok text) ↔ ¬ t.1.default.Formless := by
    unfold summaryOf
    cases hcase : e.language with
    | ruby => contradiction
    | _ => exact t.1.summary_isOk_iff _
  rw [← hsummary]
  simp only [memberOf, orFail, bind_eq_ok_iff, mapError_eq_ok_iff, pure_eq_ok, Except.ok.injEq]
  constructor
  · rintro ⟨_, text, htext, -⟩
    exact ⟨text, htext⟩
  · rintro ⟨text, htext⟩
    exact ⟨_, text, htext, rfl⟩

/-- Typed fields become members if their defaults have JSON forms; no more can be in the way. -/
theorem mapM_memberOf (hlanguage : e.language ≠ .ruby) {typed : List (Field × String × String)}
    (htyped : e.typedFields owner (e.fieldScope owner) fields = .ok typed) :
    ((∃ members, typed.mapM e.memberOf = .ok members) ↔
        ∀ field ∈ fields, ¬ field.default.Formless) ∧
      FailsOnly (fun error => ∃ json, error = EmissionError.json json) (typed.mapM e.memberOf) := by
  have hscope := Scope.extends_reserve (Scope.empty s!"fields of {owner}" e.language .field)
    (e.language.reserved e.options .field)
  have hsources := typedFields_eq_ok hscope.language hscope.role htyped
  constructor
  · rw [mapM_isOk_iff]
    refine (forall_mem_iff_of_forall₂ hsources ?_).symm
    rintro field t ⟨rfl, -, -⟩
    exact (memberOf_isOk_iff hlanguage t).symm
  · exact .mapM fun t _ => FailsOnly.bind (.mapError fun json _ => ⟨json, rfl⟩) fun _ _ => .ok _

namespace IsReady

variable (h : e.IsReady) (hfields : fields ∈ e.schema.fieldLists) (hlanguage : e.language ≠ .ruby)

include h hfields

/-- Fields are typed exactly where the emitter names them. -/
theorem typed_isOk_iff (owner : String) :
    (∃ typed, e.typedFields owner (e.fieldScope owner) fields = .ok typed) ↔
      e.NamesFields fields := by
  rw [typedFields_isOk_iff _ fun field hfield => h.expressField_isOk hfields hfield, fieldScope,
    Scope.claimAll_reserve_isOk_iff]
  rfl

/-- The defaults of fields come into it only where the fields have identifiers. -/
theorem namesFields_of_json (hjson : e.members owner fields = .error (.json json)) :
    e.NamesFields fields := by
  rw [← h.typed_isOk_iff hfields owner]
  rw [members_eq_bind] at hjson
  cases htyped : e.typedFields owner (e.fieldScope owner) fields with
  | error error => simp [htyped, orFail, Except.mapError] at hjson
  | ok typed => exact ⟨typed, rfl⟩

include hlanguage

/-- Fields are members exactly where they are named and their defaults have JSON forms. -/
theorem members_isOk_iff (owner : String) :
    (∃ members, e.members owner fields = .ok members) ↔
      e.NamesFields fields ∧ ∀ field ∈ fields, ¬ field.default.Formless := by
  rw [← h.typed_isOk_iff hfields owner, members_eq_bind]
  cases htyped : e.typedFields owner (e.fieldScope owner) fields with
  | error error => simp [orFail, Except.mapError]
  | ok typed =>
      have hmembers := (mapM_memberOf hlanguage htyped).1
      simpa [orFail, Except.mapError] using hmembers

/-- Where fields have identifiers, only defaults can be in the way of their members. -/
theorem failsOnly_members (hnames : e.NamesFields fields) :
    FailsOnly (fun error => ∃ json, error = EmissionError.json json) (e.members owner fields) := by
  obtain ⟨typed, htyped⟩ := (h.typed_isOk_iff hfields owner).2 hnames
  rw [members_eq_bind, htyped]
  exact (mapM_memberOf hlanguage htyped).2

end IsReady

/-! ## Stubs -/

namespace IsReady

variable (h : e.IsReady)

include h

section

variable {method : Method} (hmethod : method ∈ e.schema.methods)

include hmethod

/-- A parameter is documented if its default has a JSON form. -/
theorem parameter_isOk_iff {field : Field} (hfield : field ∈ method.inputs) :
    (∃ p, e.parameter method field = .ok p) ↔ ¬ field.default.Formless := by
  obtain ⟨type, htype⟩ := h.expressField_isOk (Schema.inputs_mem_fieldLists hmethod) hfield
    (some method.name)
  rw [← field.constraintSentences_isOk_iff]
  simp only [parameter, orFail, htype, bind_eq_ok_iff, mapError_eq_ok_iff, pure_eq_ok,
    Except.ok.injEq, exists_eq_left']
  constructor
  · rintro ⟨_, sentences, hsentences, -⟩
    exact ⟨sentences, hsentences⟩
  · rintro ⟨sentences, hsentences⟩
    exact ⟨_, sentences, hsentences, rfl⟩

/-- A parameter fails only by a default without a JSON form. -/
theorem failsOnly_parameter {field : Field} (hfield : field ∈ method.inputs) :
    FailsOnly (fun error => ∃ json, error = EmissionError.json json)
      (e.parameter method field) := by
  obtain ⟨type, htype⟩ := h.expressField_isOk (Schema.inputs_mem_fieldLists hmethod) hfield
    (some method.name)
  have htyped : orFail EmissionError.generation (e.language.typeSystem.expressField e.schema
      (some method.name) field) = .ok type := mapError_eq_ok_iff.2 htype
  rw [parameter, htyped, ok_bind]
  exact FailsOnly.bind (.mapError fun json _ => ⟨json, rfl⟩) fun _ _ => .ok _

end

/-- Outside Ruby there are always stubs. -/
theorem stubs_isOk (hruby : e.language ≠ .ruby) (hgo : e.language ≠ .go) :
    ∃ stubs, e.stubs = .ok stubs := by
  rw [stubs, if_neg (by simpa using hgo), mapM_isOk_iff]
  intro method hmethod
  obtain ⟨function, input, output, hstub⟩ := h.stub_eq hmethod
  rw [hstub, if_neg (by simpa using hruby)]
  exact ⟨_, rfl⟩

/-- In Ruby there are stubs if the default of each parameter has a JSON form, and nothing else can
be in the way. -/
theorem stubs_ruby (hruby : e.language = .ruby) :
    ((∃ stubs, e.stubs = .ok stubs) ↔
        ∀ method ∈ e.schema.methods, ∀ field ∈ method.inputs, ¬ field.default.Formless) ∧
      FailsOnly (fun error => ∃ json, error = EmissionError.json json) e.stubs := by
  rw [stubs, if_neg (by simp [hruby])]
  constructor
  · rw [mapM_isOk_iff]
    refine forall₂_congr fun method hmethod => ?_
    obtain ⟨function, input, output, hstub⟩ := h.stub_eq hmethod
    have hparameters : (∃ stub, e.stub method = .ok stub) ↔
        ∃ parameters, method.inputs.mapM (e.parameter method) = .ok parameters := by
      rw [hstub, if_pos (by simpa using hruby)]
      simp [bind_eq_ok_iff]
    rw [hparameters, mapM_isOk_iff]
    exact forall₂_congr fun field hfield => h.parameter_isOk_iff hmethod hfield
  · refine .mapM fun method hmethod => ?_
    obtain ⟨function, input, output, hstub⟩ := h.stub_eq hmethod
    rw [hstub, if_pos (by simpa using hruby)]
    exact FailsOnly.bind (.mapM fun field hfield => h.failsOnly_parameter hmethod hfield)
      fun _ _ => .ok _

end IsReady

end Emitter

/-! ## Defaults without a JSON form -/

/-- A document comes to a default without a JSON form: in Ruby that of a parameter, elsewhere that
of a field of something declared, where the identifiers of the fields up to it can be told apart. -/
inductive Schema.MeetsFormless (schema : Schema) (language : Language) (options : Options) :
    Prop where
  | parameter {method : Method} {field : Field} (hlanguage : language = .ruby)
    (hmethod : method ∈ schema.methods) (hfield : field ∈ method.inputs)
    (h : field.default.Formless) : MeetsFormless schema language options
  | member {before after : List Subject} {subject : Subject} {field : Field}
    (hlanguage : language ≠ .ruby) (hsubjects : schema.subjects = before ++ subject :: after)
    (hnames : ∀ s ∈ before ++ [subject], language.Distinguishes .field
      (language.reserved options .field) (s.fields.map (·.name)))
    (hfield : field ∈ subject.fields) (h : field.default.Formless) :
    MeetsFormless schema language options

namespace Emitter

variable {e : Emitter}

/-- The members of subjects lack the form of a default as those of the first such subject do. -/
theorem IsReady.subjects_json_iff (h : e.IsReady) (hlanguage : e.language ≠ .ruby) :
    (∃ json, e.schema.subjects.mapM e.membersOf = .error (.json json)) ↔
      e.schema.MeetsFormless e.language e.options := by
  have hlists : ∀ s ∈ e.schema.subjects, s.fields ∈ e.schema.fieldLists :=
    fun s hs => Schema.fields_mem_fieldLists hs
  constructor
  · rintro ⟨json, hjson⟩
    obtain ⟨before, subject, after, hsubjects, hbefore, hsubject⟩ := mapM_eq_error_iff.1 hjson
    rw [hsubjects] at hlists
    have hfields : subject.fields ∈ e.schema.fieldLists := hlists subject (by simp)
    have hnames := h.namesFields_of_json hfields hsubject
    have hformless : ∃ field ∈ subject.fields, field.default.Formless := by
      by_contra hnone
      obtain ⟨members, hmembers⟩ := (h.members_isOk_iff hfields hlanguage
        subject.owner).2 ⟨hnames, fun field hfield hform => hnone ⟨field, hfield, hform⟩⟩
      rw [membersOf, hmembers] at hsubject
      contradiction
    obtain ⟨field, hfield, hform⟩ := hformless
    refine .member hlanguage hsubjects ?_ hfield hform
    rw [List.forall_mem_append, List.forall_mem_singleton]
    refine ⟨fun s hs => ?_, hnames⟩
    exact ((h.members_isOk_iff (hlists s (List.mem_append_left _ hs)) hlanguage _).1
      (hbefore s hs)).1
  · intro hmeets
    cases hmeets with
    | parameter hruby => contradiction
    | @member before after subject field _ hsubjects hnames hfield hform =>
        have hupTo : ∀ s ∈ before ++ [subject], s.fields ∈ e.schema.fieldLists := by
          intro s hs
          apply hlists
          rw [hsubjects, List.append_cons]
          exact List.mem_append_left _ hs
        have hfails : FailsOnly (fun error => ∃ json, error = EmissionError.json json)
            ((before ++ [subject]).mapM e.membersOf) :=
          .mapM fun s hs => h.failsOnly_members (hupTo s hs) hlanguage (hnames s hs)
        have hnot : ¬ ∃ members, (before ++ [subject]).mapM e.membersOf = .ok members := by
          rw [mapM_isOk_iff]
          intro hall
          have hmem : subject ∈ before ++ [subject] := by simp
          have hmembers := h.members_isOk_iff (hupTo subject hmem) hlanguage subject.owner
          exact (hmembers.1 (hall subject hmem)).2 field hfield hform
        obtain ⟨json, hjson⟩ := hfails.exists_error_iff.2 hnot
        rw [hsubjects, List.append_cons, List.mapM_append, hjson]
        exact ⟨json, rfl⟩

/-- An outline fails for a default where it comes to one without a JSON form. -/
theorem IsReady.outline_json_iff (h : e.IsReady)
    (htypes : e.language ≠ .ruby → e.options.includeTypes = true)
    (hruby : e.language = .ruby → e.options.includeTypes = false ∧ e.options.includeClient = true)
    (hgo : e.options.includeClient = true → e.language ≠ .go) :
    (∃ json, e.outline.outcome = .error (.json json)) ↔
      e.schema.MeetsFormless e.language e.options := by
  by_cases hlanguage : e.language = .ruby
  · obtain ⟨hno, hyes⟩ := hruby hlanguage
    obtain ⟨hstubs, hfails⟩ := h.stubs_ruby hlanguage
    have houtline : e.outline.outcome = e.stubs >>= fun stubs => .ok ⟨[], stubs⟩ := by
      rw [outcome_outline, hno, hyes]
      rfl
    have hjson : (∃ json, e.outline.outcome = .error (.json json)) ↔
        ∃ json, e.stubs = .error (.json json) := by
      simp [houtline, bind_eq_error_iff]
    rw [hjson, hfails.exists_error_iff, hstubs]
    simp only [not_forall, not_not]
    constructor
    · rintro ⟨method, hmethod, field, hfield, hform⟩
      exact .parameter hlanguage hmethod hfield hform
    · intro hmeets
      cases hmeets with
      | parameter _ hmethod hfield hform => exact ⟨_, hmethod, _, hfield, hform⟩
      | member hother => contradiction
  · have hmembers := h.declarationOutlines_members
    have hjson : (∃ json, e.outline.outcome = .error (.json json)) ↔
        ∃ json, e.declarationOutlines.outcome = .error (.json json) := by
      have hstubs : ∃ stubs, (if e.options.includeClient then e.stubs else .ok []) = .ok stubs := by
        split
        · next hclient => exact h.stubs_isOk hlanguage (hgo hclient)
        · exact ⟨[], rfl⟩
      obtain ⟨stubs, hstubs⟩ := hstubs
      simp [outcome_outline, htypes hlanguage, hstubs, bind_eq_error_iff]
    rw [hjson, ← h.subjects_json_iff hlanguage, ← hmembers]
    simp only [map_eq_error_iff]

end Emitter

namespace Schema

variable {schema : Schema} {settings : Settings} {target : Target}

/-- What the targets contain. -/
theorem sections_of_ofName? {name : String} (htarget : Target.ofName? name = some target) :
    (target.language ≠ .ruby → target.includeTypes = true) ∧
      (target.language = .ruby → target.includeTypes = false ∧ target.includeClient = true) := by
  have hall : ∀ target ∈ Target.all, (target.language ≠ .ruby → target.includeTypes = true) ∧
      (target.language = .ruby → target.includeTypes = false ∧ target.includeClient = true) := by
    decide
  exact hall target (List.mem_of_find?_eq_some htarget)

/-- **When a document fails for a default.**  The document of a schema that was read fails for a
default without a JSON form if and only if its references resolve, its declarations and methods can
be named, and a default without a JSON form is come to. -/
theorem generate_json_iff (hschema : schema.WellFormed)
    (htarget : Target.ofName? settings.target = some target) :
    (∃ json, (schema.generate settings).outcome = .error (.emission (.json json))) ↔
      schema.Resolves ∧ schema.Nameable target.language (settings.options schema target) ∧
        schema.MeetsFormless target.language (settings.options schema target) := by
  rw [← checkReferences_eq_ok_iff, ← Emitter.create_isOk_iff]
  simp only [generate, htarget, Noted.outcome_bind, Noted.outcome_lift, Noted.outcome_note,
    Noted.outcome_mapError, Noted.outcome_mapNotices, Noted.outcome_pure]
  cases hreferences : schema.checkReferences with
  | error unresolved => simp [Except.mapError]
  | ok _ =>
      cases hcreate : Emitter.create target.language schema (settings.options schema target) with
      | error naming => simp [Except.mapError]
      | ok e =>
          have hready := Emitter.isReady_of_create hschema
            (checkReferences_eq_ok_iff.1 hreferences) hcreate
          obtain ⟨hlanguage, heq, hoptions, -⟩ := (Emitter.owns_of_create hcreate).1
          obtain rfl : e.schema = schema := heq
          have hlanguage : e.language = target.language := hlanguage
          have hoptions : e.options = settings.options e.schema target := hoptions
          obtain ⟨htypes, hruby⟩ := sections_of_ofName? htarget
          have houtline := hready.outline_json_iff
            (by rw [hlanguage, hoptions]; exact htypes) (by rw [hlanguage, hoptions]; exact hruby)
            (by rw [hlanguage, hoptions]; exact includeClient_of_ofName? htarget)
          rw [hlanguage, hoptions] at houtline
          rw [← houtline]
          cases houtcome : e.outline.outcome with
          | error error => simp [Emitter.document, houtcome, Except.mapError, Except.map]
          | ok outline => simp [Emitter.document, houtcome, Except.mapError, Except.map]

/-- Beyond defaults a document of a schema that was read fails for what no document can be generated
for. -/
theorem generate_eq_error_cases (hschema : schema.WellFormed)
    (htarget : Target.ofName? settings.target = some target) {e : DocumentError}
    (h : (schema.generate settings).outcome = .error e) :
    (∃ error, e = .emission (.generation error)) ∨ ∃ json, e = .emission (.json json) := by
  have hsteps := h
  simp only [generate, htarget, Noted.outcome_bind, Noted.outcome_lift, Noted.outcome_note,
    Noted.outcome_mapError, Noted.outcome_mapNotices, Noted.outcome_pure, bind_eq_error_iff,
    mapError_eq_error_iff, reduceCtorEq, and_false, exists_false, false_or, or_false] at hsteps
  obtain ⟨unresolved, -, rfl⟩ | ⟨_, hreferences, _, -, hdocument⟩ := hsteps
  · exact .inl ⟨.unresolved unresolved, rfl⟩
  · obtain ⟨naming, -, rfl⟩ | ⟨emitter, -, emission, -, rfl⟩ := hdocument
    · exact .inl ⟨.naming naming, rfl⟩
    · obtain ⟨naming, rfl⟩ | ⟨json, rfl⟩ :=
        generate_eq_error hschema (mapError_eq_ok_iff.1 hreferences) h
      · exact .inl ⟨_, rfl⟩
      · exact .inr ⟨_, rfl⟩

end Schema

end RpcBindings
