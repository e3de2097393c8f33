import RpcBindings.Proofs.Configuration.Faults
import RpcBindings.Proofs.Configuration.Text
import RpcBindings.Proofs.Generation.Defaults
import RpcBindings.Proofs.Generation.Run

/-!
# RpcBindings.Proofs.Generation.Escapes

Which failures of runs break the program off.  Each step of a run provides for the
failures that it expects; any other escapes from the run.  In an ordinary
workspace a run comes to such a failure for one of a few causes, and each of
them does let a failure escape (`Request.escapes_run_iff`).
-/

namespace RpcBindings

namespace RunT

variable {ε ω α β : Type} {x : RunT (StateM Workspace) α} {events : List Event} {w : Workspace}

/-- A run ends with a failure that it does not provide for. -/
def Escapes (x : RunT (StateM Workspace) α) (events : List Event) (w : Workspace) : Prop :=
  ∃ e, (exec x events w).1.1 = .error e ∧ e.fate = .breaksOff

theorem not_escapes_pure (a : α) : ¬ Escapes (pure a) events w := by
  simp [Escapes]

theorem exec_note (more events : List Event) (w : Workspace) :
    exec (note more : RunT (StateM Workspace) Unit) events w = ((.ok (), events ++ more), w) := rfl

/-- A part that leaves notices behind adds them to the events, whatever its outcome. -/
theorem exec_noted (g : ω → Event) (f : ε → RunError) (y : Noted ω ε α) (events : List Event)
    (w : Workspace) :
    exec (noted g f y : RunT (StateM Workspace) α) events w =
      ((y.outcome.mapError f, events ++ y.notices.map g), w) := rfl

theorem not_escapes_note (more : List Event) : ¬ Escapes (note more) events w := by
  simp [Escapes, exec_note]

/-- A step on the workspace escapes exactly where its error is one that breaks off. -/
theorem escapes_step_iff {f : ε → RunError} {y : ExceptT ε (StateM Workspace) α} :
    Escapes (step f y) events w ↔
      ∃ e, (Workspace.exec y w).1 = .error e ∧ (f e).fate = .breaksOff := by
  simp only [Escapes, exec_step, mapError_eq_error_iff]
  grind

/-- A part that leaves notices behind escapes exactly where its error is one that breaks off. -/
theorem escapes_noted_iff {g : ω → Event} {f : ε → RunError} {y : Noted ω ε α} :
    Escapes (noted g f y) events w ↔
      ∃ e, y.outcome = .error e ∧ (f e).fate = .breaksOff := by
  simp only [Escapes, exec_noted, mapError_eq_error_iff]
  grind

/-- A failure escapes from the first step or, once that is done, from the second. -/
theorem escapes_bind_iff {f : α → RunT (StateM Workspace) β} :
    Escapes (x >>= f) events w ↔ Escapes x events w ∨
      ∃ a events' w', exec x events w = ((.ok a, events'), w') ∧ Escapes (f a) events' w' := by
  simp only [Escapes, exec_bind]
  rcases exec x events w with ⟨⟨e | a, events'⟩, w'⟩
  · simp
  · simp

end RunT

/-! ## What breaks the program off -/

namespace RunError

/-- The failure of a configuration breaks the program off unless it is provided for. -/
theorem fate_configuration_iff {e : ConfigurationError} :
    (RunError.configuration e).fate = .breaksOff ↔ e.isProvidedFor = false := by
  simp [RunError.fate]

/-- A failure to write does so unless it is one of the system. -/
theorem fate_output_iff {p : Path} {e : FileError} :
    (RunError.output p e).fate = .breaksOff ↔ e.fault.isOfSystem = false := by
  simp [RunError.fate]

end RunError

/-- A document breaks the program off just for a default without a JSON form. -/
theorem Schema.generate_breaksOff_iff {schema : Schema} {settings : Settings} {target : Target}
    (hschema : schema.WellFormed) (htarget : Target.ofName? settings.target = some target) :
    (∃ e, (schema.generate settings).outcome = .error e ∧
        (RunError.document e).fate = .breaksOff) ↔
      schema.Resolves ∧ schema.Nameable target.language (settings.options schema target) ∧
        schema.MeetsFormless target.language (settings.options schema target) := by
  rw [← Schema.generate_json_iff hschema htarget]
  constructor
  · rintro ⟨e, he, hbreaks⟩
    obtain ⟨error, rfl⟩ | ⟨json, rfl⟩ := Schema.generate_eq_error_cases hschema htarget he
    · simp [RunError.fate] at hbreaks
    · exact ⟨json, he⟩
  · rintro ⟨json, hjson⟩
    exact ⟨_, hjson, rfl⟩

/-! ## Files -/

namespace Workspace

variable [Encoding] {w : Workspace}

/-- A workspace stays ordinary while a text is read. -/
theorem IsOrdinary.presentText (hw : w.IsOrdinary) (p : Path) :
    (exec (FileAccess.presentText p :
      ExceptT TextFileError (StateM Workspace) (Option (List Char))) w).2.IsOrdinary := by
  have hlook := (minds_isPresent (P := p.fault?.isSome) id w hw).1
  rw [exec_presentText_eq]
  generalize exec (FileAccess.isPresent p : ExceptT FileError (StateM Workspace) Bool) w = run
    at hlook ⊢
  obtain ⟨e | _ | _, w'⟩ := run
  · exact hlook
  · exact hlook
  · have hread : (exec (FileAccess.readText p :
        ExceptT TextFileError (StateM Workspace) (List Char)) w').2 = w'.next w'.tree := by
      rw [exec_readText_eq, exec_read_eq]
      cases p.fault? with
      | some fault => rfl
      | none =>
          cases w'.refusal? with
          | some refusal => rfl
          | none => cases w'.parts p >>= w'.tree.read <;> rfl
    simp only
    generalize exec (FileAccess.readText p :
      ExceptT TextFileError (StateM Workspace) (List Char)) w' = run at hread ⊢
    obtain ⟨e | text, w''⟩ := run
    · exact hread ▸ IsOrdinary.next hlook _
    · exact hread ▸ IsOrdinary.next hlook _

end Workspace

/-- A text that gives no entries breaks the program off just where it breaks the loader off. -/
theorem Configuration.rootEntries_breaksOff_iff [Loader] {text : List Char} :
    (∃ e, rootEntries text = .error e ∧
        (RunError.ofConfigurationFileError e).fate = .breaksOff) ↔
      ∃ e, Loader.load text = .broken e := by
  unfold rootEntries
  cases Loader.load text with
  | malformed => simp [RunError.ofConfigurationFileError, RunError.fate,
      ConfigurationError.isProvidedFor]
  | broken e => simp [RunError.ofConfigurationFileError, RunError.fate]
  | beyond => simp [RunError.ofConfigurationFileError, RunError.fate]
  | datum root =>
      refine iff_of_false ?_ (by simp)
      cases root
      all_goals simp [RunError.ofConfigurationFileError, RunError.fate,
        ConfigurationError.isProvidedFor]

/-- So does a text that gives no schema. -/
theorem Schema.read_breaksOff_iff [Loader] {text : List Char} :
    (∃ e, read text = .error e ∧ (RunError.ofLoadError e).fate = .breaksOff) ↔
      ∃ e, Loader.load text = .broken e := by
  unfold read
  cases Loader.load text with
  | malformed => simp [RunError.ofLoadError, RunError.fate]
  | broken e => simp [RunError.ofLoadError, RunError.fate]
  | beyond => simp [RunError.ofLoadError, RunError.fate]
  | datum root =>
      refine iff_of_false ?_ (by simp)
      simp only [mapError_eq_error_iff]
      rintro ⟨_, ⟨e, -, rfl⟩, hbreaks⟩
      simp [RunError.ofLoadError, RunError.fate] at hbreaks

namespace Request

open RunT

variable [Encoding] {r : Request} {c : Configuration} {events events' : List Event}
  {w w' : Workspace} {p : Path}

/-! ## Documents in files -/

/-- A failure to write escapes where it is none of the system. -/
theorem escapes_write_iff {generated : Generated} :
    RunT.Escapes (match generated.outputPath with
        | none => pure generated
        | some path => do
          step (RunError.output path)
            (FileAccess.replaceFile path generated.document)
          note [.wrote path]
          return generated : RunT (StateM Workspace) Generated) events w ↔
      ∃ p e w', generated.outputPath = some p ∧
        Workspace.exec (FileAccess.replaceFile p generated.document) w = (.error e, w') ∧
        e.fault.isOfSystem = false := by
  cases generated.outputPath with
  | none => simp [not_escapes_pure]
  | some path =>
      simp only [escapes_bind_iff, escapes_step_iff, not_escapes_note, not_escapes_pure, and_false,
        exists_false, or_false, RunError.fate_output_iff, Option.some.injEq]
      constructor
      · rintro ⟨e, hfails, hfault⟩
        exact ⟨path, e, _, rfl, Prod.ext hfails rfl, hfault⟩
      · rintro ⟨p, e, w', rfl, hfails, hfault⟩
        exact ⟨e, by rw [hfails], hfault⟩

/-! ## Options -/

/-- A request gives the path of the schema or of the output, and there is no such path. -/
def GivesUnfitPath (r : Request) : Prop :=
  ∃ s, (r.schema = some s ∨ r.output = some s) ∧ (Text.trim s).isEmpty = false ∧ Text.Unfit s

/-- A path that a user gives does not come out just where it is unfit. -/
theorem exists_absolute_eq_error_iff {here : Path} (hhere : here.fault? = none) {s : String} :
    (∃ e, absolute here s = .error e) ↔ (Text.trim s).isEmpty = false ∧ Text.Unfit s := by
  have hjoin : (here.join (Path.ofString s)).fault?.isSome ↔ Text.Unfit s := by
    rw [← Path.fault?_ofString_isSome_iff]
    cases habsolute : (Path.ofString s).isAbsolute with
    | true => rw [Path.join_of_isAbsolute habsolute]
    | false => simp [Path.fault?_join_isSome_iff habsolute, hhere]
  have hresolved : (∃ e, Configuration.resolved here (Path.ofString s) = .error e) ↔
      (here.join (Path.ofString s)).fault?.isSome := by
    simp only [Configuration.resolved_eq_error_iff, Option.isSome_iff_exists]
    grind
  rw [← hjoin, ← hresolved, absolute]
  cases (Text.trim s).isEmpty with
  | true => simp
  | false => simp [map_eq_error_iff]

/-- An option for a path fails exactly where it is given and unfit. -/
theorem exists_mapM_absolute_eq_error_iff {here : Path} (hhere : here.fault? = none)
    {given : Option String} :
    (∃ e, given.mapM (absolute here) = .error e) ↔
      ∃ s, given = some s ∧ (Text.trim s).isEmpty = false ∧ Text.Unfit s := by
  cases given with
  | none => simp
  | some s =>
      have hmap : (some s).mapM (absolute here) = (absolute here s).map some := rfl
      simp only [hmap, map_eq_error_iff, exists_absolute_eq_error_iff hhere, Option.some.injEq,
        exists_eq_left']

/-- The options of a request do not come out just where it gives an unfit path. -/
theorem exists_options_eq_error_iff {here : Path} (hhere : here.fault? = none) :
    (∃ e, r.options here = .error e) ↔ r.GivesUnfitPath := by
  have hgiven : r.GivesUnfitPath ↔ (∃ e, r.schema.mapM (absolute here) = .error e) ∨
      ∃ e, r.output.mapM (absolute here) = .error e := by
    rw [exists_mapM_absolute_eq_error_iff hhere, exists_mapM_absolute_eq_error_iff hhere]
    unfold GivesUnfitPath
    grind
  rw [hgiven, options]
  cases r.schema.mapM (absolute here) with
  | error e => simp
  | ok schema => cases r.output.mapM (absolute here) <;> simp

/-- Options that do not come out are not provided for. -/
theorem isProvidedFor_of_options {here : Path} {e : ConfigurationError}
    (h : r.options here = .error e) : e.isProvidedFor = false := by
  have habsolute {s : String} {e : ConfigurationError} (h : absolute here s = .error e) :
      e.isProvidedFor = false := by
    unfold absolute at h
    split at h
    · contradiction
    · obtain ⟨fault, -, rfl⟩ := Configuration.resolved_eq_error_iff.1 (map_eq_error_iff.1 h)
      rfl
  have hmap {given : Option String} {e : ConfigurationError}
      (h : given.mapM (absolute here) = .error e) : e.isProvidedFor = false := by
    cases given with
    | none => contradiction
    | some s => exact habsolute (map_eq_error_iff.1 (show (absolute here s).map some = _ from h))
  simp only [options, bind_eq_error_iff, reduceCtorEq, and_false, exists_false, or_false,
    pure_eq_ok] at h
  obtain hschema | ⟨schema, -, houtput⟩ := h
  · exact hmap hschema
  · exact hmap houtput

/-! ## Configurations -/

variable [Loader]

/-- What a request starts from is withheld with the file of its configuration. -/
theorem readConfig_breaksOff_iff :
    (∃ e w', readConfig r.config w = (.error e, w') ∧ e.fate = .breaksOff) ↔
      ∃ config, r.config = some config ∧ w.Withholds (Path.ofString config) := by
  cases r.config with
  | none => simp [readConfig]
  | some config =>
      simp only [readConfig, Configuration.exec_readEntries_eq, Option.some.injEq,
        exists_eq_left', Workspace.withholds_iff]
      rcases Workspace.exec (FileAccess.presentText (Path.ofString config) :
          ExceptT TextFileError (StateM Workspace) (Option (List Char))) w with ⟨e | _ | text, w'⟩
      · simp [RunError.ofConfigurationFileError, RunError.fate]
      · simp [RunError.ofConfigurationFileError, RunError.fate,
          ConfigurationError.isProvidedFor]
      · simp only [← Configuration.rootEntries_breaksOff_iff]
        cases Configuration.rootEntries text <;> simp

/-- The configuration escapes by an option that is an unfit path, by the text of its file or by
what the file says. -/
theorem escapes_configuration_iff (hhere : w.directory.fault? = none) :
    Escapes (r.configuration : RunT (StateM Workspace) Configuration) events w ↔
      r.GivesUnfitPath ∨
      (∃ config, r.config = some config ∧ w.Withholds (Path.ofString config)) ∨
      ∃ options base path values w', r.options w.directory = .ok options ∧
        readConfig r.config w = (.ok (base, path, values), w') ∧
        Configuration.BreaksReader base values options := by
  rw [← readConfig_breaksOff_iff, ← exists_options_eq_error_iff hhere, Escapes,
    exec_configuration]
  cases hoptions : r.options w.directory with
  | error e =>
      have hunprovided := isProvidedFor_of_options hoptions
      simp [RunError.fate_configuration_iff, hunprovided]
  | ok options =>
      rcases readConfig r.config w with ⟨e | ⟨base, path, values⟩, w'⟩
      · simp
      · have hentries := Configuration.ofEntries_unprovided_iff base path values options
        simp only [mapError_eq_error_iff, Prod.mk.injEq, Except.ok.injEq, reduceCtorEq, false_and,
          exists_false, false_or]
        constructor
        · rintro ⟨_, ⟨e, he, rfl⟩, hbreaks⟩
          exact ⟨options, base, path, values, w', rfl, ⟨⟨rfl, rfl, rfl⟩, rfl⟩,
            hentries.1 ⟨e, he, RunError.fate_configuration_iff.1 hbreaks⟩⟩
        · rintro ⟨_, _, _, _, _, rfl, ⟨⟨rfl, rfl, rfl⟩, -⟩, hbreaks⟩
          obtain ⟨e, he, hunprovided⟩ := hentries.2 hbreaks
          exact ⟨_, ⟨e, he, rfl⟩, RunError.fate_configuration_iff.2 hunprovided⟩

/-! ## Schemas -/

/-- The outcome of reading a schema and the workspace that it leaves, without the events. -/
theorem exec_loadSchema (p : Path) (events : List Event) (w : Workspace) :
    ∃ events', exec (loadSchema p : RunT (StateM Workspace) Schema) events w =
      match Workspace.exec (FileAccess.presentText p :
          ExceptT TextFileError (StateM Workspace) (Option (List Char))) w with
      | (.ok (some text), w') =>
        (((Schema.read text).mapError RunError.ofLoadError, events'), w')
      | (.ok none, w') => ((.error (.schema (.fileNotFound p.text)), events'), w')
      | (.error e, w') => ((.error (.text e), events'), w') := by
  rw [loadSchema, exec_bind, exec_step, Workspace.exec_presentText_eq]
  rcases Workspace.exec (FileAccess.isPresent p : ExceptT FileError (StateM Workspace) Bool) w with
    ⟨e | _ | _, w'⟩
  · exact ⟨events, rfl⟩
  · exact ⟨events, rfl⟩
  · simp only [Except.mapError, Bool.not_true, Bool.false_eq_true, if_false, exec_bind, exec_note,
      exec_step]
    rcases Workspace.exec (FileAccess.readText p :
        ExceptT TextFileError (StateM Workspace) (List Char)) w' with ⟨e | text, w''⟩
    · exact ⟨_, rfl⟩
    · have houtcome (x : Except LoadError Schema) : Workspace.exec (ExceptT.mk (pure x) :
          ExceptT LoadError (StateM Workspace) Schema) w'' = (x, w'') := rfl
      simp only [houtcome]
      cases Schema.read text with
      | error e => exact ⟨_, rfl⟩
      | ok schema => exact ⟨_, rfl⟩

/-- Loading a schema escapes exactly where its text is withheld. -/
theorem escapes_loadSchema_iff :
    Escapes (loadSchema p : RunT (StateM Workspace) Schema) events w ↔ w.Withholds p := by
  obtain ⟨events', hload⟩ := exec_loadSchema p events w
  rw [Escapes, hload, Workspace.withholds_iff]
  rcases Workspace.exec (FileAccess.presentText p :
      ExceptT TextFileError (StateM Workspace) (Option (List Char))) w with ⟨e | _ | text, w'⟩
  · simp [RunError.fate]
  · simp [RunError.fate]
  · simp only [← Schema.read_breaksOff_iff, mapError_eq_error_iff]
    grind

/-- Every schema that is loaded is well-formed. -/
theorem wellFormed_of_loadSchema {schema : Schema}
    (h : exec (loadSchema p : RunT (StateM Workspace) Schema) events w =
      ((.ok schema, events'), w')) : schema.WellFormed := by
  obtain ⟨events'', hload⟩ := exec_loadSchema p events w
  rw [hload] at h
  split at h
  · next text w'' _ =>
    obtain ⟨⟨hread, -⟩, -⟩ := by simpa only [Prod.mk.injEq] using h
    rw [mapError_eq_ok_iff, Schema.read] at hread
    split at hread
    · contradiction
    · contradiction
    · contradiction
    · next root _ => exact Schema.wellFormed_of_ofValue (mapError_eq_ok_iff.1 hread)
  · simp at h
  · simp at h

/-- The target of a configuration exists. -/
theorem target_of_configuration
    (h : exec (r.configuration : RunT (StateM Workspace) Configuration) events w =
      ((.ok c, events'), w')) : ∃ target, Target.ofName? c.settings.target = some target := by
  obtain ⟨base, path, values, options, -, -, hentries, -⟩ := exec_configuration_eq_ok h
  exact Configuration.target_of_ofEntries hentries

/-! ## Whole runs -/

/-- Why a failure escapes from a run. -/
inductive Escapes (r : Request) (w : Workspace) : Prop where
  /-- A path that the request gives is unfit. -/
  | options (h : r.GivesUnfitPath) : Escapes r w
  /-- The configuration is withheld. -/
  | configuration {config : String} (hconfig : r.config = some config)
    (h : w.Withholds (Path.ofString config)) : Escapes r w
  /-- The configuration breaks its reader off. -/
  | settings {options : Entries} {base : Path} {path : Option Path} {values : Entries}
    {w₁ : Workspace} (hoptions : r.options w.directory = .ok options)
    (hread : readConfig r.config w = (.ok (base, path, values), w₁))
    (h : Configuration.BreaksReader base values options) : Escapes r w
  /-- The schema is withheld. -/
  | schema {c : Configuration} {events : List Event} {w₁ : Workspace}
    (hconfigured : exec r.configuration [] w = ((.ok c, events), w₁))
    (h : w₁.Withholds c.schemaPath) : Escapes r w
  /-- The document comes to a default without a JSON form. -/
  | default {c : Configuration} {schema : Schema} {target : Target} {events events' : List Event}
    {w₁ w₂ : Workspace} (hconfigured : exec r.configuration [] w = ((.ok c, events), w₁))
    (hloaded : exec (loadSchema c.schemaPath) events w₁ = ((.ok schema, events'), w₂))
    (htarget : Target.ofName? c.settings.target = some target) (hresolves : schema.Resolves)
    (hnameable : schema.Nameable target.language (c.settings.options schema target))
    (h : schema.MeetsFormless target.language (c.settings.options schema target)) : Escapes r w
  /-- The document is to go to an unfit path, or there are no bytes for it, and the write fails
  without a fault of the system. -/
  | output {generated : Generated} {events : List Event} {w₁ w₂ : Workspace} {p : Path}
    {e : FileError} (hprepared : exec r.prepare [] w = ((.ok generated, events), w₁))
    (houtput : generated.outputPath = some p)
    (hunfit : p.fault?.isSome ∨ Text.encode? generated.document = none)
    (hwrite : Workspace.exec (FileAccess.replaceFile p generated.document) w₁ = (.error e, w₂))
    (h : e.fault.isOfSystem = false) : Escapes r w

/-! ### Ordinary workspaces -/

/-- Reading the configuration keeps a workspace ordinary. -/
theorem isOrdinary_configuration (r : Request) (events : List Event) (hw : w.IsOrdinary) :
    (exec r.configuration events w).2.IsOrdinary := by
  have hread : (readConfig r.config w).2.IsOrdinary := by
    cases r.config with
    | none => exact hw
    | some config =>
        have htext := hw.presentText (Path.ofString config)
        rw [readConfig, Configuration.exec_readEntries_eq]
        generalize Workspace.exec (FileAccess.presentText (Path.ofString config) :
          ExceptT TextFileError (StateM Workspace) (Option (List Char))) w = run at htext ⊢
        obtain ⟨e | _ | text, w'⟩ := run
        · exact htext
        · exact htext
        · cases hentries : Configuration.rootEntries text <;> simpa [hentries] using htext
  rw [exec_configuration]
  cases r.options w.directory with
  | error e => exact hw
  | ok options =>
      generalize readConfig r.config w = run at hread ⊢
      obtain ⟨e | start, w'⟩ := run <;> exact hread

/-- Loading a schema keeps a workspace ordinary. -/
theorem isOrdinary_loadSchema (p : Path) (events : List Event) (hw : w.IsOrdinary) :
    (exec (loadSchema p) events w).2.IsOrdinary := by
  have htext := hw.presentText p
  obtain ⟨events', hload⟩ := exec_loadSchema p events w
  rw [hload]
  generalize Workspace.exec (FileAccess.presentText p :
    ExceptT TextFileError (StateM Workspace) (Option (List Char))) w = run at htext ⊢
  obtain ⟨e | _ | text, w'⟩ := run <;> exact htext

/-- A workspace stays ordinary while a document is prepared. -/
theorem isOrdinary_prepare (r : Request) (events : List Event) (hw : w.IsOrdinary) :
    (exec r.prepare events w).2.IsOrdinary := by
  have hconfigured := isOrdinary_configuration r events hw
  rw [exec_prepare]
  generalize exec r.configuration events w = run at hconfigured ⊢
  obtain ⟨⟨e | c, events'⟩, w'⟩ := run
  · exact hconfigured
  · have hloaded := isOrdinary_loadSchema c.schemaPath events' hconfigured
    simp only [documentOf, exec_bind, exec_noted]
    generalize exec (loadSchema c.schemaPath) events' w' = run at hloaded ⊢
    obtain ⟨⟨e | schema, events''⟩, w''⟩ := run
    · exact hloaded
    · simp only
      cases (schema.generate c.settings).outcome <;> exact hloaded

/-! ### Causes -/

/-- A failure that escapes from the preparation of a document has one of the causes. -/
theorem escapes_of_prepare (hhere : w.directory.fault? = none)
    (h : RunT.Escapes (r.prepare : RunT (StateM Workspace) Generated) [] w) : r.Escapes w := by
  rw [prepare, escapes_bind_iff, escapes_configuration_iff hhere] at h
  obtain (hunfit | ⟨config, hconfig, hwithheld⟩ |
    ⟨options, base, path, values, w₁, hoptions, hread, hbreaks⟩) |
      ⟨c, events, w₁, hconfigured, h⟩ := h
  · exact .options hunfit
  · exact .configuration hconfig hwithheld
  · exact .settings hoptions hread hbreaks
  · rw [escapes_bind_iff, escapes_loadSchema_iff] at h
    obtain hwithheld | ⟨schema, events', w₂, hloaded, h⟩ := h
    · exact .schema hconfigured hwithheld
    · simp only [escapes_bind_iff, escapes_noted_iff, not_escapes_pure, and_false, exists_false,
        or_false] at h
      obtain ⟨target, htarget⟩ := target_of_configuration hconfigured
      obtain ⟨hresolves, hnameable, hmeets⟩ :=
        (Schema.generate_breaksOff_iff (wellFormed_of_loadSchema hloaded) htarget).1 h
      exact .default hconfigured hloaded htarget hresolves hnameable hmeets

/-- **When a failure escapes from a run.**  A failure that a run does not provide for escapes from
it in an ordinary workspace if and only if the request gives an unfit path, the configuration or the
schema is withheld, the configuration breaks its reader off, the document comes to a default without
a JSON form, or the write of the document fails for an unfit path or for want of bytes. -/
theorem escapes_run_iff (hw : w.IsOrdinary) :
    RunT.Escapes (r.run : RunT (StateM Workspace) Generated) [] w ↔ r.Escapes w := by
  rw [run, escapes_bind_iff]
  constructor
  · rintro (hprepare | ⟨generated, events, w₁, hprepared, hwrite⟩)
    · exact escapes_of_prepare hw.directory hprepare
    · obtain ⟨p, e, w₂, houtput, hfails, hfault⟩ := escapes_write_iff.1 hwrite
      have hw₁ : w₁.IsOrdinary := by
        have hordinary := isOrdinary_prepare r [] hw
        rwa [hprepared] at hordinary
      have hminds := (Workspace.minds_replaceFile p generated.document w₁ hw₁).2.2
      rw [hfails] at hminds
      exact .output hprepared houtput (hminds e rfl hfault) hfails hfault
  · intro h
    cases h with
    | options h =>
        refine .inl ?_
        rw [prepare, escapes_bind_iff, escapes_configuration_iff hw.directory]
        exact .inl (.inl h)
    | configuration hconfig h =>
        refine .inl ?_
        rw [prepare, escapes_bind_iff, escapes_configuration_iff hw.directory]
        exact .inl (.inr (.inl ⟨_, hconfig, h⟩))
    | settings hoptions hread h =>
        refine .inl ?_
        rw [prepare, escapes_bind_iff, escapes_configuration_iff hw.directory]
        exact .inl (.inr (.inr ⟨_, _, _, _, _, hoptions, hread, h⟩))
    | schema hconfigured h =>
        refine .inl ?_
        rw [prepare, escapes_bind_iff]
        refine .inr ⟨_, _, _, hconfigured, ?_⟩
        rw [escapes_bind_iff, escapes_loadSchema_iff]
        exact .inl h
    | default hconfigured hloaded htarget hresolves hnameable h =>
        refine .inl ?_
        rw [prepare, escapes_bind_iff]
        refine .inr ⟨_, _, _, hconfigured, ?_⟩
        rw [escapes_bind_iff]
        refine .inr ⟨_, _, _, hloaded, ?_⟩
        rw [escapes_bind_iff, escapes_noted_iff]
        exact .inl ((Schema.generate_breaksOff_iff (wellFormed_of_loadSchema hloaded) htarget).2
          ⟨hresolves, hnameable, h⟩)
    | output hprepared houtput _ hwrite h =>
        exact .inr ⟨_, _, _, hprepared, escapes_write_iff.2 ⟨_, _, _, houtput, hwrite, h⟩⟩

end Request

end RpcBindings
