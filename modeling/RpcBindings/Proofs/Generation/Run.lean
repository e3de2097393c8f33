import RpcBindings.Generation.Run
import RpcBindings.Proofs.Configuration.Output
import RpcBindings.Proofs.File.Access

/-!
# RpcBindings.Proofs.Generation.Run

Runs in a workspace.  A document is prepared from files that are only read, and
it is the same document wherever it is to go; only then is a file replaced.  So
a run that fails has not changed a file, and a run that succeeds has written the
document as a whole or has changed nothing.
-/

namespace RpcBindings

namespace RunT

variable {ε ω α β : Type}

/-- The outcome of a run, the events up to its end and the workspace that it leaves. -/
def exec (x : RunT (StateM Workspace) α) (events : List Event) (w : Workspace) :
    (Except RunError α × List Event) × Workspace :=
  Id.run ((x.run.run events).run w)

@[simp] theorem exec_pure (a : α) (events : List Event) (w : Workspace) :
    exec (pure a) events w = ((.ok a, events), w) := rfl

@[simp] theorem exec_throw (e : RunError) (events : List Event) (w : Workspace) :
    exec (throw e : RunT (StateM Workspace) α) events w = ((.error e, events), w) := rfl

/-- A sequence runs its second part on the events and the workspace that the first one left. -/
theorem exec_bind (x : RunT (StateM Workspace) α) (f : α → RunT (StateM Workspace) β)
    (events : List Event) (w : Workspace) :
    exec (x >>= f) events w =
      match exec x events w with
      | ((.ok a, events), w) => exec (f a) events w
      | ((.error e, events), w) => ((.error e, events), w) := by
  rcases hx : exec x events w with ⟨⟨_ | a, events'⟩, w'⟩
  · simp only [exec, ExceptT.run_bind, StateT.run_bind, Id.run_bind] at hx ⊢
    rw [hx]
    rfl
  · simp only [exec, ExceptT.run_bind, StateT.run_bind, Id.run_bind] at hx ⊢
    rw [hx]

/-- A step changes the workspace and adds no event. -/
theorem exec_step (f : ε → RunError) (x : ExceptT ε (StateM Workspace) α) (events : List Event)
    (w : Workspace) :
    exec (step f x) events w =
      (((Workspace.exec x w).1.mapError f, events), (Workspace.exec x w).2) := rfl

/-- A run that changes nothing, whichever way it ends. -/
def Reads (x : RunT (StateM Workspace) α) : Prop :=
  ∀ events w, Workspace.Untouched w (exec x events w).2

theorem reads_pure (a : α) : Reads (pure a) :=
  fun _ w => .refl w

theorem reads_throw (e : RunError) : Reads (throw e : RunT (StateM Workspace) α) :=
  fun _ w => .refl w

theorem reads_note (events : List Event) : Reads (note events) :=
  fun _ w => .refl w

/-- A part that only leaves notices behind changes nothing. -/
theorem reads_noted (g : ω → Event) (f : ε → RunError) (x : Noted ω ε α) :
    Reads (noted g f x : RunT (StateM Workspace) α) :=
  fun _ w => .refl w

/-- A step that leaves the workspace alone changes nothing. -/
theorem reads_step {x : ExceptT ε (StateM Workspace) α}
    (hx : Workspace.Always Workspace.Untouched x) (f : ε → RunError) : Reads (step f x) :=
  fun _ w => hx w

/-- Two parts that change nothing change nothing one after the other. -/
theorem Reads.bind {x : RunT (StateM Workspace) α} {f : α → RunT (StateM Workspace) β}
    (hx : Reads x) (hf : ∀ a, Reads (f a)) : Reads (x >>= f) := by
  intro events w
  have hfirst := hx events w
  rw [exec_bind]
  generalize exec x events w = run at hfirst ⊢
  obtain ⟨⟨_ | a, events'⟩, w'⟩ := run
  · exact hfirst
  · exact hfirst.trans _ _ _ (hf a events' w')

end RunT

/-! ## Reading files -/

namespace Workspace

theorem untouched_outcome {ε α : Type} (outcome : Except ε α) :
    Always Untouched (ExceptT.mk (pure outcome) : ExceptT ε (StateM Workspace) α) :=
  fun w => .refl w

section

variable [Encoding]

/-- Reading a text changes nothing. -/
theorem untouched_readText (p : Path) :
    Always Untouched
      (FileAccess.readText p : ExceptT TextFileError (StateM Workspace) (List Char)) := by
  apply ((untouched_read p).adapt _).bind Untouched.trans
  intro bytes
  apply (untouched_outcome _).bind Untouched.trans
  intro text
  exact always_pure Untouched.refl _

variable [Loader]

/-- Reading the entries of a configuration changes nothing. -/
theorem untouched_readEntries (p : Path) :
    Always Untouched
      (Configuration.readEntries p :
        ExceptT ConfigurationFileError (StateM Workspace) Entries) := by
  have hrest : Always Untouched (do
      let text ← ExceptT.adapt ConfigurationFileError.text (FileAccess.readText p)
      Configuration.rootEntries text :
        ExceptT ConfigurationFileError (StateM Workspace) Entries) :=
    ((untouched_readText p).adapt _).bind Untouched.trans fun _ => untouched_outcome _
  apply ((untouched_isPresent p).adapt _).bind Untouched.trans
  intro found
  cases found with
  | true => exact hrest
  | false => exact (always_throw Untouched.refl _).bind Untouched.trans fun _ => hrest

/-- Loading a configuration changes nothing. -/
theorem untouched_load (p : Path) (options : Entries) :
    Always Untouched (Configuration.load p options :
      ExceptT ConfigurationFileError (StateM Workspace) Configuration) := by
  apply (untouched_readEntries p).bind Untouched.trans
  intro values w
  exact .refl w

end

end Workspace

namespace Request

open RunT

variable {r : Request} {c c' : Configuration} {blank : String} {output : Option String}
  {events events' events'' : List Event} {w w' w'' : Workspace} {generated : Generated}

/-! ## Another output among the options -/

/-- The request with another output among its options, or without one. -/
def withOutput (r : Request) (output : Option String) : Request :=
  { r with output }

/-- Requests that differ in their output give sections that differ in nothing else. -/
theorem sameButOutput_entries (r : Request) (schema output output' : Option String)
    (s : Configuration.Sections) :
    Configuration.SameButOutput ((r.entries schema output).foldl Configuration.Sections.override s)
      ((r.entries schema output').foldl Configuration.Sections.override s) := by
  simp only [entries, List.foldl_cons, List.foldl_nil]
  iterate 6 apply Configuration.SameButOutput.override
  apply Configuration.SameButOutput.override_output
  iterate 2 apply Configuration.SameButOutput.override
  exact .refl s

/-- A given output is what the options say of the output. -/
theorem find?_output_entries (r : Request) (schema : Option String) (output : String)
    (s : Configuration.Sections) :
    Entries.find? ((r.entries schema (some output)).foldl Configuration.Sections.override s).top
      "output" = some (.text output) := by
  simp only [entries, List.foldl_cons, List.foldl_nil]
  rw [Configuration.find?_override _ (by decide), Configuration.find?_override _ (by decide),
    Configuration.find?_override _ (by decide), Configuration.find?_override _ (by decide),
    Configuration.find?_override _ (by decide), Configuration.find?_override _ (by decide)]
  simp only [Option.map_some, Option.getD_some]
  rw [Configuration.override_text (by decide) (by decide) (by simp), Entries.find?_putText,
    if_pos rfl]

variable [Encoding]

/-- Options are the entries of a request once its paths are found. -/
theorem options_eq_ok_iff {here : Path} {options : Entries} :
    r.options here = .ok options ↔ ∃ schema output, r.schema.mapM (absolute here) = .ok schema ∧
      r.output.mapM (absolute here) = .ok output ∧ r.entries schema output = options := by
  simp only [Request.options, bind_eq_ok_iff, pure_eq_ok, Except.ok.injEq]
  grind

/-- With a blank output a request has its options all the same. -/
theorem options_blank {here : Path} {schema : Option String} (hblank : (Text.trim blank).isEmpty)
    (hschema : r.schema.mapM (absolute here) = .ok schema) :
    (r.withOutput (some blank)).options here = .ok (r.entries schema (some blank)) := by
  have hwritten : (some blank).mapM (absolute here) = .ok (some blank) := by
    simp [absolute, hblank]
  exact options_eq_ok_iff.2 ⟨schema, some blank, hschema, hwritten, rfl⟩

variable [Loader]

/-! ## Preparing a document -/

/-- Making out the configuration of a request changes nothing. -/
theorem reads_configuration (r : Request) :
    Reads (r.configuration : RunT (StateM Workspace) Configuration) := by
  have hhere : Reads
      (liftM (FileAccess.currentDirectory : StateM Workspace Path) :
        RunT (StateM Workspace) Path) :=
    fun _ w => .refl w
  apply hhere.bind
  intro here
  apply (reads_step (Workspace.untouched_outcome _) _).bind
  intro options
  split
  · exact reads_step (Workspace.untouched_load _ _) _
  · exact reads_step (Workspace.untouched_outcome _) _

/-- Loading a schema changes nothing. -/
theorem reads_loadSchema (p : Path) :
    Reads (loadSchema p : RunT (StateM Workspace) Schema) := by
  have hrest : Reads (do
      note [.loadingSchema p]
      let text ← step RunError.text (FileAccess.readText p)
      let schema ← step RunError.ofLoadError (ExceptT.mk (pure (Schema.read text)))
      note [.loadedSchema schema.types.length schema.methods.length]
      return schema : RunT (StateM Workspace) Schema) := by
    apply (reads_note _).bind
    intro _
    apply (reads_step (Workspace.untouched_readText p) _).bind
    intro text
    apply (reads_step (Workspace.untouched_outcome _) _).bind
    intro schema
    apply (reads_note _).bind
    intro _
    exact reads_pure schema
  apply (reads_step (Workspace.untouched_isPresent p) _).bind
  intro found
  cases found with
  | true => exact hrest
  | false => exact (reads_throw _).bind fun _ => hrest

/-- Files are only read to prepare a document. -/
theorem reads_prepare (r : Request) : Reads (r.prepare : RunT (StateM Workspace) Generated) := by
  apply (reads_configuration r).bind
  intro configuration
  apply (reads_loadSchema _).bind
  intro schema
  apply (reads_noted _ _ _).bind
  intro document
  exact reads_pure _

/-! ## The same request with another output -/

/-- What a request starts from, before its options: the directory that paths start at, the file of
the configuration and the mapping in it. -/
def readConfig (config : Option String) (w : Workspace) :
    Except RunError (Path × Option Path × Entries) × Workspace :=
  match config with
  | none => (.ok (w.directory, none, []), w)
  | some config =>
    let path := Path.ofString config
    match Workspace.exec (Configuration.readEntries path) w with
    | (.ok values, w) => (.ok (w.directory.join path.parent, some path, values), w)
    | (.error e, w) => (.error (.ofConfigurationFileError e), w)

/-- A configuration is loaded from the entries of its file and the options over them. -/
theorem exec_load (path : Path) (options : Entries) (w : Workspace) :
    Workspace.exec (Configuration.load path options) w =
      match Workspace.exec (Configuration.readEntries path) w with
      | (.ok values, w') =>
        ((Configuration.ofEntries (w'.directory.join path.parent) (some path) values
          options).mapError ConfigurationFileError.configuration, w')
      | (.error e, w') => (.error e, w') := by
  rw [Configuration.load, Workspace.exec_bind]
  generalize Workspace.exec (Configuration.readEntries path) w = run
  obtain ⟨_ | values, w'⟩ := run
  · rfl
  · rfl

/-- The configuration of a request is its options over those of its file. -/
theorem exec_configuration (r : Request) (events : List Event) (w : Workspace) :
    exec (r.configuration : RunT (StateM Workspace) Configuration) events w =
      match r.options w.directory with
      | .error e => ((.error (.configuration e), events), w)
      | .ok options =>
        match readConfig r.config w with
        | (.ok (base, path, values), w') =>
          (((Configuration.ofEntries base path values options).mapError RunError.configuration,
            events), w')
        | (.error e, w') => ((.error e, events), w') := by
  have hhere : exec (liftM (FileAccess.currentDirectory : StateM Workspace Path) :
    RunT (StateM Workspace) Path) events w = ((.ok w.directory, events), w) := rfl
  have houtcome (x : Except ConfigurationError Entries) : Workspace.exec (ExceptT.mk (pure x) :
    ExceptT ConfigurationError (StateM Workspace) Entries) w = (x, w) := rfl
  rw [configuration, exec_bind, hhere]
  simp only [exec_bind, exec_step, houtcome]
  cases r.options w.directory with
  | error e => rfl
  | ok options =>
      simp only [Except.mapError]
      cases r.config with
      | none => rfl
      | some config =>
          simp only [exec_step, exec_load, readConfig]
          generalize Workspace.exec (Configuration.readEntries (Path.ofString config)) w = run
          obtain ⟨_ | values, w'⟩ := run
          · rfl
          · simp only
            generalize Configuration.ofEntries _ _ _ _ = outcome
            cases outcome <;> rfl

/-- A configuration comes from the options of the request and the values of its file. -/
theorem exec_configuration_eq_ok
    (h : exec (r.configuration : RunT (StateM Workspace) Configuration) events w =
      ((.ok c, events'), w')) :
    ∃ base path values options, r.options w.directory = .ok options ∧
      readConfig r.config w = (.ok (base, path, values), w') ∧
      Configuration.ofEntries base path values options = .ok c ∧ events' = events := by
  rw [exec_configuration] at h
  cases hoptions : r.options w.directory with
  | error e => simp [hoptions] at h
  | ok options =>
      rcases hread : readConfig r.config w with ⟨_ | ⟨base, path, values⟩, w₁⟩
      · simp [hoptions, hread] at h
      · simp only [hoptions, hread, Prod.mk.injEq, mapError_eq_ok_iff] at h
        obtain ⟨⟨hentries, rfl⟩, rfl⟩ := h
        exact ⟨base, path, values, options, rfl, rfl, hentries, rfl⟩

/-- With another output a request has the same configuration otherwise. -/
theorem configuration_withOutput
    (h : exec (r.configuration : RunT (StateM Workspace) Configuration) events w =
      ((.ok c, events'), w'))
    (h' : exec ((r.withOutput output).configuration : RunT (StateM Workspace) Configuration)
      events w = ((.ok c', events''), w'')) :
    c' = { c with outputPath := c'.outputPath } ∧ events'' = events' ∧ w'' = w' := by
  obtain ⟨base, path, values, options, hoptions, hread, hentries, rfl⟩ :=
    exec_configuration_eq_ok h
  obtain ⟨base', path', values', options', hoptions', hread', hentries', rfl⟩ :=
    exec_configuration_eq_ok h'
  have hsame : readConfig (r.withOutput output).config w = readConfig r.config w := rfl
  rw [hsame, hread] at hread'
  cases hread'
  refine ⟨?_, rfl, rfl⟩
  simp only [Configuration.ofEntries, bind_eq_ok_iff] at hentries hentries'
  obtain ⟨_, -, ruby, hruby, hsections⟩ := hentries
  obtain ⟨_, -, ruby', hruby', hsections'⟩ := hentries'
  obtain rfl : ruby = ruby' := Except.ok.inj (hruby.symm.trans hruby')
  obtain ⟨schema, written, hschema, -, rfl⟩ := options_eq_ok_iff.1 hoptions
  obtain ⟨schema', written', hschema', -, rfl⟩ := options_eq_ok_iff.1 hoptions'
  obtain rfl : schema = schema' := Except.ok.inj (hschema.symm.trans hschema')
  exact (r.sameButOutput_entries schema written written' _).ofSections_eq hsections hsections'

/-- With a blank output a request has a configuration without an output. -/
theorem configuration_blank (hblank : (Text.trim blank).isEmpty)
    (h : exec (r.configuration : RunT (StateM Workspace) Configuration) events w =
      ((.ok c, events'), w')) :
    exec ((r.withOutput (some blank)).configuration : RunT (StateM Workspace) Configuration)
      events w = ((.ok { c with outputPath := none }, events'), w') := by
  obtain ⟨base, path, values, options, hoptions, hread, hentries, rfl⟩ :=
    exec_configuration_eq_ok h
  obtain ⟨schema, written, hschema, -, rfl⟩ := options_eq_ok_iff.1 hoptions
  have hread' : readConfig (r.withOutput (some blank)).config w =
    (.ok (base, path, values), w') := hread
  rw [exec_configuration, options_blank hblank hschema, hread']
  simp only [Configuration.ofEntries, bind_eq_ok_iff] at hentries
  obtain ⟨checked, hchecked, ruby, hruby, hsections⟩ := hentries
  have hblanked := Configuration.ofSections_blank
    (r.sameButOutput_entries schema written (some blank) _) hblank
    (r.find?_output_entries schema blank _) hsections
  have hentries' : Configuration.ofEntries base path values (r.entries schema (some blank)) =
      .ok { c with outputPath := none } := by
    simp only [Configuration.ofEntries, bind_eq_ok_iff]
    exact ⟨checked, hchecked, ruby, hruby, hblanked⟩
  simp only [hentries']
  rfl

/-! ## Where a document goes -/

/-- Where a request wants its document to go, by its configuration: to a file, or to be printed. -/
def requestedOutput (r : Request) (w : Workspace) : Except RunError (Option Path) :=
  (exec (r.configuration : RunT (StateM Workspace) Configuration) [] w).1.1.map
    Configuration.outputPath

/-- The requested output is that of the configuration. -/
theorem requestedOutput_eq_ok {o : Option Path} (h : r.requestedOutput w = .ok o) :
    ∃ c events w', exec (r.configuration : RunT (StateM Workspace) Configuration) [] w =
      ((.ok c, events), w') ∧ c.outputPath = o := by
  unfold requestedOutput at h
  rcases hrun : exec (r.configuration : RunT (StateM Workspace) Configuration) [] w with
    ⟨⟨_ | c, events⟩, w'⟩
  · rw [hrun] at h
    contradiction
  · rw [hrun] at h
    exact ⟨c, events, w', rfl, Except.ok.inj h⟩

/-- A blank output asks for the document to be printed. -/
theorem requestedOutput_blank (hblank : (Text.trim blank).isEmpty) {o : Option Path}
    (h : r.requestedOutput w = .ok o) :
    (r.withOutput (some blank)).requestedOutput w = .ok none := by
  obtain ⟨c, events, w', hrun, -⟩ := requestedOutput_eq_ok h
  rw [requestedOutput, configuration_blank hblank hrun]
  rfl

/-- The document that a configuration asks for. -/
def documentOf (c : Configuration) : RunT (StateM Workspace) String := do
  let schema ← loadSchema c.schemaPath
  noted Event.progress RunError.document (schema.generate c.settings)

/-- Once it is configured a request generates its document without regard to where it goes. -/
theorem exec_prepare (r : Request) (events : List Event) (w : Workspace) :
    exec (r.prepare : RunT (StateM Workspace) Generated) events w =
      match exec (r.configuration : RunT (StateM Workspace) Configuration) events w with
      | ((.ok c, events'), w') =>
        exec (documentOf c >>= fun document => pure ⟨document, c.outputPath⟩) events' w'
      | ((.error e, events'), w') => ((.error e, events'), w') := by
  rw [prepare, exec_bind]
  generalize exec (r.configuration : RunT (StateM Workspace) Configuration) events w = run
  obtain ⟨⟨_ | c, events'⟩, w'⟩ := run
  · rfl
  · simp only [documentOf, exec_bind]
    generalize exec (loadSchema c.schemaPath : RunT (StateM Workspace) Schema) events' w' = run
    obtain ⟨⟨_ | schema, events''⟩, w''⟩ := run
    · rfl
    · rfl

/-- A request is prepared by its configuration and the document of it. -/
theorem exec_prepare_eq_ok_iff :
    exec (r.prepare : RunT (StateM Workspace) Generated) events w =
        ((.ok generated, events'), w') ↔
      ∃ c events₁ w₁, exec (r.configuration : RunT (StateM Workspace) Configuration) events w =
          ((.ok c, events₁), w₁) ∧
        exec (documentOf c) events₁ w₁ = ((.ok generated.document, events'), w') ∧
        generated.outputPath = c.outputPath := by
  rw [exec_prepare]
  rcases hrun : exec (r.configuration : RunT (StateM Workspace) Configuration) events w with
    ⟨⟨_ | c, events₁⟩, w₁⟩
  · simp
  · simp only [exec_bind, exec_pure]
    rcases hdocument : exec (documentOf c) events₁ w₁ with ⟨⟨_ | document, events₂⟩, w₂⟩
    · grind
    · obtain ⟨document', outputPath⟩ := generated
      grind

/-- A document that is prepared goes where it is requested to. -/
theorem outputPath_of_prepare
    (h : exec (r.prepare : RunT (StateM Workspace) Generated) [] w =
      ((.ok generated, events'), w')) :
    r.requestedOutput w = .ok generated.outputPath := by
  obtain ⟨c, events₁, w₁, hrun, -, houtput⟩ := exec_prepare_eq_ok_iff.1 h
  rw [requestedOutput, hrun, houtput]
  rfl

/-- **The document does not depend on where it goes**: if the request with another output asks for
it to be printed, the same document is prepared. -/
theorem prepare_withOutput
    (h : exec (r.prepare : RunT (StateM Workspace) Generated) [] w =
      ((.ok generated, events'), w'))
    (hprinted : (r.withOutput output).requestedOutput w = .ok none) :
    exec ((r.withOutput output).prepare : RunT (StateM Workspace) Generated) [] w =
      ((.ok { generated with outputPath := none }, events'), w') := by
  obtain ⟨c, events₁, w₁, hrun, hdocument, -⟩ := exec_prepare_eq_ok_iff.1 h
  obtain ⟨c', events₁', w₁', hrun', hnone⟩ := requestedOutput_eq_ok hprinted
  obtain ⟨hc, rfl, rfl⟩ := configuration_withOutput hrun hrun'
  rw [exec_prepare_eq_ok_iff]
  refine ⟨c', events₁', w₁', hrun', ?_, hnone.symm⟩
  have hsame : documentOf c' = documentOf c := by
    rw [hc]
    rfl
  rw [hsame]
  exact hdocument

/-! ## Whole runs -/

/-- A document that is to be printed is there once it is prepared. -/
theorem exec_run_withOutput
    (h : exec (r.prepare : RunT (StateM Workspace) Generated) [] w =
      ((.ok generated, events'), w'))
    (hprinted : (r.withOutput output).requestedOutput w = .ok none) :
    exec (r.withOutput output).run [] w =
      ((.ok { generated with outputPath := none }, events'), w') := by
  rw [run, exec_bind, prepare_withOutput h hprinted]
  rfl

/-- A document is prepared, and its way into its file ends with a temporary file that stays. -/
def Strands (r : Request) (w : Workspace) : Prop :=
  ∃ generated events w' p, exec (r.prepare : RunT (StateM Workspace) Generated) [] w =
      ((.ok generated, events), w') ∧
    generated.outputPath = some p ∧ w'.StrandsTemporary p generated.document

/-- A document that goes to a file is written once it is prepared. -/
theorem exec_run_of_prepare {p : Path}
    (h : exec (r.prepare : RunT (StateM Workspace) Generated) [] w =
      ((.ok generated, events'), w'))
    (houtput : generated.outputPath = some p) :
    exec r.run [] w =
      match Workspace.exec (FileAccess.replaceFile p generated.document) w' with
      | (.ok (), w'') => ((.ok generated, events' ++ [.wrote p]), w'')
      | (.error e, w'') => ((.error (.output p e), events'), w'') := by
  rw [run, exec_bind, h]
  simp only [houtput, exec_bind, exec_step]
  obtain ⟨_ | _, w''⟩ :=
    Workspace.exec (FileAccess.replaceFile p generated.document) w'
  · rfl
  · rfl

/-- How a run ends: its outcome, and the workspace that it leaves. -/
inductive Ends (r : Request) (w : Workspace) : Except RunError Generated → Workspace → Prop where
  /-- It fails before anything is changed. -/
  | unprepared {e : RunError} {w' : Workspace} (same : Workspace.Untouched w w') :
    Ends r w (.error e) w'
  /-- It fails to write the document. -/
  | unwritten {e : RunError} {p : Path} {w' : Workspace}
    (requested : r.requestedOutput w = .ok (some p)) (prepared : Workspace.Prepared p.parent w w') :
    Ends r w (.error e) w'
  /-- It fails to write the document, and its temporary file stays. -/
  | stranded {e : RunError} {p : Path} {w' : Workspace}
    (requested : r.requestedOutput w = .ok (some p)) (strands : r.Strands w)
    (littered : Workspace.Littered p.parent w w') : Ends r w (.error e) w'
  /-- The document is to be printed. -/
  | printed {generated : Generated} {events : List Event} {w₁ w' : Workspace}
    (prepared : exec r.prepare [] w = ((.ok generated, events), w₁))
    (output : generated.outputPath = none) (same : Workspace.Untouched w w') :
    Ends r w (.ok generated) w'
  /-- The document is written. -/
  | written {generated : Generated} {events : List Event} {p : Path} {content : List UInt8}
    {w₁ w' : Workspace} (prepared : exec r.prepare [] w = ((.ok generated, events), w₁))
    (output : generated.outputPath = some p)
    (bytes : Text.encode? generated.document = some content)
    (replaced : Workspace.Replaced p content w w') :
    Ends r w (.ok generated) w'

/-- Every run of a request ends in one of the ways that are named for it. -/
theorem ends_run (r : Request) {w : Workspace} (hroot : w.tree.Rooted) :
    r.Ends w (exec r.run [] w).1.1 (exec r.run [] w).2 := by
  have hreads := reads_prepare r [] w
  rcases hprepare : exec (r.prepare : RunT (StateM Workspace) Generated) [] w with
    ⟨⟨e | generated, events₁⟩, w₁⟩
  · rw [hprepare] at hreads
    rw [run, exec_bind, hprepare]
    exact .unprepared hreads
  · rw [hprepare] at hreads
    have hrequested := outputPath_of_prepare hprepare
    cases houtput : generated.outputPath with
    | none =>
        rw [run, exec_bind, hprepare]
        simp only [houtput]
        exact .printed hprepare houtput hreads
    | some p =>
        rw [houtput] at hrequested
        rw [exec_run_of_prepare hprepare houtput]
        obtain ⟨e, w₂, hfile, hprepared⟩ | ⟨e, w₂, hstrands, hfile, hlittered⟩ |
          ⟨content, w₂, hbytes, hfile, hreplaced⟩ := Workspace.exec_replaceFile p generated.document
            (hreads.tree ▸ hroot : w₁.tree.Rooted)
        · rw [hfile]
          exact .unwritten hrequested
            ((Workspace.Prepared.of_untouched hreads).trans _ _ _ hprepared)
        · rw [hfile]
          exact .stranded hrequested ⟨generated, events₁, w₁, p, hprepare, houtput, hstrands⟩
            (hlittered.of_untouched hreads)
        · rw [hfile]
          exact .written hprepare houtput hbytes (hreplaced.of_untouched hreads)

/-- A temporary file that stays does so beside the requested file. -/
theorem Strands.exec_run (h : r.Strands w) (hroot : w.tree.Rooted) :
    ∃ e events w' p, exec r.run [] w = ((.error e, events), w') ∧
      r.requestedOutput w = .ok (some p) ∧ Workspace.Littered p.parent w w' := by
  obtain ⟨generated, events, w₁, p, hprepare, houtput, hstrands⟩ := h
  have hreads := reads_prepare r [] w
  rw [hprepare] at hreads
  have hrequested := outputPath_of_prepare hprepare
  rw [houtput] at hrequested
  obtain ⟨e, w₂, hfile, hlittered⟩ := hstrands.exec_replaceFile (hreads.tree ▸ hroot)
  rw [exec_run_of_prepare hprepare houtput, hfile]
  exact ⟨_, _, w₂, p, rfl, hrequested, hlittered.of_untouched hreads⟩

end Request

end RpcBindings
