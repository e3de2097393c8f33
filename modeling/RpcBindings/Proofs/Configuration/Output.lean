import RpcBindings.Configuration.Reader
import RpcBindings.Proofs.Outcome

/-!
# RpcBindings.Proofs.Configuration.Output

Configurations that differ in their output.  Options are written over settings
one key at a time, and the output is read from its own key only.  So another
output among the options changes nothing else about a configuration, and a blank
one gives the configuration that prints its document.
-/

namespace RpcBindings

namespace Configuration

variable {s s' : Sections} {name key : String} {value : Value} {base : Path}
  {path : Option Path} {c c' : Configuration}

/-- Settings that differ in the output at most. -/
structure SameButOutput (s s' : Sections) : Prop where
  ruby : s'.ruby = s.ruby
  top : ∀ name, name ≠ "output" → Entries.find? s'.top name = Entries.find? s.top name

theorem SameButOutput.refl (s : Sections) : SameButOutput s s := ⟨rfl, fun _ _ => rfl⟩

/-- An absent option overrides nothing. -/
theorem override_null (s : Sections) (key : Value) : s.override (key, .null) = s := by
  unfold Sections.override
  split <;> simp_all

/-- An option under a key at the top is written there. -/
theorem override_text (hmodule : key ≠ "ruby_module") (hclass : key ≠ "ruby_class")
    (hvalue : value ≠ .null) (s : Sections) :
    s.override (.text key, value) = { s with top := Entries.putText s.top key value } := by
  unfold Sections.override
  split
  · next heq => simp_all
  · next heq => simp_all
  · next heq => simp_all
  · next heq =>
    cases heq
    rfl

/-- The output is written under its own key. -/
theorem find?_override (s : Sections) (hkey : key ≠ "output") (value : Value) :
    Entries.find? (s.override (.text key, value)).top "output" =
      Entries.find? s.top "output" := by
  unfold Sections.override
  split
  · rfl
  · rfl
  · rfl
  · next heq =>
    cases heq
    exact (Entries.find?_putText _ _ _ _).trans (if_neg (Ne.symm hkey))

/-- An option overrides alike where only the output differs. -/
theorem SameButOutput.override (h : SameButOutput s s') (key : String) (value : Value) :
    SameButOutput (s.override (.text key, value)) (s'.override (.text key, value)) := by
  unfold Sections.override
  split
  · exact h
  · exact ⟨by rw [h.ruby], h.top⟩
  · exact ⟨by rw [h.ruby], h.top⟩
  · next heq =>
    cases heq
    refine ⟨h.ruby, fun name hname => ?_⟩
    show Entries.find? (Entries.putText _ _ _) name = Entries.find? (Entries.putText _ _ _) name
    rw [Entries.find?_putText, Entries.find?_putText, h.top name hname]

/-- Writing any output leaves all else. -/
theorem SameButOutput.override_output (h : SameButOutput s s') (value value' : Value) :
    SameButOutput (s.override (.text "output", value)) (s'.override (.text "output", value')) := by
  have hself : ∀ (s : Sections) value, SameButOutput s (s.override (.text "output", value)) := by
    intro s value
    by_cases hvalue : value = .null
    · rw [hvalue, override_null]
      exact .refl s
    · rw [override_text (by decide) (by decide) hvalue]
      refine ⟨rfl, fun name hname => ?_⟩
      exact (Entries.find?_putText _ _ _ _).trans (if_neg hname)
  have hfirst := hself s value
  have hsecond := hself s' value'
  refine ⟨?_, fun name hname => ?_⟩
  · rw [hsecond.ruby, h.ruby, hfirst.ruby]
  · rw [hsecond.top name hname, h.top name hname, hfirst.top name hname]

/-- Every other name is looked up alike where only the output differs. -/
theorem SameButOutput.get (h : SameButOutput s s') (hname : name ≠ "output") :
    Entries.get s'.top name = Entries.get s.top name := by
  rw [Entries.get, Entries.get, h.top name hname]

/-- Every other name with a usual value is looked up alike where only the output differs. -/
theorem SameButOutput.getD (h : SameButOutput s s') (hname : name ≠ "output") (usual : String) :
    getD s'.top name usual = getD s.top name usual := by
  rw [Configuration.getD, Configuration.getD, h.top name hname]

/-- A blank text counts as absent. -/
theorem optionalText_blank {blank : String} (hblank : (Text.trim blank).isEmpty) :
    optionalText key (.text blank) = .ok none := by
  simp only [optionalText, hblank, if_true]

variable [Encoding]

/-- **The output is on its own**: settings that differ in the output describe configurations that
differ in it only. -/
theorem SameButOutput.ofSections_eq (h : SameButOutput s s')
    (hc : ofSections base path s = .ok c) (hc' : ofSections base path s' = .ok c') :
    c' = { c with outputPath := c'.outputPath } := by
  simp only [ofSections, bind_eq_ok_iff, pure_eq_ok, Except.ok.injEq, h.ruby,
    h.get (by decide : "schema" ≠ "output"), h.get (by decide : "target" ≠ "output"),
    h.get (by decide : "tags" ≠ "output"), h.get (by decide : "validate" ≠ "output"),
    h.getD (by decide : "package" ≠ "output"),
    h.getD (by decide : "fetch_library" ≠ "output")] at hc hc'
  obtain ⟨schema, hschema, _, -, target, htarget, package, hpackage, fetchLibrary, hfetch, tags,
    htags, validate, hvalidate, rubyModule, hmodule, rubyClass, hclass, schemaPath, hpath, _, -,
    rfl⟩ := hc
  simp only [hschema, htarget, hpackage, hfetch, htags, hvalidate, hmodule, hclass, hpath,
    Except.ok.injEq, exists_eq_left'] at hc'
  obtain ⟨_, -, _, -, rfl⟩ := hc'
  rfl

/-- **A blank output is none**: settings that describe a configuration describe one without an
output once theirs is blank. -/
theorem ofSections_blank (h : SameButOutput s s') {blank : String}
    (hblank : (Text.trim blank).isEmpty)
    (houtput : Entries.find? s'.top "output" = some (.text blank))
    (hconfiguration : ofSections base path s = .ok c) :
    ofSections base path s' = .ok { c with outputPath := none } := by
  have hget : Entries.get s'.top "output" = .text blank := by
    rw [Entries.get, houtput, Option.getD_some]
  simp only [ofSections, bind_eq_ok_iff, pure_eq_ok, Except.ok.injEq] at hconfiguration
  obtain ⟨schema, hschema, output, -, target, htarget, package, hpackage, fetchLibrary, hfetch,
    tags, htags, validate, hvalidate, rubyModule, hmodule, rubyClass, hclass, schemaPath, hpath,
    outputPath, -, rfl⟩ := hconfiguration
  simp only [ofSections, bind_eq_ok_iff, pure_eq_ok, Except.ok.injEq, hget, h.ruby,
    h.get (by decide : "schema" ≠ "output"), h.get (by decide : "target" ≠ "output"),
    h.get (by decide : "tags" ≠ "output"), h.get (by decide : "validate" ≠ "output"),
    h.getD (by decide : "package" ≠ "output"), h.getD (by decide : "fetch_library" ≠ "output")]
  exact ⟨schema, hschema, none, optionalText_blank hblank, target, htarget, package, hpackage,
    fetchLibrary, hfetch, tags, htags, validate, hvalidate, rubyModule, hmodule, rubyClass, hclass,
    schemaPath, hpath, none, rfl, rfl⟩

end Configuration

end RpcBindings
