import RpcBindings.Host
import RpcBindings.Proofs.Configuration.Output

/-!
# RpcBindings.Proofs.Configuration.Override

Options as edits of the data.  Each option is for one place in the data: a key at
the top, or a key of the section on Ruby.  The settings that data and options make
up are read place by place, and at each place there is what the options give last,
or else what the data say (`find?_foldl_override`).  The data with the options
written into them say the same at each place, so that they describe the same
configuration, or are refused with the same cause (`ofEntries_edited`).
-/

namespace RpcBindings

namespace Configuration

/-! ## Places -/

/-- Where data have a setting. -/
inductive Place where
  | top (key : String)
  | ruby (key : String)
deriving DecidableEq

/-- The options, each with the place that it is for. -/
def places : List (String × Place) :=
  [("schema", .top "schema"), ("target", .top "target"), ("output", .top "output"),
   ("package", .top "package"), ("fetch_library", .top "fetch_library"), ("tags", .top "tags"),
   ("validate", .top "validate"), ("ruby_module", .ruby "module"), ("ruby_class", .ruby "class")]

/-- A key with a value that is an option. -/
def IsOption (option : Value × Value) : Prop :=
  ∃ entry ∈ places, option.1 = .text entry.1

/-- The section on Ruby of some data. -/
def rubyEntries (values : Entries) : Entries :=
  match Entries.get values "ruby" with
  | .map entries => entries
  | _ => []

/-- Data whose section on Ruby is a mapping, null or absent. -/
def HasRubySection (values : Entries) : Prop :=
  Entries.get values "ruby" = .null ∨ ∃ entries, Entries.get values "ruby" = .map entries

/-- Writes a value at a place in the data. -/
def Place.write (values : Entries) (value : Value) : Place → Entries
  | .top key => Entries.putText values key value
  | .ruby key =>
    Entries.putText values "ruby" (.map (Entries.putText (rubyEntries values) key value))

/-- Writes an option into the data, at the place that it is for.  Null counts as not given. -/
def edit (values : Entries) (option : Value × Value) : Entries :=
  match option with
  | (_, .null) => values
  | (.text name, value) =>
    match places.lookup name with
    | some place => place.write values value
    | none => values
  | _ => values

/-- The data with options written into them one after the other. -/
def edited (values options : Entries) : Entries :=
  options.foldl edit values

variable {values options : Entries} {option : Value × Value} {place other : Place} {name : String}
  {value : Value} {s s' : Sections} {base : Path} {path : Option Path}

/-! ## What is at a place -/

/-- The settings that data make up on their own. -/
def ownSections (values : Entries) : Sections :=
  ⟨values, rubyEntries values⟩

/-- What settings have at a place. -/
def Place.read (s : Sections) : Place → Option Value
  | .top key => Entries.find? s.top key
  | .ruby key => Entries.find? s.ruby key

/-- Settings with a value at a place. -/
def Place.put (s : Sections) (value : Value) : Place → Sections
  | .top key => { s with top := Entries.putText s.top key value }
  | .ruby key => { s with ruby := Entries.putText s.ruby key value }

/-- What is put in one place is read there, and changes no other. -/
theorem Place.read_put (place other : Place) (s : Sections) (value : Value) :
    other.read (place.put s value) = if other = place then some value else other.read s := by
  cases place <;> cases other <;> simp [Place.read, Place.put, Entries.find?_putText]

/-- The section on Ruby as a whole is no setting; it is read by its keys. -/
abbrev Place.IsSetting (place : Place) : Prop := place ≠ .top "ruby"

/-- Every place of the table is a setting. -/
theorem isSetting_of_mem (h : (name, place) ∈ places) : place.IsSetting := by
  revert h
  exact (by decide : ∀ entry ∈ places, entry.2.IsSetting) (name, place)

/-- The table names each place once. -/
theorem lookup_of_mem (h : (name, place) ∈ places) : places.lookup name = some place := by
  revert h
  exact (by decide : ∀ entry ∈ places, places.lookup entry.1 = some entry.2) (name, place)

/-- The section is the one that was put. -/
theorem rubyEntries_putText (values entries : Entries) :
    rubyEntries (Entries.putText values "ruby" (.map entries)) = entries := by
  rw [rubyEntries, Entries.get_putText, if_pos rfl]

/-- Putting another name leaves the section as it is. -/
theorem rubyEntries_putText_of_ne (h : name ≠ "ruby") (values : Entries) (value : Value) :
    rubyEntries (Entries.putText values name value) = rubyEntries values := by
  rw [rubyEntries, Entries.get_putText, if_neg h.symm, rubyEntries]

/-- Writing at a place in the data shows at that place only. -/
theorem Place.read_write (hplace : place.IsSetting) (hother : other.IsSetting) (values : Entries)
    (value : Value) :
    other.read (ownSections (place.write values value)) =
      if other = place then some value else other.read (ownSections values) := by
  rw [← read_put]
  cases place with
  | top key =>
      have hkey : key ≠ "ruby" := fun h => hplace (by rw [h])
      simp only [ownSections, write, put, rubyEntries_putText_of_ne hkey]
  | ruby key =>
      cases other with
      | top key' =>
          have hkey : key' ≠ "ruby" := fun h => hother (by rw [h])
          simp only [ownSections, write, put, read, Entries.find?_putText, if_neg hkey]
      | ruby key' => simp only [ownSections, write, put, read, rubyEntries_putText]

/-- An option that is not null is put at its place. -/
theorem override_of_mem (h : (name, place) ∈ places) (hvalue : value ≠ .null) (s : Sections) :
    s.override (.text name, value) = place.put s value := by
  have hplaces : ∀ entry ∈ places, entry.2 = .top entry.1 ∧ entry.1 ≠ "ruby_module" ∧
      entry.1 ≠ "ruby_class" ∨ entry = ("ruby_module", .ruby "module") ∨
      entry = ("ruby_class", .ruby "class") := by
    decide
  obtain ⟨hplace, hmodule, hclass⟩ | hmodule | hclass := hplaces _ h
  · obtain rfl : place = .top name := hplace
    exact override_text hmodule hclass hvalue s
  · cases hmodule
    cases value <;> first | contradiction | rfl
  · cases hclass
    cases value <;> first | contradiction | rfl

/-- An absent option edits nothing. -/
theorem edit_null (values : Entries) (key : Value) : edit values (key, .null) = values := rfl

/-- An option writes its value in its place. -/
theorem edit_of_mem (h : (name, place) ∈ places) (hvalue : value ≠ .null) (values : Entries) :
    edit values (.text name, value) = place.write values value := by
  unfold edit
  split
  · next heq => exact absurd (Prod.mk.inj heq).2 hvalue
  · next heq =>
    cases heq
    rw [lookup_of_mem h]
  · next hother => exact absurd rfl (hother _ _)

/-! ## What options give -/

/-- What an option gives for a place. -/
def Place.gift? (place : Place) (option : Value × Value) : Option Value :=
  match option with
  | (_, .null) => none
  | (.text name, value) => if places.lookup name = some place then some value else none
  | _ => none

/-- What options give for a place: of several values the last. -/
def Place.given? (place : Place) : Entries → Option Value
  | [] => none
  | option :: rest => (place.given? rest).or (place.gift? option)

/-- An option gives its value to its own place and nothing to the others. -/
theorem Place.gift?_of_mem (h : (name, place) ∈ places) (hvalue : value ≠ .null) (other : Place) :
    other.gift? (.text name, value) = if other = place then some value else none := by
  unfold gift?
  split
  · next heq => exact absurd (Prod.mk.inj heq).2 hvalue
  · next heq =>
    cases heq
    simp only [lookup_of_mem h, Option.some.injEq, eq_comm]
  · next hother => exact absurd rfl (hother _ _)

/-- One option: over the settings. -/
theorem Place.read_override (hoption : IsOption option) (s : Sections) (place : Place) :
    place.read (s.override option) = (place.gift? option).or (place.read s) := by
  obtain ⟨key, value⟩ := option
  obtain ⟨⟨name, own⟩, hmem, rfl⟩ := hoption
  by_cases hvalue : value = .null
  · rw [hvalue, override_null]
    rfl
  · rw [override_of_mem hmem hvalue, read_put, gift?_of_mem hmem hvalue]
    split <;> rfl

/-- One option: into the data. -/
theorem Place.read_edit (hoption : IsOption option) (hplace : place.IsSetting)
    (values : Entries) :
    place.read (ownSections (edit values option)) =
      (place.gift? option).or (place.read (ownSections values)) := by
  obtain ⟨key, value⟩ := option
  obtain ⟨⟨name, own⟩, hmem, rfl⟩ := hoption
  by_cases hvalue : value = .null
  · rw [hvalue, edit_null]
    rfl
  · rw [edit_of_mem hmem hvalue, read_write (isSetting_of_mem hmem) hplace,
      gift?_of_mem hmem hvalue]
    split <;> rfl

/-- All options: at each place there is what they give, or else what was there. -/
theorem Place.read_foldl_override (hoptions : ∀ option ∈ options, IsOption option) (s : Sections)
    (place : Place) :
    place.read (options.foldl Sections.override s) = (place.given? options).or (place.read s) := by
  induction options generalizing s with
  | nil => rfl
  | cons option rest ih =>
      rw [List.forall_mem_cons] at hoptions
      rw [List.foldl_cons, ih hoptions.2, read_override hoptions.1, given?, Option.or_assoc]

/-- A place of an edited file reads the last value that an option gave it, or else its own. -/
theorem Place.read_edited (hoptions : ∀ option ∈ options, IsOption option)
    (hplace : place.IsSetting) (values : Entries) :
    place.read (ownSections (edited values options)) =
      (place.given? options).or (place.read (ownSections values)) := by
  unfold edited
  induction options generalizing values with
  | nil => rfl
  | cons option rest ih =>
      rw [List.forall_mem_cons] at hoptions
      rw [List.foldl_cons, ih hoptions.2, read_edit hoptions.1 hplace, given?, Option.or_assoc]

/-- Of an option that is not null something is given for its place. -/
theorem Place.given?_isSome (hname : (name, place) ∈ places)
    (hmem : (.text name, value) ∈ options) (hvalue : value ≠ .null) :
    (place.given? options).isSome := by
  induction options with
  | nil => contradiction
  | cons option rest ih =>
      rw [given?, Option.isSome_or, Bool.or_eq_true]
      obtain rfl | hrest := List.mem_cons.1 hmem
      · rw [gift?_of_mem hname hvalue, if_pos rfl]
        exact .inr rfl
      · exact .inl (ih hrest)

/-! ## The configuration -/

/-- Settings that have the same at each place describe the same configuration. -/
theorem ofSections_congr [Encoding]
    (h : ∀ place : Place, place.IsSetting → place.read s = place.read s') :
    ofSections base path s = ofSections base path s' := by
  have htop : ∀ key, key ≠ "ruby" → Entries.find? s.top key = Entries.find? s'.top key :=
    fun key hkey => h (.top key) (by simpa [Place.IsSetting] using hkey)
  have hruby : ∀ key, Entries.find? s.ruby key = Entries.find? s'.ruby key :=
    fun key => h (.ruby key) (by simp [Place.IsSetting])
  simp only [ofSections, Entries.get, getD, hruby, htop "schema" (by decide),
    htop "output" (by decide), htop "target" (by decide), htop "package" (by decide),
    htop "fetch_library" (by decide), htop "tags" (by decide), htop "validate" (by decide)]

/-- The section of a file that has one or none is read as its entries. -/
theorem section?_eq_ok (h : HasRubySection values) :
    (section? "ruby" (Entries.get values "ruby")) = .ok (rubyEntries values) := by
  unfold rubyEntries
  obtain hnull | ⟨entries, hentries⟩ := h
  · rw [hnull]
    rfl
  · rw [hentries]
    rfl

/-- Data with a section on Ruby are read as settings of their own. -/
theorem ofEntries_eq_ownSections [Encoding] (h : HasRubySection values) (base : Path)
    (path : Option Path) (options : Entries) :
    ofEntries base path values options = (do
      checkKeys values
      ofSections base path (options.foldl Sections.override (ownSections values))) := by
  rw [ofEntries, section?_eq_ok h]
  rfl

/-- Writing under a known key leaves the unknown ones. -/
theorem unknownKeys_putText (h : name ∈ knownKeys) (values : Entries) (value : Value) :
    unknownKeys (Entries.putText values name value) = unknownKeys values := by
  unfold Entries.putText Entries.put unknownKeys
  induction values with
  | nil => simp [Entries.putBy, h]
  | cons entry rest ih =>
      obtain ⟨key, old⟩ := entry
      rw [Entries.putBy]
      split
      · rfl
      · simp only [List.map_cons, List.filter_cons, ih]

/-- Writing a setting brings in no unknown key. -/
theorem checkKeys_write (h : (name, place) ∈ places) (values : Entries) (value : Value) :
    checkKeys (place.write values value) = checkKeys values := by
  have hplaces : ∀ entry ∈ places, ∀ key, entry.2 = .top key → key ∈ knownKeys := by
    simp [places, knownKeys]
  unfold checkKeys
  cases place with
  | top key => rw [Place.write, unknownKeys_putText (hplaces _ h key rfl)]
  | ruby key => rw [Place.write, unknownKeys_putText (by decide)]

/-- Writing a setting leaves the section a mapping, or absent. -/
theorem HasRubySection.write (h : HasRubySection values) (hplace : place.IsSetting)
    (value : Value) : HasRubySection (place.write values value) := by
  unfold HasRubySection at h ⊢
  cases place with
  | top key =>
      have hkey : "ruby" ≠ key := fun heq => hplace (by rw [heq])
      rw [Place.write, Entries.get_putText, if_neg hkey]
      exact h
  | ruby key =>
      rw [Place.write, Entries.get_putText, if_pos rfl]
      exact .inr ⟨_, rfl⟩

/-- The section of an edited file is one as before, and its keys are checked alike. -/
theorem HasRubySection.edited (h : HasRubySection values)
    (hoptions : ∀ option ∈ options, IsOption option) :
    HasRubySection (edited values options) ∧
      checkKeys (edited values options) = checkKeys values := by
  unfold Configuration.edited
  induction options generalizing values with
  | nil => exact ⟨h, rfl⟩
  | cons option rest ih =>
      rw [List.forall_mem_cons] at hoptions
      obtain ⟨key, value⟩ := option
      obtain ⟨⟨name, place⟩, hmem, rfl⟩ := hoptions.1
      rw [List.foldl_cons]
      by_cases hvalue : value = .null
      · rw [hvalue, edit_null]
        exact ih h hoptions.2
      · obtain ⟨hsection, hkeys⟩ := ih (h.write (isSetting_of_mem hmem) value) hoptions.2
        rw [edit_of_mem hmem hvalue]
        exact ⟨hsection, hkeys.trans (checkKeys_write hmem values value)⟩

/-- What a request writes over its configuration are options. -/
theorem isOption_of_mem_entries (r : Request) (schema output : Option String) :
    ∀ option ∈ r.entries schema output, IsOption option := by
  have hnames : (r.entries schema output).map (·.1) = places.map fun entry => .text entry.1 := rfl
  intro option hoption
  obtain ⟨entry, hentry, heq⟩ := List.mem_map.1 (hnames ▸ List.mem_map_of_mem hoption)
  exact ⟨entry, hentry, heq.symm⟩

/-- **An option is an edit of the data.**  Options that are written over data with a section on Ruby
that is a mapping, null or absent give what the data give once the options are written into them:
the same configuration or the same cause.  So it does not matter what the data have at a place for
which there is an option that is not null, valid or not. -/
theorem ofEntries_edited [Encoding] (hruby : HasRubySection values)
    (hoptions : ∀ option ∈ options, IsOption option) (base : Path) (path : Option Path) :
    ofEntries base path values options = ofEntries base path (edited values options) [] ∧
      ∀ name place value, (name, place) ∈ places → (.text name, value) ∈ options →
        value ≠ .null → ∀ old, ofEntries base path (place.write values old) options =
          ofEntries base path values options := by
  constructor
  · obtain ⟨hsection, hkeys⟩ := hruby.edited hoptions
    rw [ofEntries_eq_ownSections hruby, ofEntries_eq_ownSections hsection, hkeys]
    congr 1
    funext _
    refine ofSections_congr fun place hplace => ?_
    rw [Place.read_foldl_override hoptions, List.foldl_nil, Place.read_edited hoptions hplace]
  · intro name place value hname hmem hvalue old
    have hplace := isSetting_of_mem hname
    rw [ofEntries_eq_ownSections hruby, ofEntries_eq_ownSections (hruby.write hplace old),
      checkKeys_write hname]
    congr 1
    funext _
    refine ofSections_congr fun other hother => ?_
    rw [Place.read_foldl_override hoptions, Place.read_foldl_override hoptions,
      Place.read_write hplace hother]
    split
    · next heq =>
      obtain ⟨given, hgiven⟩ := Option.isSome_iff_exists.1 (Place.given?_isSome hname hmem hvalue)
      rw [heq, hgiven]
      rfl
    · rfl

/-- Data with a number for the path of the schema and no constant for the module. -/
def shopValues : Entries :=
  [(.text "schema", .int 3), (.text "target", .text "ruby-client"),
   (.text "ruby", .map [(.text "module", .text "shop")])]

/-- The options that put both in order. -/
def shopOptions : Entries :=
  Request.entries { rubyModule := some "Shop" } (some "/shop.yaml") none

open scoped Host in
/-- Data that are refused, and that describe a configuration with the options over them. -/
theorem ofEntries_edited_shop :
    HasRubySection shopValues ∧ (∀ option ∈ shopOptions, IsOption option) ∧
      (ofEntries (Path.ofString "/work") none shopValues []).isOk = false ∧
      (ofEntries (Path.ofString "/work") none shopValues shopOptions).isOk = true ∧
      ofEntries (Path.ofString "/work") none shopValues shopOptions =
        ofEntries (Path.ofString "/work") none (edited shopValues shopOptions) [] ∧
      ∀ old, ofEntries (Path.ofString "/work") none
          ((Place.ruby "module").write shopValues old) shopOptions =
        ofEntries (Path.ofString "/work") none shopValues shopOptions := by
  have hruby : HasRubySection shopValues := .inr ⟨_, rfl⟩
  have hoptions := isOption_of_mem_entries { rubyModule := some "Shop" } (some "/shop.yaml") none
  obtain ⟨hedited, hold⟩ := ofEntries_edited hruby hoptions (Path.ofString "/work") none
  exact ⟨hruby, hoptions, by decide, by decide, hedited,
    hold "ruby_module" _ (.text "Shop") (by decide) (by simp [Request.entries]) (by simp)⟩

end Configuration

end RpcBindings
