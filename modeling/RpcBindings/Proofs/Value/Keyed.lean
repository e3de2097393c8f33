import Mathlib.Data.List.Nodup
import RpcBindings.Value.Basic

/-!
# RpcBindings.Proofs.Value.Keyed

Data whose mappings and sets are what their names say.  The keys of a mapping are
no collections and no two of them are the same, and likewise for the members of a
set; the representation as a list does not force this.  The property passes to
every part of a datum that is read by a key or as an item.
-/

namespace RpcBindings

namespace Value

/-- Data that can serve as the keys of one mapping. -/
def AreKeys (keys : List Value) : Prop :=
  (∀ key ∈ keys, key.isKey = true) ∧ keys.Pairwise fun a b => a.sameKey b = false

/-- No text is a key twice. -/
theorem AreKeys.nodup_texts {keys : List Value} (h : AreKeys keys) :
    (keys.filterMap text?).Nodup := by
  apply List.Pairwise.filterMap text? _ h.2
  intro key key' hdistinct text htext text' htext' heq
  subst heq
  cases key <;> simp [text?] at htext
  cases key' <;> simp [text?] at htext'
  simp [sameKey, number?, htext, htext'] at hdistinct

mutual

/-- Every mapping and every set in the datum has proper keys. -/
def Keyed : Value → Prop
  | .list items => KeyedItems items
  | .set items => AreKeys items ∧ KeyedItems items
  | .pair key value => key.Keyed ∧ value.Keyed
  | .map entries => AreKeys (entries.map (·.1)) ∧ KeyedEntries entries
  | _ => True

/-- The same of each item. -/
def KeyedItems : List Value → Prop
  | [] => True
  | item :: rest => item.Keyed ∧ KeyedItems rest

/-- The same of each value. -/
def KeyedEntries : List (Value × Value) → Prop
  | [] => True
  | (_, value) :: rest => value.Keyed ∧ KeyedEntries rest

end

theorem keyedItems_iff {items : List Value} : KeyedItems items ↔ ∀ item ∈ items, item.Keyed := by
  induction items with
  | nil => simp [KeyedItems]
  | cons item rest ih => simp [KeyedItems, ih]

theorem keyedEntries_iff {entries : List (Value × Value)} :
    KeyedEntries entries ↔ ∀ entry ∈ entries, entry.2.Keyed := by
  induction entries with
  | nil => simp [KeyedEntries]
  | cons entry rest ih => simp [KeyedEntries, ih]

/-- A list repeats no key exactly where none of its items does. -/
theorem keyed_list_iff {items : List Value} :
    (Value.list items).Keyed ↔ ∀ item ∈ items, item.Keyed := by
  rw [Keyed, keyedItems_iff]

/-- A mapping repeats no key exactly where its own keys differ and no value of it repeats one. -/
theorem keyed_map_iff {entries : List (Value × Value)} :
    (Value.map entries).Keyed ↔
      AreKeys (entries.map (·.1)) ∧ ∀ entry ∈ entries, entry.2.Keyed := by
  rw [Keyed, keyedEntries_iff]

theorem keyed_text (s : String) : (Value.text s).Keyed := trivial

/-- Some texts as a list. -/
def ofTexts (texts : List String) : Value :=
  .list (texts.map .text)

/-- A list of texts repeats no key. -/
theorem keyed_ofTexts (texts : List String) : (ofTexts texts).Keyed := by
  rw [ofTexts, keyed_list_iff, List.forall_mem_map]
  exact fun text _ => keyed_text text

/-- Texts are read back from the list of them. -/
theorem mapM_text? (texts : List String) :
    (texts.map Value.text).mapM Value.text? = some texts := by
  induction texts with
  | nil => rfl
  | cons text rest ih => simp [List.mapM_cons, ih, Value.text?]

/-- The items of a value without repeated keys repeat none. -/
theorem Keyed.items {v : Value} {items : List Value} (hv : v.Keyed) (h : v.items? = some items) :
    ∀ item ∈ items, item.Keyed := by
  cases v with
  | list _ => exact Option.some.inj h ▸ keyed_list_iff.1 hv
  | pair key value =>
      obtain rfl := Option.some.inj h
      simpa [Keyed] using hv
  | bytes bs =>
      obtain rfl := Option.some.inj h
      intro item hitem
      obtain ⟨b, -, rfl⟩ := List.mem_map.1 hitem
      trivial
  | _ => contradiction

end Value

namespace Entries

variable {entries : Entries} {name : String}

/-- A value looked up among values without repeated keys repeats none. -/
theorem keyed_get (h : ∀ entry ∈ entries, entry.2.Keyed) : (get entries name).Keyed := by
  rw [get, find?]
  cases hfound : List.find? (hasName name) entries with
  | none => trivial
  | some entry => exact h entry (List.mem_of_find?_eq_some hfound)

/-- Under a text that is a key only once there is the value of its entry. -/
theorem get_of_mem {value : Value} (hkeys : ((entries.map (·.1)).filterMap Value.text?).Nodup)
    (h : (.text name, value) ∈ entries) : get entries name = value := by
  unfold get find?
  induction entries with
  | nil => simp at h
  | cons entry rest ih =>
      obtain ⟨key, old⟩ := entry
      obtain heq | hrest := List.mem_cons.1 h
      · cases heq
        simp [hasName]
      · have hmem : name ∈ (rest.map (·.1)).filterMap Value.text? :=
          List.mem_filterMap.2 ⟨_, List.mem_map_of_mem hrest, rfl⟩
        have hname : hasName name (key, old) = false := by
          cases key with
          | text s =>
              have hs : s ∉ (rest.map (·.1)).filterMap Value.text? := (List.nodup_cons.1 hkeys).1
              exact beq_eq_false_iff_ne.2 fun heq => hs (heq ▸ hmem)
          | _ => rfl
        rw [List.find?_cons, hname]
        exact ih (hkeys.sublist ((List.sublist_cons_self _ _).filterMap _)) hrest

/-- Entries under texts. -/
def ofTexts (entries : List (String × Value)) : Entries :=
  entries.map fun entry => (.text entry.1, entry.2)

/-- Under a text there is the value of the first entry with this text. -/
theorem find?_ofTexts (entries : List (String × Value)) (name : String) :
    find? (ofTexts entries) name = entries.lookup name := by
  induction entries with
  | nil => rfl
  | cons entry rest ih =>
      obtain ⟨first, value⟩ := entry
      rw [List.lookup_cons, ← ih]
      by_cases h : first = name
      · simp [find?, ofTexts, hasName, h]
      · simp [find?, ofTexts, hasName, h, beq_eq_false_iff_ne.2 (Ne.symm h)]

/-- Looking up a text key is looking up the text. -/
theorem get_ofTexts (entries : List (String × Value)) (name : String) :
    get (ofTexts entries) name = (entries.lookup name).getD .null := by
  rw [get, find?_ofTexts]

/-- Distinct texts are proper keys. -/
theorem keyed_ofTexts {entries : List (String × Value)} (hnames : (entries.map (·.1)).Nodup)
    (hvalues : ∀ entry ∈ entries, entry.2.Keyed) : (Value.map (ofTexts entries)).Keyed := by
  have hkeys : (ofTexts entries).map (·.1) = (entries.map (·.1)).map Value.text := by
    simp [ofTexts]
  rw [Value.keyed_map_iff, hkeys]
  refine ⟨⟨?_, ?_⟩, ?_⟩
  · intro key hkey
    obtain ⟨text, -, rfl⟩ := List.mem_map.1 hkey
    rfl
  · rw [List.pairwise_map]
    exact hnames.imp fun hne => by simpa [Value.sameKey, Value.number?] using hne
  · intro entry hentry
    obtain ⟨named, hnamed, rfl⟩ := List.mem_map.1 hentry
    exact hvalues named hnamed

end Entries

end RpcBindings
