import RpcBindings.Proofs.Value.Writes

/-!
# RpcBindings.Proofs.Value.Alike

Data that are the same but for the order of the keys in their mappings, at every
depth.  Writing alike values under the same names, in whatever order, leaves
mappings alike (`alike_writeAll`).
-/

namespace RpcBindings

mutual

/-- The same data, the entries of mappings in any order. -/
inductive Value.Alike : Value → Value → Prop where
  | refl (value : Value) : Value.Alike value value
  | list {items items' : List Value} (h : Value.AlikeItems items items') :
    Value.Alike (.list items) (.list items')
  | pair {first first' second second' : Value} (hfirst : Value.Alike first first')
    (hsecond : Value.Alike second second') :
    Value.Alike (.pair first second) (.pair first' second')
  | map {entries between entries' : Entries} (hperm : entries.Perm between)
    (hvalues : Value.AlikeEntries between entries') : Value.Alike (.map entries) (.map entries')

/-- Items that are alike one by one. -/
inductive Value.AlikeItems : List Value → List Value → Prop where
  | nil : Value.AlikeItems [] []
  | cons {item item' : Value} {rest rest' : List Value} (hitem : Value.Alike item item')
    (hrest : Value.AlikeItems rest rest') : Value.AlikeItems (item :: rest) (item' :: rest')

/-- Entries with the same keys one by one and values that are alike. -/
inductive Value.AlikeEntries : Entries → Entries → Prop where
  | nil : Value.AlikeEntries [] []
  | cons {key value value' : Value} {rest rest' : Entries} (hvalue : Value.Alike value value')
    (hrest : Value.AlikeEntries rest rest') :
    Value.AlikeEntries ((key, value) :: rest) ((key, value') :: rest')

end

namespace Value

/-- Values that are alike are null together. -/
theorem Alike.null_iff {value value' : Value} (h : Alike value value') :
    value = .null ↔ value' = .null := by
  cases h <;> simp

namespace AlikeEntries

variable {entries entries' : Entries} {name : String} {value value' : Value}

theorem refl (entries : Entries) : AlikeEntries entries entries := by
  induction entries with
  | nil => exact .nil
  | cons entry rest ih => exact .cons (.refl _) ih

/-- Entries that are alike have the same keys. -/
theorem map_fst (h : AlikeEntries entries entries') :
    entries.map (·.1) = entries'.map (·.1) := by
  induction entries generalizing entries' with
  | nil => cases h; rfl
  | cons entry rest ih =>
      cases h with
      | cons hvalue hrest => simp [ih hrest]

theorem append {more more' : Entries} (h : AlikeEntries entries entries')
    (hmore : AlikeEntries more more') : AlikeEntries (entries ++ more) (entries' ++ more') := by
  induction entries generalizing entries' with
  | nil => cases h; exact hmore
  | cons entry rest ih =>
      cases h with
      | cons hvalue hrest => exact .cons hvalue (ih hrest)

/-- Overwriting with values that are alike keeps entries alike. -/
theorem overwrite (h : AlikeEntries entries entries') (hvalue : Alike value value') :
    AlikeEntries (Entries.overwrite entries name value)
      (Entries.overwrite entries' name value') := by
  induction entries generalizing entries' with
  | nil => cases h; exact .nil
  | cons entry rest ih =>
      cases h with
      | cons hold hrest =>
          rename_i key old old' rest'
          have hname : Entries.hasName name (key, old') = Entries.hasName name (key, old) := rfl
          rw [Entries.overwrite, Entries.overwrite, hname]
          split
          · exact .cons hvalue hrest
          · exact .cons hold (ih hrest)

theorem assign (h : AlikeEntries entries entries') (hvalue : Alike value value') :
    AlikeEntries (Entries.assign entries name value) (Entries.assign entries' name value') := by
  have hadded : Entries.isAdded entries (name, value) =
      Entries.isAdded entries' (name, value') := by
    rw [Bool.eq_iff_iff, Entries.isAdded_iff, Entries.isAdded_iff, Entries.find?_eq_none_iff,
      Entries.find?_eq_none_iff, h.map_fst, ne_eq, ne_eq, hvalue.null_iff]
  rw [Entries.assign_eq, Entries.assign_eq, hadded]
  apply (h.overwrite hvalue).append
  split
  · exact .cons hvalue .nil
  · exact .nil

/-- Alike values under the same names leave entries alike. -/
theorem writeAll {α : Type} (members : List α) {names : α → String} {values values' : α → Value}
    (h : AlikeEntries entries entries')
    (hvalues : ∀ member ∈ members, Alike (values member) (values' member)) :
    AlikeEntries
      (Entries.writeAll entries (members.map fun member => (names member, values member)))
      (Entries.writeAll entries' (members.map fun member => (names member, values' member))) := by
  induction members generalizing entries entries' with
  | nil => exact h
  | cons member rest ih =>
      rw [List.forall_mem_cons] at hvalues
      exact ih (h.assign hvalues.1) hvalues.2

end AlikeEntries

/-- Values that are alike, under the same names in any order, leave mappings alike. -/
theorem alike_writeAll {α : Type} {members members' : List α} {names : α → String}
    {values values' : α → Value} (hnames : (members.map names).Nodup)
    (hperm : members.Perm members')
    (hvalues : ∀ member ∈ members, Alike (values member) (values' member)) (entries : Entries) :
    Alike
      (.map (Entries.writeAll entries (members.map fun member => (names member, values member))))
      (.map (Entries.writeAll entries
        (members'.map fun member => (names member, values' member)))) := by
  apply Alike.map (Entries.writeAll_perm _ (hperm.map _) entries)
  · exact (AlikeEntries.refl entries).writeAll members' fun member hmember =>
      hvalues member (hperm.mem_iff.2 hmember)
  · rw [List.map_map]
    exact hnames

end Value

end RpcBindings
