import RpcBindings.Proofs.Outcome
import RpcBindings.Value.Json

/-!
# RpcBindings.Proofs.Value.Json

Which data have a JSON form.  A datum lacks one because of one of its parts: a
date, an instant, bytes, a set or a whole number of too many digits, or a key
that is none of the data that are written as keys.  Nothing else about a datum
matters (`render_isOk_iff`).
-/

namespace RpcBindings

namespace Value

/-- A whole number that is not written. -/
def IsTooLong (i : Int) : Prop := Nat.pow 10 Decimal.mostDigits ≤ i.natAbs

/-- Data that are not written as the key of an object. -/
inductive NoJsonKey : Value → Prop where
  | int {i : Int} (h : IsTooLong i) : NoJsonKey (.int i)
  | date (d : Date) : NoJsonKey (.date d)
  | instant (t : Instant) : NoJsonKey (.instant t)
  | bytes (bs : List UInt8) : NoJsonKey (.bytes bs)
  | list (items : List Value) : NoJsonKey (.list items)
  | pair (key value : Value) : NoJsonKey (.pair key value)
  | set (items : List Value) : NoJsonKey (.set items)
  | map (entries : Entries) : NoJsonKey (.map entries)

/-- Data a part of which has no JSON form. -/
inductive Formless : Value → Prop where
  | int {i : Int} (h : IsTooLong i) : Formless (.int i)
  | date (d : Date) : Formless (.date d)
  | instant (t : Instant) : Formless (.instant t)
  | bytes (bs : List UInt8) : Formless (.bytes bs)
  | set (items : List Value) : Formless (.set items)
  | item {items : List Value} {item : Value} (hitem : item ∈ items) (h : Formless item) :
    Formless (.list items)
  | first {key value : Value} (h : Formless key) : Formless (.pair key value)
  | second {key value : Value} (h : Formless value) : Formless (.pair key value)
  | key {entries : Entries} {key value : Value} (hentry : (key, value) ∈ entries)
    (h : NoJsonKey key) : Formless (.map entries)
  | value {entries : Entries} {key value : Value} (hentry : (key, value) ∈ entries)
    (h : Formless value) : Formless (.map entries)

/-- A list has no JSON form exactly where one of its items has none. -/
theorem formless_list_iff {items : List Value} :
    (Value.list items).Formless ↔ ∃ item ∈ items, item.Formless := by
  constructor
  · intro h
    cases h with
    | item hitem h => exact ⟨_, hitem, h⟩
  · rintro ⟨item, hitem, h⟩
    exact .item hitem h

theorem formless_pair_iff {key value : Value} :
    (Value.pair key value).Formless ↔ key.Formless ∨ value.Formless := by
  constructor
  · intro h
    cases h with
    | first h => exact .inl h
    | second h => exact .inr h
  · rintro (h | h)
    · exact .first h
    · exact .second h

/-- A mapping has no JSON form exactly where a key or a value of it has none. -/
theorem formless_map_iff {entries : Entries} :
    (Value.map entries).Formless ↔
      ∃ entry ∈ entries, entry.1.NoJsonKey ∨ entry.2.Formless := by
  constructor
  · intro h
    cases h with
    | key hentry h => exact ⟨_, hentry, .inl h⟩
    | value hentry h => exact ⟨_, hentry, .inr h⟩
  · rintro ⟨entry, hentry, h | h⟩
    · exact .key hentry h
    · exact .value hentry h

end Value

namespace Json

/-- An integer is written unless it is too long. -/
theorem integer_isOk_iff {i : Int} : (∃ text, integer i = .ok text) ↔ ¬ Value.IsTooLong i := by
  rw [integer, Value.IsTooLong, Nat.not_le]
  split
  · next h => exact iff_of_true ⟨_, rfl⟩ h
  · next h => exact iff_of_false (by simp) h

/-- A key is written unless it is of a form that JSON has no key for. -/
theorem key_isOk_iff {v : Value} : (∃ text, key v = .ok text) ↔ ¬ v.NoJsonKey := by
  cases v with
  | null | bool | float | text =>
      refine iff_of_true ⟨_, rfl⟩ ?_
      rintro ⟨⟩
  | int i =>
      have hkey : (∃ text, key (.int i) = .ok text) ↔ ∃ text, integer i = .ok text := by
        simp only [key, map_eq_ok_iff]
        exact ⟨fun ⟨_, text, h, _⟩ => ⟨text, h⟩, fun ⟨text, h⟩ => ⟨_, text, h, rfl⟩⟩
      rw [hkey, integer_isOk_iff]
      exact not_congr ⟨.int, fun | .int h => h⟩
  | _ =>
      refine iff_of_false (by simp [key]) (not_not.2 ?_)
      constructor

mutual

/-- A datum has a JSON form if it has no part without one. -/
theorem render_isOk_iff (v : Value) : (∃ text, render v = .ok text) ↔ ¬ v.Formless := by
  cases v with
  | null | bool | float | text =>
      refine iff_of_true ⟨_, rfl⟩ ?_
      rintro ⟨⟩
  | int i =>
      rw [render, integer_isOk_iff]
      exact not_congr ⟨.int, fun | .int h => h⟩
  | date | instant | bytes | set =>
      refine iff_of_false (by simp [render]) (not_not.2 ?_)
      constructor
  | list items =>
      have hlist : (∃ text, render (.list items) = .ok text) ↔
          ∃ texts, renderItems items = .ok texts := by
        simp [render, bind_eq_ok_iff]
      rw [hlist, renderItems_isOk_iff items]
      simp only [Value.formless_list_iff, not_exists, not_and]
  | pair first second =>
      have hpair : (∃ text, render (.pair first second) = .ok text) ↔
          (∃ text, render first = .ok text) ∧ ∃ text, render second = .ok text := by
        simp [render, bind_eq_ok_iff]
      rw [hpair, render_isOk_iff first, render_isOk_iff second, Value.formless_pair_iff, not_or]
  | map entries =>
      have hmap : (∃ text, render (.map entries) = .ok text) ↔
          ∃ texts, renderEntries entries = .ok texts := by
        simp [render, bind_eq_ok_iff]
      rw [hmap, renderEntries_isOk_iff entries]
      simp only [Value.formless_map_iff, not_exists, not_and, not_or]

theorem renderItems_isOk_iff (items : List Value) :
    (∃ texts, renderItems items = .ok texts) ↔ ∀ item ∈ items, ¬ item.Formless := by
  cases items with
  | nil => simp [renderItems]
  | cons item rest =>
      have hcons : (∃ texts, renderItems (item :: rest) = .ok texts) ↔
          (∃ text, render item = .ok text) ∧ ∃ texts, renderItems rest = .ok texts := by
        simp [renderItems, bind_eq_ok_iff]
      rw [hcons, render_isOk_iff item, renderItems_isOk_iff rest, List.forall_mem_cons]

/-- Entries are written exactly where each key and each value has a JSON form. -/
theorem renderEntries_isOk_iff (entries : List (Value × Value)) :
    (∃ texts, renderEntries entries = .ok texts) ↔
      ∀ entry ∈ entries, ¬ entry.1.NoJsonKey ∧ ¬ entry.2.Formless := by
  match entries with
  | [] => simp [renderEntries]
  | (name, value) :: rest =>
      have hcons : (∃ texts, renderEntries ((name, value) :: rest) = .ok texts) ↔
          (∃ text, key name = .ok text) ∧ (∃ text, render value = .ok text) ∧
            ∃ texts, renderEntries rest = .ok texts := by
        simp [renderEntries, bind_eq_ok_iff]
      rw [hcons, key_isOk_iff, render_isOk_iff value, renderEntries_isOk_iff rest,
        List.forall_mem_cons, and_assoc]

end

end Json

end RpcBindings
