import Mathlib.Data.List.Nodup
import RpcBindings.Value.Basic

/-!
# RpcBindings.Proofs.Value.Writes

Writing values under several names.  A name that is there already has its value
replaced where it stands, a name that is not there is put at the end, and null is
not written where there is nothing.  For distinct names this splits a mapping in
two, `writeAll_eq`: its old entries, for which the order of the writing does not
matter, and the added ones, which stand in that order.
-/

namespace RpcBindings

namespace Entries

variable {entries : Entries} {name other : String} {writes : List (String × Value)}

/-! ## One name -/

/-- Gives the first entry of a name another value. -/
def overwrite : Entries → String → Value → Entries
  | [], _, _ => []
  | entry :: rest, name, value =>
    if hasName name entry then (entry.1, value) :: rest else entry :: overwrite rest name value

/-- Whether a value that is written is written at the end. -/
def isAdded (entries : Entries) (write : String × Value) : Bool :=
  match find? entries write.1, write.2 with
  | some _, _ | none, .null => false
  | none, _ => true

theorem hasName_iff {entry : Value × Value} : hasName name entry = true ↔ entry.1 = .text name := by
  unfold hasName
  split
  · next s heq => simp [heq]
  · next hno => simpa using hno name

/-- A name is not found exactly where it is no key. -/
theorem find?_eq_none_iff : find? entries name = none ↔ .text name ∉ entries.map (·.1) := by
  simp only [find?, Option.map_eq_none_iff, List.find?_eq_none, hasName_iff, List.mem_map,
    not_exists, not_and]

/-- A write adds an entry exactly where there was none and the value is not null. -/
theorem isAdded_iff {value : Value} :
    isAdded entries (name, value) = true ↔ find? entries name = none ∧ value ≠ .null := by
  unfold isAdded
  cases find? entries name <;> cases value <;> simp

/-- Overwriting under a name that is no key changes nothing. -/
theorem overwrite_of_notMem (h : .text name ∉ entries.map (·.1)) (value : Value) :
    overwrite entries name value = entries := by
  induction entries with
  | nil => rfl
  | cons entry rest ih =>
      rw [List.map_cons, List.mem_cons, not_or] at h
      rw [overwrite, if_neg, ih h.2]
      exact fun hname => h.1 (hasName_iff.1 hname).symm

/-- Putting a value overwrites the entry, and adds it where there was none. -/
theorem putText_eq (entries : Entries) (name : String) (value : Value) :
    putText entries name value = overwrite entries name value ++
      if (find? entries name).isSome then [] else [(.text name, value)] := by
  unfold putText put
  induction entries with
  | nil => rfl
  | cons entry rest ih =>
      obtain ⟨key, old⟩ := entry
      rw [putBy, sameKey_text key name old, overwrite, ih, find?, find?, List.find?_cons]
      cases hasName name (key, old) <;> simp

/-- Writing under a name replaces its value, or adds an entry where there is none. -/
theorem assign_eq (entries : Entries) (name : String) (value : Value) :
    assign entries name value = overwrite entries name value ++
      if isAdded entries (name, value) then [(.text name, value)] else [] := by
  unfold assign isAdded
  cases hfind : find? entries name with
  | some old => simp [putText_eq, hfind]
  | none =>
      have hkept := overwrite_of_notMem (find?_eq_none_iff.1 hfind) value
      cases value <;> simp [putText_eq, hfind, hkept]

/-- Overwriting changes no key. -/
theorem map_fst_overwrite (entries : Entries) (name : String) (value : Value) :
    (overwrite entries name value).map (·.1) = entries.map (·.1) := by
  induction entries with
  | nil => rfl
  | cons entry rest ih =>
      rw [overwrite]
      split <;> simp [ih]

/-- Values under different names are replaced in any order. -/
theorem overwrite_comm (entries : Entries) (h : name ≠ other) (value value' : Value) :
    overwrite (overwrite entries name value) other value' =
      overwrite (overwrite entries other value') name value := by
  induction entries with
  | nil => rfl
  | cons entry rest ih =>
      have hne : ¬ (hasName name entry = true ∧ hasName other entry = true) := by
        rintro ⟨hname, hother⟩
        rw [hasName_iff] at hname hother
        exact h (by simpa [hname] using hother)
      have hkey : ∀ name value, hasName name (entry.1, value) = hasName name entry := fun _ _ => rfl
      by_cases hname : hasName name entry = true
      · have hother : ¬ hasName other entry = true := fun hother => hne ⟨hname, hother⟩
        simp [overwrite, hkey, hname, hother]
      · by_cases hother : hasName other entry = true
        · simp [overwrite, hkey, hname, hother]
        · simp [overwrite, hname, hother, ih]

/-- Overwriting passes over entries without the name. -/
theorem overwrite_append (entries : Entries) {more : Entries}
    (h : .text name ∉ more.map (·.1)) (value : Value) :
    overwrite (entries ++ more) name value = overwrite entries name value ++ more := by
  induction entries with
  | nil => exact overwrite_of_notMem h value
  | cons entry rest ih =>
      simp only [List.cons_append, overwrite, ih]
      split <;> rfl

/-- Overwriting leaves the entries under other keys where they are. -/
theorem getElem?_overwrite {index : Nat} {entry : Value × Value}
    (hentry : entries[index]? = some entry) (h : entry.1 ≠ .text name) (value : Value) :
    (overwrite entries name value)[index]? = some entry := by
  induction entries generalizing index with
  | nil => simp at hentry
  | cons first rest ih =>
      rw [overwrite]
      cases index with
      | zero =>
          obtain rfl : first = entry := by simpa using hentry
          rw [if_neg fun hname => h (hasName_iff.1 hname)]
          rfl
      | succ index =>
          rw [List.getElem?_cons_succ] at hentry
          split
          · simpa using hentry
          · simpa using ih hentry

/-! ## Several names -/

/-- Writes values under their names, one after the other. -/
def writeAll (entries : Entries) (writes : List (String × Value)) : Entries :=
  writes.foldl (fun entries write => assign entries write.1 write.2) entries

/-- Replaces values where they stand, one after the other. -/
def overwriteAll (entries : Entries) (writes : List (String × Value)) : Entries :=
  writes.foldl (fun entries write => overwrite entries write.1 write.2) entries

/-- A run of writes passes over entries without their names. -/
theorem overwriteAll_append (entries : Entries) {more : Entries}
    (h : ∀ write ∈ writes, .text write.1 ∉ more.map (·.1)) :
    overwriteAll (entries ++ more) writes = overwriteAll entries writes ++ more := by
  induction writes generalizing entries with
  | nil => rfl
  | cons write rest ih =>
      rw [List.forall_mem_cons] at h
      have hfirst := overwrite_append entries h.1 write.2
      simpa [overwriteAll, hfirst] using ih (overwrite entries write.1 write.2) h.2

/-- A run of writes over entries changes no key. -/
theorem map_fst_overwriteAll (entries : Entries) (writes : List (String × Value)) :
    (overwriteAll entries writes).map (·.1) = entries.map (·.1) := by
  induction writes generalizing entries with
  | nil => rfl
  | cons write rest ih => exact (ih _).trans (map_fst_overwrite entries write.1 write.2)

/-- Writes under other names do not change what is added. -/
theorem isAdded_assign {write : String × Value} (h : write.1 ≠ name) (value : Value) :
    isAdded (assign entries name value) write = isAdded entries write := by
  have hfind : find? (assign entries name value) write.1 = find? entries write.1 := by
    unfold assign
    split
    · rfl
    · rw [find?_putText, if_neg h]
  rw [isAdded, hfind, isAdded]

/-- **Written values replace what was there, or follow it.** -/
theorem writeAll_eq (hnames : (writes.map (·.1)).Nodup) (entries : Entries) :
    writeAll entries writes = overwriteAll entries writes ++
      (writes.filter (isAdded entries)).map fun write => (.text write.1, write.2) := by
  induction writes generalizing entries with
  | nil => simp [writeAll, overwriteAll]
  | cons write rest ih =>
      rw [List.map_cons, List.nodup_cons] at hnames
      have hne : ∀ later ∈ rest, later.1 ≠ write.1 := by
        intro later hlater heq
        exact hnames.1 (heq ▸ List.mem_map_of_mem hlater)
      have hadded : rest.filter (isAdded (assign entries write.1 write.2)) =
          rest.filter (isAdded entries) :=
        List.filter_congr fun later hlater => isAdded_assign (hne later hlater) write.2
      have hover : overwriteAll (assign entries write.1 write.2) rest =
          overwriteAll entries (write :: rest) ++
            if isAdded entries write then [(.text write.1, write.2)] else [] := by
        rw [assign_eq, overwriteAll_append]
        · rfl
        · intro later hlater
          split <;> simp [hne later hlater]
      calc writeAll entries (write :: rest)
          = writeAll (assign entries write.1 write.2) rest := rfl
        _ = overwriteAll (assign entries write.1 write.2) rest ++
              (rest.filter (isAdded entries)).map fun write => (.text write.1, write.2) := by
            rw [ih hnames.2, hadded]
        _ = _ := by
            rw [hover, List.filter_cons]
            split <;> simp

/-- The keys of a mapping stay where they are, and new ones follow in their order. -/
theorem map_fst_writeAll (hnames : (writes.map (·.1)).Nodup) (entries : Entries) :
    (writeAll entries writes).map (·.1) =
      entries.map (·.1) ++ (writes.filter (isAdded entries)).map (.text ·.1) := by
  rw [writeAll_eq hnames, List.map_append, map_fst_overwriteAll, List.map_map]
  rfl

/-- An entry under another key than those that are written is left alone. -/
theorem getElem?_writeAll {index : Nat} {entry : Value × Value}
    (hentry : entries[index]? = some entry) (h : ∀ write ∈ writes, entry.1 ≠ .text write.1) :
    (writeAll entries writes)[index]? = some entry := by
  induction writes generalizing entries with
  | nil => exact hentry
  | cons write rest ih =>
      rw [List.forall_mem_cons] at h
      have hover := getElem?_overwrite hentry h.1 write.2
      have hassign : (assign entries write.1 write.2)[index]? = some entry := by
        rw [assign_eq, List.getElem?_append_left, hover]
        exact (List.getElem?_eq_some_iff.1 hover).1
      exact ih hassign h.2

/-- Under a name that is not written there is what was there before. -/
theorem get_writeAll_of_notMem (h : name ∉ writes.map (·.1)) (entries : Entries) :
    get (writeAll entries writes) name = get entries name := by
  induction writes generalizing entries with
  | nil => rfl
  | cons write rest ih =>
      rw [List.map_cons, List.mem_cons, not_or] at h
      exact (ih h.2 _).trans (by rw [get_assign, if_neg h.1])

/-- Under a name that is written there is what was written. -/
theorem get_writeAll (hnames : (writes.map (·.1)).Nodup) {write : String × Value}
    (hwrite : write ∈ writes) (entries : Entries) :
    get (writeAll entries writes) write.1 = write.2 := by
  induction writes generalizing entries with
  | nil => simp at hwrite
  | cons first rest ih =>
      rw [List.map_cons, List.nodup_cons] at hnames
      obtain rfl | hwrite := List.mem_cons.1 hwrite
      · exact (get_writeAll_of_notMem hnames.1 _).trans (by rw [get_assign, if_pos rfl])
      · exact ih hnames.2 hwrite _

/-- **The order of the writing shows in the order of the entries only.** -/
theorem writeAll_perm {writes' : List (String × Value)} (hnames : (writes.map (·.1)).Nodup)
    (hperm : writes.Perm writes') (entries : Entries) :
    (writeAll entries writes).Perm (writeAll entries writes') := by
  have hover : overwriteAll entries writes = overwriteAll entries writes' := by
    apply hperm.foldl_eq'
    intro first hfirst second hsecond entries
    by_cases hname : first.1 = second.1
    · rw [List.inj_on_of_nodup_map hnames hfirst hsecond hname]
    · exact overwrite_comm entries hname first.2 second.2
  rw [writeAll_eq hnames, writeAll_eq ((hperm.map _).nodup_iff.1 hnames), hover]
  exact ((hperm.filter _).map _).append_left _

end Entries

end RpcBindings
