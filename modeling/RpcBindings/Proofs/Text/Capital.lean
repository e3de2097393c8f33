import Mathlib.Data.List.Basic
import RpcBindings.Text.Capital

/-!
# RpcBindings.Proofs.Text.Capital

Capital letters stay on their line: no character but the line feed has a line feed in
its capital form.
-/

namespace RpcBindings.Text

theorem ofNat_ne_feed {n : Nat} (h : n ≠ 10) : Char.ofNat n ≠ '\n' := by
  intro heq
  unfold Char.ofNat at heq
  by_cases hvalid : n.isValidChar
  · rw [dif_pos hvalid] at heq
    exact h (congrArg Char.toNat heq)
  · rw [dif_neg hvalid] at heq
    exact absurd (congrArg Char.toNat heq) (by decide)

/-- The letters of the tables are nowhere near the line feed. -/
theorem notMem_upperCase {c : Char} (h : c ≠ '\n') : '\n' ∉ upperCase c := by
  have hexpansions : ∀ entry ∈ capitalExpansions, ∀ code ∈ entry.2, code ≠ 10 := by decide
  have hruns : ∀ run ∈ capitalRuns, 10 < (run.1 : Int) + run.2.2.2 := by
    decide +kernel
  unfold upperCase
  split
  · next hsmall =>
    have hascii : ∀ n < 0x80, n ≠ 10 → (Char.ofNat n).toUpper ≠ '\n' := by decide
    have hcode : c.toNat ≠ 10 := by
      intro heq
      apply h
      rw [← Char.ofNat_toNat c, heq]
    have hupper := hascii c.toNat hsmall hcode
    rw [Char.ofNat_toNat] at hupper
    simpa using Ne.symm hupper
  · split
    · next codes hfound =>
      obtain ⟨before, after, hentries, -⟩ := List.lookup_eq_some_iff.1 hfound
      have hcodes := hexpansions (c.toNat, codes) (by rw [hentries]; simp)
      intro hfeed
      obtain ⟨code, hcode, heq⟩ := List.mem_map.1 hfeed
      exact ofNat_ne_feed (hcodes code hcode) heq
    · split
      · next run first last step offset hfound =>
        have hmem := hruns _ (List.mem_of_find?_eq_some hfound)
        have hfirst := List.find?_some hfound
        simp only [Bool.and_eq_true, decide_eq_true_eq] at hfirst
        have hne : (c.toNat + offset).toNat ≠ 10 := by
          simp only at hmem
          omega
        simpa using Ne.symm (ofNat_ne_feed hne)
      · simpa using Ne.symm h

/-- Capitalizing brings in no line feed. -/
theorem notMem_capitalize {s : String} (h : '\n' ∉ s.toList) : '\n' ∉ (capitalize s).toList := by
  unfold capitalize
  split
  · decide
  · next c rest hs =>
    rw [hs, List.mem_cons, not_or] at h
    rw [String.toList_ofList, List.mem_append, not_or]
    exact ⟨notMem_upperCase (Ne.symm h.1), h.2⟩

end RpcBindings.Text
