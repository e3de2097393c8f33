import RpcBindings.Text.Encoding

/-!
# RpcBindings.Proofs.Text.Output

What becomes of a text in a file: its bytes tell it from every other text.
-/

namespace RpcBindings.Text

/-- The loop lists the bytes from its position on, behind those it has read. -/
theorem toList_loop (bytes : ByteArray) (i : Nat) (read : List UInt8) :
    ByteArray.toList.loop bytes i read = read.reverse ++ bytes.data.toList.drop i := by
  induction hrest : bytes.size - i generalizing i read with
  | zero =>
      have hlength : bytes.data.toList.length ≤ i := by
        rw [Array.length_toList]
        exact Nat.le_of_sub_eq_zero hrest
      rw [ByteArray.toList.loop, if_neg (by omega), List.drop_eq_nil_of_le hlength, List.append_nil]
  | succ n ih =>
      have hlt : i < bytes.size := by omega
      have hlength : i < bytes.data.toList.length := by
        rw [Array.length_toList]
        exact hlt
      have hget : bytes.get! i = bytes.data.toList[i] := by
        rw [Array.getElem_toList]
        exact getElem!_pos bytes.data i _
      rw [ByteArray.toList.loop, if_pos hlt, ih _ _ (by omega), List.drop_eq_getElem_cons hlength,
        hget, List.reverse_cons, List.append_assoc]
      rfl

/-- Texts with the same bytes are the same. -/
theorem toUTF8_toList_inj {s t : String} (h : s.toUTF8.toList = t.toUTF8.toList) : s = t := by
  simp only [ByteArray.toList, toList_loop, List.reverse_nil, List.nil_append, List.drop_zero] at h
  exact String.toByteArray_inj.1 (ByteArray.ext (Array.toList_inj.1 h))

/-- Texts that are written with the same bytes are the same. -/
theorem encode?_inj [Encoding] {s t : String} {content : List UInt8}
    (hs : encode? s = some content) (ht : encode? t = some content) : s = t := by
  simp only [encode?, Option.ite_none_right_eq_some, Option.some.injEq] at hs ht
  exact toUTF8_toList_inj (hs.2.trans ht.2.symm)

end RpcBindings.Text
