import SpinFleet.Proofs.Generated
/-!
# Naming — a rendered configuration is named after its text

The name of a `Secret` with a rendered configuration always looks generated (`isGeneratedName_secretName`), and two
texts have the same name if, and only if, they have the same checksum (`Document.secretName_inj`).  The bytes that are
stored tell texts apart (`Utf8.encode_inj`); the names need not.
-/
namespace SpinFleet

/-! ## Bytes -/

namespace Utf8

theorem toList_loop (bs : ByteArray) (i : Nat) (r : List UInt8) :
    ByteArray.toList.loop bs i r = r.reverse ++ bs.data.toList.drop i := by
  fun_induction ByteArray.toList.loop bs i r with
  | case1 i r h ih =>
    have hlen : i < bs.data.toList.length := by simpa using h
    have hget : bs.get! i = bs.data.toList[i] := by
      rw [Array.getElem_toList]
      exact getElem!_pos bs.data i h
    rw [ih, List.drop_eq_getElem_cons hlen, hget]
    simp
  | case2 i r h =>
    have hlen : bs.data.toList.length ≤ i := by simpa using h
    rw [List.drop_eq_nil_of_le hlen, List.append_nil]

/-- **Different texts have different bytes.** -/
theorem encode_inj {s t : String} : encode s = encode t ↔ s = t := by
  refine ⟨fun h => ?_, fun h => h ▸ rfl⟩
  unfold encode ByteArray.toList at h
  rw [toList_loop, toList_loop] at h
  simp only [List.reverse_nil, List.nil_append, List.drop_zero, Array.toList_inj] at h
  exact String.toByteArray_inj.1 (ByteArray.ext h)

end Utf8

/-! ## Names -/

theorem isHexDigit_hexDigit : ∀ n < 16, isHexDigit (Checksum.hexDigit n) = true := by
  decide

theorem isChecksum_hex (n : Nat) : isChecksum (Checksum.hex 8 n) = true := by
  have digits (width : Nat) : (Checksum.hex width n).length = width ∧ (Checksum.hex width n).all isHexDigit = true := by
    induction width with
    | zero => exact ⟨rfl, rfl⟩
    | succ width ih =>
      unfold Checksum.hex
      rw [List.length_cons, List.all_cons, ih.1, ih.2, isHexDigit_hexDigit _ (Nat.mod_lt _ (by decide))]
      exact ⟨rfl, rfl⟩
  unfold isChecksum
  rw [(digits 8).1, (digits 8).2]
  rfl

/-- **The name of a rendered configuration looks generated.** -/
theorem isGeneratedName_secretName (app text : String) : isGeneratedName app (Document.secretName app text) = true := by
  refine isGeneratedName_iff.2 ⟨_, ?_, isChecksum_hex (Checksum.adler32 text.toUTF8.toList)⟩
  simp [Document.secretName, Checksum.digits]

theorem Document.secretName_inj {app t u : String} :
    secretName app t = secretName app u ↔ Checksum.digits t = Checksum.digits u := by
  unfold secretName
  exact String.append_right_inj _

end SpinFleet
