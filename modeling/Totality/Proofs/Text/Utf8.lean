import Mathlib.Tactic.Lemma
import Mathlib.Tactic.SplitIfs
import Totality.Text.Utf8

/-!
# Encoded texts

A text is encoded character by character, and decoded again. The bytes of a character beyond ASCII are no ASCII.
-/

namespace Totality.Utf8

lemma encode_ofList (cs : List Char) : encode (String.ofList cs) = cs.flatMap String.utf8EncodeChar := by
  rw [encode, String.toUTF8_eq_toByteArray, String.toByteArray_ofList, List.utf8Encode, List.data_toByteArray]

lemma encode_eq (s : String) : encode s = s.toList.flatMap String.utf8EncodeChar := by
  rw [← encode_ofList, String.ofList_toList]

/-- The bytes of a text are decoded to the text. -/
lemma decode?_encode (s : String) : decode? (encode s) = some s := by
  have hbytes : (⟨(encode s).toArray⟩ : ByteArray) = s.toByteArray := rfl
  rw [decode?, hbytes, String.fromUTF8?, dif_pos s.isValidUTF8]
  rfl

/-- The bytes of a character are its number, or lie beyond ASCII. -/
lemma toNat_of_mem_utf8EncodeChar {c : Char} {b : UInt8} (h : b ∈ String.utf8EncodeChar c) :
    b.toNat = c.toNat ∨ 128 ≤ b.toNat := by
  have hval : c.val.toNat = c.toNat := rfl
  rw [String.utf8EncodeChar, hval] at h
  -- one, two, three or four bytes
  split_ifs at h
  all_goals
    simp only [List.mem_cons, List.not_mem_nil, or_false] at h
  · left
    rw [h, UInt8.toNat_ofNat']
    omega
  · right
    rcases h with rfl | rfl <;> rw [UInt8.toNat_ofNat'] <;> omega
  · right
    rcases h with rfl | rfl | rfl <;> rw [UInt8.toNat_ofNat'] <;> omega
  · right
    rcases h with rfl | rfl | rfl | rfl <;> rw [UInt8.toNat_ofNat'] <;> omega

/-- A byte of ASCII stands for its character only. -/
lemma eq_of_mem_utf8EncodeChar {c d : Char} {b : UInt8} (h : b ∈ String.utf8EncodeChar c) (hb : b.toNat = d.toNat)
    (hd : d.toNat < 128) : c = d := by
  apply Char.toNat_inj.mp
  have := toNat_of_mem_utf8EncodeChar h
  omega

end Totality.Utf8
