import Mathlib.Data.String.Basic
import TaskFlow.Proofs.Text.Utf8

namespace TaskFlow.Text

theorem byte_cons_lt {m n : Nat} (hm : m < 256) (hn : n < 256) (xs ys : Bytes) :
    UInt8.ofNat m :: xs < UInt8.ofNat n :: ys ↔ m < n ∨ m = n ∧ xs < ys := by
  rw [List.cons_lt_cons_iff, UInt8.lt_iff_toNat_lt, ← UInt8.toNat_inj, Utf8.toNat_ofNat hm,
    Utf8.toNat_ofNat hn]

theorem utf8EncodeChar_lt {c d : Char} (h : c < d) (xs ys : Bytes) :
    String.utf8EncodeChar c ++ xs < String.utf8EncodeChar d ++ ys := by
  have valid (c : Char) : c.toNat < 0xd800 ∨ 0xdfff < c.toNat ∧ c.toNat < 0x110000 := c.valid
  have value (c : Char) : c.val.toNat = c.toNat := rfl
  have digits (v : Nat) : v / 4096 = v / 64 / 64 ∧ v / 262144 = v / 64 / 64 / 64 := by omega
  have validLeft := valid c
  have validRight := valid d
  have lt : c.toNat < d.toNat := h
  simp only [String.utf8EncodeChar, value, digits]
  generalize c.toNat = v at *
  generalize d.toNat = w at *
  -- One case for each length of the two encodings; longer ones start with greater bytes.
  split_ifs <;>
    simp (disch := omega) only [List.cons_append, List.nil_append, byte_cons_lt] <;> omega

theorem flatMap_utf8EncodeChar_lt {cs ds : List Char} (h : cs < ds) :
    cs.flatMap String.utf8EncodeChar < ds.flatMap String.utf8EncodeChar := by
  induction h with
  | @nil d ds =>
    obtain ⟨b, bs, bytes⟩ := List.exists_cons_of_ne_nil (String.utf8EncodeChar_ne_nil (c := d))
    rw [List.flatMap_cons, bytes]
    exact .nil
  | rel lt => exact utf8EncodeChar_lt lt _ _
  | cons _ ih => exact List.append_left_lt ih

theorem utf8_lt_iff {a b : String} : utf8 a < utf8 b ↔ a < b := by
  have mono {a b : String} (h : a < b) : utf8 a < utf8 b :=
    flatMap_utf8EncodeChar_lt (String.lt_iff_toList_lt.mp h)
  refine ⟨fun h => ?_, mono⟩
  rcases lt_trichotomy a b with lt | rfl | gt
  · exact lt
  · exact absurd h (List.lt_irrefl _)
  · exact absurd h (List.lt_asymm (mono gt))

end TaskFlow.Text
