import Mathlib.Data.List.DropRight
import Mathlib.Tactic.Common

/-!
# Text and its bytes
-/

namespace ThistleOS

def utf8 (s : String) : List UInt8 := s.toUTF8.data.toList

@[simp] lemma utf8_append (s t : String) : utf8 (s ++ t) = utf8 s ++ utf8 t := by
  simp [utf8]

lemma fromUTF8?_utf8 (s : String) : String.fromUTF8? ⟨(utf8 s).toArray⟩ = some s := by
  simp [utf8, String.fromUTF8?, s.isValidUTF8, String.fromUTF8]

lemma utf8_eq_flatMap (s : String) : utf8 s = s.toList.flatMap String.utf8EncodeChar := by
  have h : s.toUTF8 = s.toList.utf8Encode := s.utf8Encode_toList.symm
  rw [utf8, h]
  simp [List.utf8Encode]

lemma utf8_injective : Function.Injective utf8 := fun s t h => by
  have hs := fromUTF8?_utf8 s
  rw [h, fromUTF8?_utf8] at hs
  exact (Option.some.inj hs).symm

/-- A character is not in a text whose bytes leave out one of its own. -/
lemma notMem_of_bytes {c : Char} {b : UInt8} (hc : b ∈ String.utf8EncodeChar c) {s : String}
    (h : b ∉ utf8 s) : c ∉ s.toList := fun hmem => by
  rw [utf8_eq_flatMap, List.mem_flatMap] at h
  exact h ⟨c, hmem, hc⟩

/-- What is in joined parts is in the separator or in a part. -/
lemma mem_intercalate {α : Type} {c : α} {sep : List α} {parts : List (List α)}
    (h : c ∈ sep.intercalate parts) : c ∈ sep ∨ ∃ part ∈ parts, c ∈ part := by
  induction parts with
  | nil => simp at h
  | cons part parts ih =>
    cases parts with
    | nil =>
      rw [List.intercalate_singleton] at h
      exact .inr ⟨part, List.mem_cons_self, h⟩
    | cons part' parts =>
      rw [List.intercalate_cons_cons, List.mem_append, List.mem_append] at h
      rcases h with (h | h) | h
      · exact .inr ⟨part, List.mem_cons_self, h⟩
      · exact .inl h
      · rcases ih h with h | ⟨part'', hmem, h⟩
        · exact .inl h
        · exact .inr ⟨part'', List.mem_cons_of_mem part hmem, h⟩

/-- Only the encoding of NUL starts with a zero byte. -/
lemma head?_utf8EncodeChar {c : Char} :
    (String.utf8EncodeChar c).head? = some 0 ↔ c = '\x00' := by
  have hzero : ∀ n, UInt8.ofNat n = 0 ↔ n % 256 = 0 := fun n => by
    rw [← UInt8.toNat_inj, UInt8.toNat_ofNat', UInt8.toNat_zero]
  have hc : c = '\x00' ↔ c.val.toNat = 0 := by
    rw [← Char.val_inj, ← UInt32.toNat_inj]
    rfl
  simp only [String.utf8EncodeChar]
  split_ifs <;> rw [List.head?_cons, Option.some.injEq, hzero, hc] <;> omega

/-- The text without the last characters that are `c`. -/
def trimEndMatches (c : Char) (s : String) : String :=
  String.ofList (s.toList.rdropWhile (· == c))

end ThistleOS
