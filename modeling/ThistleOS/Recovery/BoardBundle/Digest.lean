import ThistleOS.Recovery.ArtifactManifest.Canonical
import ThistleOS.Recovery.BoardBundle

/-!
# Digests of payloads

Every digest that a manifest may state is the digest that some file may have.
-/

open Except (ok_bind)
open ThistleOS.MsgQueue (Text trim isWhiteSpace trimStart)

namespace ThistleOS.BoardBundle

def hexChars : Text := "0123456789abcdef".toList

lemma mem_hexChars {c : Char} (h : ∀ b ∈ String.utf8EncodeChar c, isLowerHexDigit b = true) :
    c ∈ hexChars := by
  have hnat : 48 ≤ c.toNat ∧ c.toNat ≤ 57 ∨ 97 ≤ c.toNat ∧ c.toNat ≤ 102 := by
    have hval : c.val.toNat = c.toNat := rfl
    have hhead : ∀ b, (String.utf8EncodeChar c).head? = some b → isLowerHexDigit b = true :=
      fun b hb => h b (List.mem_of_head? hb)
    simp only [String.utf8EncodeChar] at hhead
    split_ifs at hhead with h1 h2 h3
    all_goals
      have hb := hhead _ rfl
      simp only [isLowerHexDigit, Bool.or_eq_true, Bool.and_eq_true, decide_eq_true_eq,
        UInt8.le_iff_toNat_le, UInt8.toNat_ofNat', UInt8.toNat_ofNat] at hb
      omega
  have hascii : ∀ n < 128, 48 ≤ n ∧ n ≤ 57 ∨ 97 ≤ n ∧ n ≤ 102 → Char.ofNat n ∈ hexChars := by
    decide +kernel
  rw [← Char.ofNat_toNat c]
  exact hascii c.toNat (by omega) hnat

lemma hexChar_surjective {c : Char} (h : c ∈ hexChars) : ∃ n < 16, hexChar n = c := by
  obtain ⟨n, hn, rfl⟩ := List.mem_iff_getElem.mp h
  exact ⟨n, hn, List.getElem_eq_getD '0' |>.symm⟩

lemma chars_of_sha256 {s : String} (h : isSha256Hex s = true) :
    s.toList.length = 64 ∧ ∀ c ∈ s.toList, c ∈ hexChars := by
  rw [isSha256Hex, Bool.and_eq_true, beq_iff_eq, List.all_eq_true] at h
  have hchars : ∀ c ∈ s.toList, c ∈ hexChars := fun c hc => mem_hexChars fun b hb => by
    refine h.2 b ?_
    rw [utf8_eq_flatMap]
    exact List.mem_flatMap.mpr ⟨c, hc, hb⟩
  refine ⟨?_, hchars⟩
  have hone : ∀ c ∈ hexChars, (String.utf8EncodeChar c).length = 1 := fun c hc =>
    eq_of_beq (List.all_eq_true.mp
      (by decide : hexChars.all (fun c => (String.utf8EncodeChar c).length == 1) = true) c hc)
  have hlength := h.1
  rw [utf8_eq_flatMap, List.length_flatMap] at hlength
  rw [List.map_congr_left (g := fun _ => 1) fun c hc => hone c (hchars c hc)] at hlength
  simpa using hlength

/-- Two hexadecimal digits are those of a byte. -/
lemma exists_byte {c c' : Char} (hc : c ∈ hexChars) (hc' : c' ∈ hexChars) :
    ∃ byte : UInt8, hexChar (byte.toNat >>> 4) = c ∧ hexChar (byte.toNat &&& 0x0f) = c' := by
  obtain ⟨n, hn, rfl⟩ := hexChar_surjective hc
  obtain ⟨n', hn', rfl⟩ := hexChar_surjective hc'
  have hbyte : (UInt8.ofNat (16 * n + n')).toNat = 16 * n + n' := by
    rw [UInt8.toNat_ofNat']
    omega
  refine ⟨UInt8.ofNat (16 * n + n'), ?_, ?_⟩
  · rw [hbyte, Nat.shiftRight_eq_div_pow]
    congr 1
    omega
  · have hlow : ∀ n, n &&& 0x0f = n % 16 := fun n => Nat.and_two_pow_sub_one_eq_mod n 4
    rw [hbyte, hlow]
    congr 1
    omega

/-- Every text of hexadecimal digits is the text of a digest. -/
lemma exists_digest {s : String} (h : isSha256Hex s = true) : ∃ digest, hexLower digest = s := by
  have hpairs : ∀ n (l : Text), l.length = 2 * n → (∀ c ∈ l, c ∈ hexChars) →
      ∃ digest : List UInt8, (digest.flatMap fun byte =>
        [hexChar (byte.toNat >>> 4), hexChar (byte.toNat &&& 0x0f)]) = l := by
    intro n
    induction n with
    | zero =>
      intro l hl _
      exact ⟨[], (List.length_eq_zero_iff.mp hl).symm⟩
    | succ n ih =>
      intro l hl hchars
      obtain ⟨c, l, rfl⟩ := List.exists_cons_of_length_pos (l := l) (by omega)
      obtain ⟨c', l, rfl⟩ := List.exists_cons_of_length_pos (l := l) (by simp at hl; omega)
      obtain ⟨hc, hc', hrest⟩ : c ∈ hexChars ∧ c' ∈ hexChars ∧ ∀ c ∈ l, c ∈ hexChars := by
        simpa using hchars
      obtain ⟨byte, hfirst, hsecond⟩ := exists_byte hc hc'
      obtain ⟨digest, hdigest⟩ := ih l (by simp at hl; omega) hrest
      refine ⟨byte :: digest, ?_⟩
      rw [List.flatMap_cons, hdigest, hfirst, hsecond]
      rfl
  obtain ⟨hlength, hchars⟩ := chars_of_sha256 h
  obtain ⟨digest, hdigest⟩ := hpairs 32 s.toList hlength hchars
  exact ⟨digest, by rw [hexLower, hdigest, String.ofList_toList]⟩

/-- A digest is written without white space and capitals. -/
lemma normalized_sha256 {s : String} (h : isSha256Hex s = true) :
    String.ofList ((trim s.toList).map Char.toLower) = s := by
  obtain ⟨-, hchars⟩ := chars_of_sha256 h
  have hspace : ∀ c ∈ s.toList, isWhiteSpace c = false := fun c hc =>
    eq_of_beq (List.all_eq_true.mp
      (by decide : hexChars.all (fun c => isWhiteSpace c == false) = true) c (hchars c hc))
  have hlower : ∀ c ∈ s.toList, c.toLower = c := fun c hc =>
    eq_of_beq (List.all_eq_true.mp
      (by decide : hexChars.all (fun c => c.toLower == c) = true) c (hchars c hc))
  have htrimStart : trimStart s.toList = s.toList := by
    rw [trimStart, List.dropWhile_eq_self_iff]
    intro hlen hws
    rw [hspace _ (List.getElem_mem hlen)] at hws
    cases hws
  have htrim : trim s.toList = s.toList := by
    rw [trim, htrimStart, List.rdropWhile_eq_self_iff]
    intro hne hws
    rw [hspace _ (List.getLast_mem hne)] at hws
    cases hws
  rw [htrim, List.map_congr_left (g := id) hlower, List.map_id, String.ofList_toList]

lemma verifySha256File_of_digest {download : Download} {s : String} {digest : List UInt8}
    (h : isSha256Hex s = true) (hdownload : download.digest = .ok digest) (hdigest : hexLower digest = s) :
    verifySha256File download s = .ok () := by
  have hlower : ∀ b, isLowerHexDigit b = true → isHexDigit b = true := fun b hb => by
    rw [isLowerHexDigit, Bool.or_eq_true] at hb
    rw [isHexDigit, Bool.or_eq_true, Bool.or_eq_true]
    exact hb.elim (fun hb => .inl (.inl hb)) .inr
  have hcheck : (decide ((utf8 s).length ≠ 64) || !(utf8 s).all isHexDigit) = false := by
    rw [isSha256Hex, Bool.and_eq_true, beq_iff_eq, List.all_eq_true] at h
    have hall : (utf8 s).all isHexDigit = true := List.all_eq_true.mpr fun b hb => hlower b (h.2 b hb)
    rw [hall, h.1]
    rfl
  rw [verifySha256File, normalized_sha256 h]
  dsimp only
  rw [hcheck, hdownload]
  show (if hexLower digest ≠ s then _ else _) = _
  exact if_neg (not_not.mpr hdigest)

end ThistleOS.BoardBundle
