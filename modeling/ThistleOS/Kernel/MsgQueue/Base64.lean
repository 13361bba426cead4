import ThistleOS.Kernel.MsgQueue.Json

/-!
# Base64 round trip

What is encoded is decoded to the same bytes, and its characters need no escaping.
-/

namespace ThistleOS.MsgQueue

/-! ### Six bits and eight bits -/

lemma and_sixty_three (n : Nat) : n &&& 0x3F = n % 64 := Nat.and_two_pow_sub_one_eq_mod n 6

/-- Three bytes as one number. -/
lemma triple_of_bytes (b0 b1 b2 : UInt8) :
    b0.toNat <<< 16 ||| b1.toNat <<< 8 ||| b2.toNat =
      b0.toNat * 65536 + b1.toNat * 256 + b2.toNat := by
  have h0 := b0.toNat_lt
  have h1 := b1.toNat_lt
  have h2 := b2.toNat_lt
  have hlow : b1.toNat <<< 8 + b2.toNat < 2 ^ 16 := by
    rw [Nat.shiftLeft_eq]
    omega
  rw [Nat.or_assoc, ← Nat.shiftLeft_add_eq_or_of_lt h2, ← Nat.shiftLeft_add_eq_or_of_lt hlow,
    Nat.shiftLeft_eq, Nat.shiftLeft_eq]
  omega

/-- Four times six bits as one number. -/
lemma triple_of_digits {a b c d : Nat} (hb : b < 64) (hc : c < 64) (hd : d < 64) :
    a <<< 18 ||| b <<< 12 ||| c <<< 6 ||| d = a * 262144 + b * 4096 + c * 64 + d := by
  have hcd : c <<< 6 + d < 2 ^ 12 := by
    rw [Nat.shiftLeft_eq]
    omega
  have hbcd : b <<< 12 + (c <<< 6 + d) < 2 ^ 18 := by
    rw [Nat.shiftLeft_eq, Nat.shiftLeft_eq]
    omega
  rw [Nat.or_assoc, Nat.or_assoc, ← Nat.shiftLeft_add_eq_or_of_lt (i := 6) hd,
    ← Nat.shiftLeft_add_eq_or_of_lt hcd, ← Nat.shiftLeft_add_eq_or_of_lt hbcd, Nat.shiftLeft_eq,
    Nat.shiftLeft_eq, Nat.shiftLeft_eq]
  omega

/-! ### Characters -/

/-- The characters that can be in encoded bytes. -/
def isBase64 (c : Char) : Bool := b64Chars.contains c || c == '='

lemma b64Chars_getD : ∀ i < 64, base64DecodeChar (b64Chars.getD i 'A') = some i ∧
    isBase64 (b64Chars.getD i 'A') = true ∧ b64Chars.getD i 'A' ≠ '=' := by
  decide +kernel

/-- What holds of the characters of the table. -/
lemma b64Char_spec (n : Nat) :
    base64DecodeChar (b64Char n) = some (n % 64) ∧ isBase64 (b64Char n) = true ∧ b64Char n ≠ '=' := by
  rw [b64Char, and_sixty_three]
  exact b64Chars_getD _ (Nat.mod_lt n (by decide))

@[simp] lemma base64DecodeChar_b64Char (n : Nat) : base64DecodeChar (b64Char n) = some (n % 64) := (b64Char_spec n).1

lemma isBase64_b64Char (n : Nat) : isBase64 (b64Char n) = true := (b64Char_spec n).2.1

lemma b64Char_ne_pad (n : Nat) : b64Char n ≠ '=' := (b64Char_spec n).2.2

/-! ### Texts -/

lemma isBase64_of_mem {data : List UInt8} {c : Char} (h : c ∈ base64Encode data) :
    isBase64 c = true := by
  induction data using base64Encode.induct with
  | case1 => cases h
  | case2 b0 =>
    rw [base64Encode] at h
    simp only [List.mem_cons, List.not_mem_nil, or_false] at h
    rcases h with rfl | rfl | rfl | rfl
    · exact isBase64_b64Char _
    · exact isBase64_b64Char _
    · decide
    · decide
  | case3 b0 b1 =>
    rw [base64Encode] at h
    simp only [List.mem_cons, List.not_mem_nil, or_false] at h
    rcases h with rfl | rfl | rfl | rfl
    · exact isBase64_b64Char _
    · exact isBase64_b64Char _
    · exact isBase64_b64Char _
    · decide
  | case4 b0 b1 b2 data ih =>
    rw [base64Encode] at h
    simp only [List.mem_cons] at h
    rcases h with rfl | rfl | rfl | rfl | h
    · exact isBase64_b64Char _
    · exact isBase64_b64Char _
    · exact isBase64_b64Char _
    · exact isBase64_b64Char _
    · exact ih h

/-- Encoded bytes come in groups of four characters. -/
lemma length_base64Encode (data : List UInt8) : (base64Encode data).length % 4 = 0 := by
  induction data using base64Encode.induct with
  | case1 => rfl
  | case2 b0 => simp [base64Encode]
  | case3 b0 b1 => simp [base64Encode]
  | case4 b0 b1 b2 data ih =>
    rw [base64Encode]
    simp only [List.length_cons]
    omega

lemma base64Encode_eq_nil {data : List UInt8} : base64Encode data = [] ↔ data = [] := by
  constructor
  · intro h
    cases data using base64Encode.induct with
    | case1 => rfl
    | case2 b0 =>
      rw [base64Encode] at h
      cases h
    | case3 b0 b1 =>
      rw [base64Encode] at h
      cases h
    | case4 b0 b1 b2 data =>
      rw [base64Encode] at h
      cases h
  · rintro rfl
    rfl

/-! ### Decoding -/

lemma rdropWhile_append {l : Text} (h : '=' ∉ l) (ys : Text) :
    (l ++ ys).rdropWhile (· == '=') = l ++ ys.rdropWhile (· == '=') := by
  induction ys using List.reverseRecOn with
  | nil =>
    rw [List.append_nil, List.rdropWhile_nil, List.append_nil, List.rdropWhile_eq_self_iff]
    intro hne hpad
    have hlast := List.getLast_mem hne
    rw [beq_iff_eq.mp hpad] at hlast
    exact h hlast
  | append_singleton ys y ih =>
    rw [← List.append_assoc, List.rdropWhile_concat, List.rdropWhile_concat, ih]
    split_ifs
    · rfl
    · exact List.append_assoc l ys [y]

lemma decode_one (b0 : UInt8) :
    base64DecodeGroups [b64Char (b0.toNat <<< 16 >>> 18), b64Char (b0.toNat <<< 16 >>> 12)] =
      some [b0] := by
  have h0 := b0.toNat_lt
  have hdigits := triple_of_digits (a := b0.toNat <<< 16 >>> 18 % 64)
    (b := b0.toNat <<< 16 >>> 12 % 64) (c := 0) (d := 0) (Nat.mod_lt _ (by decide)) (by decide)
    (by decide)
  rw [Nat.zero_shiftLeft, Nat.or_zero, Nat.or_zero] at hdigits
  simp only [base64DecodeGroups, base64DecodeChar_b64Char, Option.bind_eq_bind, Option.bind_some,
    Option.pure_def]
  rw [hdigits]
  simp only [Nat.shiftLeft_eq, Nat.shiftRight_eq_div_pow]
  congr 2
  rw [← UInt8.toNat_inj, UInt8.toNat_ofNat']
  omega

lemma decode_two (b0 b1 : UInt8) :
    let triple := b0.toNat <<< 16 ||| b1.toNat <<< 8
    base64DecodeGroups [b64Char (triple >>> 18), b64Char (triple >>> 12), b64Char (triple >>> 6)] =
      some [b0, b1] := by
  have h0 := b0.toNat_lt
  have h1 := b1.toNat_lt
  have hbytes := triple_of_bytes b0 b1 0
  rw [UInt8.toNat_zero, Nat.or_zero] at hbytes
  simp only [hbytes]
  simp only [base64DecodeGroups, base64DecodeChar_b64Char, Option.bind_eq_bind, Option.bind_some,
    Option.pure_def]
  have hdigits := triple_of_digits (a := (b0.toNat * 65536 + b1.toNat * 256 + 0) >>> 18 % 64)
    (b := (b0.toNat * 65536 + b1.toNat * 256 + 0) >>> 12 % 64)
    (c := (b0.toNat * 65536 + b1.toNat * 256 + 0) >>> 6 % 64) (d := 0) (Nat.mod_lt _ (by decide))
    (Nat.mod_lt _ (by decide)) (by decide)
  rw [Nat.or_zero] at hdigits
  rw [hdigits]
  simp only [Nat.shiftRight_eq_div_pow]
  congr 3
  · rw [← UInt8.toNat_inj, UInt8.toNat_ofNat']
    omega
  · rw [← UInt8.toNat_inj, UInt8.toNat_ofNat']
    omega

lemma decode_three (b0 b1 b2 : UInt8) (rest : Text) :
    let triple := b0.toNat <<< 16 ||| b1.toNat <<< 8 ||| b2.toNat
    base64DecodeGroups (b64Char (triple >>> 18) :: b64Char (triple >>> 12) ::
      b64Char (triple >>> 6) :: b64Char triple :: rest) =
      (base64DecodeGroups rest).map fun data => b0 :: b1 :: b2 :: data := by
  have h0 := b0.toNat_lt
  have h1 := b1.toNat_lt
  have h2 := b2.toNat_lt
  simp only [triple_of_bytes]
  simp only [base64DecodeGroups, base64DecodeChar_b64Char, Option.bind_eq_bind, Option.bind_some,
    Option.pure_def, Option.map_eq_bind]
  rw [triple_of_digits (Nat.mod_lt _ (by decide)) (Nat.mod_lt _ (by decide))
    (Nat.mod_lt _ (by decide))]
  simp only [Nat.shiftRight_eq_div_pow]
  congr 1
  funext data
  simp only [Function.comp_apply]
  congr 2
  · rw [← UInt8.toNat_inj, UInt8.toNat_ofNat']
    omega
  · congr 1
    · rw [← UInt8.toNat_inj, UInt8.toNat_ofNat']
      omega
    · congr 1
      rw [← UInt8.toNat_inj, UInt8.toNat_ofNat']
      omega

/-- What is encoded is decoded to the same bytes. -/
theorem base64Decode_base64Encode (data : List UInt8) :
    base64Decode (base64Encode data) = some data := by
  rw [base64Decode]
  induction data using base64Encode.induct with
  | case1 => rfl
  | case2 b0 =>
    rw [base64Encode]
    have hdrop := rdropWhile_append
      (l := [b64Char (b0.toNat <<< 16 >>> 18), b64Char (b0.toNat <<< 16 >>> 12)])
      (by simp [(b64Char_ne_pad _).symm]) ['=', '=']
    have hpads : List.rdropWhile (· == '=') ['=', '='] = [] := rfl
    rw [hpads, List.append_nil] at hdrop
    exact (congrArg base64DecodeGroups hdrop).trans (decode_one b0)
  | case3 b0 b1 =>
    rw [base64Encode]
    have hdrop := rdropWhile_append
      (l := [b64Char ((b0.toNat <<< 16 ||| b1.toNat <<< 8) >>> 18),
        b64Char ((b0.toNat <<< 16 ||| b1.toNat <<< 8) >>> 12),
        b64Char ((b0.toNat <<< 16 ||| b1.toNat <<< 8) >>> 6)])
      (by simp [(b64Char_ne_pad _).symm]) ['=']
    have hpads : List.rdropWhile (· == '=') ['='] = [] := rfl
    rw [hpads, List.append_nil] at hdrop
    exact (congrArg base64DecodeGroups hdrop).trans (decode_two b0 b1)
  | case4 b0 b1 b2 data ih =>
    rw [base64Encode]
    refine (congrArg base64DecodeGroups (rdropWhile_append (l := [_, _, _, _])
      (by simp [(b64Char_ne_pad _).symm]) (base64Encode data))).trans ?_
    have hgroup := decode_three b0 b1 b2 ((base64Encode data).rdropWhile (· == '='))
    rw [ih, Option.map_some] at hgroup
    exact hgroup

lemma base64Encode_injective : Function.Injective base64Encode := by
  intro data data' h
  have hdecode := congrArg base64Decode h
  rw [base64Decode_base64Encode, base64Decode_base64Encode] at hdecode
  exact Option.some.inj hdecode

/-! ### Escaping -/

lemma jsonEscape_of_plain {s : Text} (h : ∀ c ∈ s, isBase64 c = true) : jsonEscape s = s := by
  induction s with
  | nil => rfl
  | cons c s ih =>
    have hc : isBase64 c = true := h c List.mem_cons_self
    have hrest := ih fun c' hc' => h c' (List.mem_cons_of_mem c hc')
    rw [jsonEscape] at hrest
    rw [jsonEscape, List.flatMap_cons, hrest]
    split_ifs with h1 h2 h3 h4 h5
    · subst h1
      exact absurd hc (by decide)
    · subst h2
      exact absurd hc (by decide)
    · subst h3
      exact absurd hc (by decide)
    · subst h4
      exact absurd hc (by decide)
    · subst h5
      exact absurd hc (by decide)
    · rfl

lemma jsonEscape_base64Encode (data : List UInt8) :
    jsonEscape (base64Encode data) = base64Encode data :=
  jsonEscape_of_plain fun _ h => isBase64_of_mem h

end ThistleOS.MsgQueue
