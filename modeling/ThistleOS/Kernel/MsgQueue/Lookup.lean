import ThistleOS.Kernel.MsgQueue.Base64
import ThistleOS.Kernel.MsgQueue

/-!
# Looking up keys

A text is taken apart at its quotes. The keys are parts between two quotes, and so are the texts of
values.
-/

namespace ThistleOS.MsgQueue

variable {key s t rest : Text} {n : Nat}

/-! ### Parts -/

/-- The text of parts with a quote between any two of them. -/
def join (ps : List Text) : Text := ['"'].intercalate ps

@[simp] lemma join_singleton (p : Text) : join [p] = p := by simp [join, List.intercalate]

@[simp] lemma join_cons (p q : Text) (ps : List Text) :
    join (p :: q :: ps) = p ++ '"' :: join (q :: ps) := by
  simp [join, List.intercalate_cons_cons]

/-- The parts after the first one that is a key and is followed by another part. -/
def afterPart (key : Text) : List Text → Option (List Text)
  | [] => none
  | [_] => none
  | p :: q :: ps => if p = key then some (q :: ps) else afterPart key (q :: ps)

lemma prefix_part (hkey : '"' ∉ key) (hs : '"' ∉ s) :
    (key ++ ['"']).isPrefixOf (s ++ '"' :: t) = decide (s = key) := by
  induction key generalizing s with
  | nil =>
    cases s with
    | nil => rfl
    | cons c s =>
      have hc : '"' ≠ c := fun heq => hs (heq ▸ List.mem_cons_self)
      simp [List.isPrefixOf, hc]
  | cons k key ih =>
    have hrest := fun h => hkey (List.mem_cons_of_mem k h)
    have hk : k ≠ '"' := fun heq => hkey (heq ▸ List.mem_cons_self)
    cases s with
    | nil => simp [List.isPrefixOf, hk]
    | cons c s =>
      have hstep := ih hrest fun h => hs (List.mem_cons_of_mem c h)
      simp only [List.cons_append, List.isPrefixOf, hstep, List.cons.injEq, Bool.decide_and]
      by_cases hc : k = c
      · simp [hc]
      · simp [hc, Ne.symm hc]

lemma prefix_last (hs : '"' ∉ s) : (key ++ ['"']).isPrefixOf s = false := by
  by_contra h
  have hsub := (List.isPrefixOf_iff_prefix.mp ((Bool.not_eq_false _).mp h)).subset
  exact hs (hsub (List.mem_append_right key List.mem_cons_self))

lemma findAfter_skip (hs : '"' ∉ s) (t : Text) :
    findAfter (quoted key) (s ++ t) = findAfter (quoted key) t := by
  induction s with
  | nil => rfl
  | cons c s ih =>
    have hc : '"' ≠ c := fun heq => hs (heq ▸ List.mem_cons_self)
    have hquoted : (quoted key).isPrefixOf (c :: (s ++ t)) = false := by
      simp [quoted, List.isPrefixOf, hc]
    rw [List.cons_append, findAfter, hquoted]
    exact ih fun h => hs (List.mem_cons_of_mem c h)

lemma findAfter_last (hs : '"' ∉ s) : findAfter (quoted key) s = none := by
  have hskip : findAfter (quoted key) (s ++ []) = none := findAfter_skip hs []
  rwa [List.append_nil] at hskip

lemma findAfter_quote (key t : Text) :
    findAfter (quoted key) ('"' :: t) =
      if (key ++ ['"']).isPrefixOf t then some (t.drop (key.length + 1))
      else findAfter (quoted key) t := by
  rw [findAfter]
  have hquoted : (quoted key).isPrefixOf ('"' :: t) = (key ++ ['"']).isPrefixOf t := by
    simp [quoted]
  rw [hquoted]
  split_ifs
  · simp [quoted]
  · rfl

lemma findAfter_self (key t : Text) : findAfter (quoted key) (quoted key ++ t) = some t := by
  rw [quoted, List.cons_append, List.cons_append, findAfter, if_pos (by simp [quoted])]
  simp [quoted]

lemma findAfter_step (hkey : '"' ∉ key) (hs : '"' ∉ s) (t : Text) :
    findAfter (quoted key) ('"' :: (s ++ '"' :: t)) =
      if s = key then some t else findAfter (quoted key) ('"' :: t) := by
  rw [findAfter_quote, prefix_part hkey hs, findAfter_skip hs]
  by_cases heq : s = key
  · subst heq
    have hdrop : List.drop (s.length + 1) (s ++ '"' :: t) = t := by simp [List.drop_append]
    simp [hdrop]
  · simp [heq]

/-- To find a key is to find the part. -/
theorem findAfter_join (hkey : '"' ∉ key) (ht : '"' ∉ t) {p : Text} {ps : List Text}
    (hps : ∀ q ∈ p :: ps, '"' ∉ q) :
    findAfter (quoted key) ('"' :: (join (p :: ps) ++ t)) =
      (afterPart key (p :: ps)).map fun qs => join qs ++ t := by
  induction ps generalizing p with
  | nil =>
    have hp : '"' ∉ p ++ t := by
      intro h
      rcases List.mem_append.mp h with h | h
      · exact hps p List.mem_cons_self h
      · exact ht h
    rw [join_singleton, findAfter_quote, prefix_last hp, findAfter_last hp]
    rfl
  | cons q ps ih =>
    have hp := hps p List.mem_cons_self
    rw [join_cons, List.append_assoc, List.cons_append, findAfter_quote, prefix_part hkey hp,
      findAfter_skip hp, ih fun q' hq' => hps q' (List.mem_cons_of_mem p hq'), afterPart]
    by_cases heq : p = key
    · subst heq
      simp
    · simp [heq]

/-! ### Marks -/


lemma findAfter_head (mark : Char) (t : Text) : findAfter [mark] (mark :: t) = some t := by
  simp [findAfter]

lemma findAfter_skip_mark {mark : Char} {s : Text} (hs : mark ∉ s) (t : Text) :
    findAfter [mark] (s ++ t) = findAfter [mark] t := by
  induction s with
  | nil => rfl
  | cons c s ih =>
    rw [List.mem_cons, not_or] at hs
    rw [List.cons_append, findAfter]
    simpa [List.isPrefixOf, hs.1] using ih hs.2

lemma findAfter_mark {mark : Char} {s : Text} (hs : mark ∉ s) (t : Text) :
    findAfter [mark] (s ++ mark :: t) = some t := by
  rw [findAfter_skip_mark hs, findAfter_head]

lemma findAfter_no_mark {mark : Char} {s : Text} (hs : mark ∉ s) : findAfter [mark] s = none := by
  have hskip := findAfter_skip_mark hs []
  rw [List.append_nil] at hskip
  rw [hskip]
  simp [findAfter]

/-! ### Numbers -/

lemma isDigit_of_mem_decimal {c : Char} (h : c ∈ decimal n) : c.isDigit = true :=
  Nat.isDigit_of_mem_toDigits (by decide) (by decide) h

lemma decimal_ne_nil (n : Nat) : decimal n ≠ [] := Nat.toDigits_ne_nil

lemma decimal_cons (n : Nat) : ∃ c ds, decimal n = c :: ds ∧ c.isDigit = true := by
  obtain ⟨c, ds, h⟩ := List.exists_cons_of_ne_nil (decimal_ne_nil n)
  exact ⟨c, ds, h, isDigit_of_mem_decimal (h ▸ List.mem_cons_self)⟩

lemma not_isWhiteSpace_of_isDigit {c : Char} (h : c.isDigit = true) : isWhiteSpace c = false := by
  have hrange : 48 ≤ c.toNat ∧ c.toNat ≤ 57 := Char.isDigit_iff_toNat.mp h
  simp only [isWhiteSpace, Bool.or_eq_false_iff, Bool.and_eq_false_iff, beq_eq_false_iff_ne,
    decide_eq_false_iff_not]
  omega

lemma trimStart_of_not {c : Char} (h : isWhiteSpace c = false) (s : Text) :
    trimStart (c :: s) = c :: s := by
  rw [trimStart, List.dropWhile_cons, h]
  rfl

lemma trimStart_decimal (n : Nat) (s : Text) : trimStart (decimal n ++ s) = decimal n ++ s := by
  obtain ⟨c, ds, h, hc⟩ := decimal_cons n
  rw [h]
  exact trimStart_of_not (not_isWhiteSpace_of_isDigit hc) _

/-- The reader has no room for the numbers from `2 ^ 63` on. -/
lemma parseI64_decimal (n : Nat) :
    parseI64 (decimal n) = if n < 0x8000000000000000 then some (n : Int) else none := by
  obtain ⟨c, ds, h, hc⟩ := decimal_cons n
  have hall : (decimal n).all Char.isDigit = true :=
    List.all_eq_true.mpr fun c hc => isDigit_of_mem_decimal hc
  have hvalue : Nat.ofDigitChars 10 (decimal n) 0 = n :=
    Nat.ofDigitChars_toDigits (by decide) (by decide)
  have hminus : c ≠ '-' := by
    rintro rfl
    exact absurd hc (by decide)
  rw [h] at hall hvalue
  rw [h, parseI64]
  · rw [if_neg (by simp [hall])]
    simp only [hvalue, Bool.false_eq_true, if_false]
    by_cases hlt : n < 0x8000000000000000
    · rw [if_pos hlt, if_pos (by omega)]
    · rw [if_neg hlt, if_neg (by omega)]
  · intro digits heq
    exact hminus (List.cons.inj heq).1

/-- A text that does not start with a number. -/
def NoNumber (s : Text) : Prop := ∀ c, s.head? = some c → c.isDigit = false ∧ c ≠ '-'

lemma parseI64_chars {n : Int} (h : parseI64 t = some n) : ∀ c ∈ t, (c.isDigit || c == '-') = true := by
  have hdigits {ds : Text} (hds : ¬ (ds = [] ∨ (!ds.all Char.isDigit) = true)) :
      ∀ c ∈ ds, (c.isDigit || c == '-') = true := by
    intro c hc
    rw [not_or, Bool.not_eq_true, Bool.not_eq_false'] at hds
    rw [List.all_eq_true.mp hds.2 c hc, Bool.true_or]
  have helse {p : Prop} [Decidable p] {x : Option Int} (h : (if p then none else x) = some n) : ¬ p := fun hp => by
    rw [if_pos hp] at h
    cases h
  cases t with
  | nil => simp
  | cons c ds =>
    by_cases hc : c = '-'
    · subst hc
      rw [parseI64] at h
      simpa using hdigits (helse h)
    · rw [parseI64] at h
      · exact hdigits (helse h)
      · intro ds' heq
        exact hc (List.cons.inj heq).1

lemma takeWhile_of_noNumber (h : NoNumber s) : s.takeWhile (fun c => c.isDigit || c == '-') = [] := by
  cases s with
  | nil => rfl
  | cons c s =>
    obtain ⟨hdigit, hminus⟩ := h c rfl
    rw [List.takeWhile_cons_of_neg (by simp [hdigit, hminus])]

/-- The number after a key. -/
lemma jsonGetInt_of_findAfter {c : Char}
    (h : findAfter (quoted key) s = some (':' :: (decimal n ++ c :: rest)))
    (hdigit : c.isDigit = false) (hminus : c ≠ '-') :
    jsonGetInt s key = if n < 0x8000000000000000 then some (n : Int) else none := by
  have hcolon : trimStart (':' :: (decimal n ++ c :: rest)) = ':' :: (decimal n ++ c :: rest) :=
    trimStart_of_not (by decide) _
  have htake : (decimal n ++ c :: rest).takeWhile (fun c => c.isDigit || c == '-') = decimal n := by
    rw [List.takeWhile_append_of_pos fun c hc => by simp [isDigit_of_mem_decimal hc]]
    simp [hdigit, hminus]
  simp only [jsonGetInt, jsonValue, h, hcolon, stripColon, trimStart_decimal, htake,
    parseI64_decimal, Option.bind_eq_bind, Option.bind_some, Option.pure_def]

/-- There is no number after a comma. -/
lemma jsonGetInt_of_comma (h : findAfter (quoted key) s = some (',' :: rest)) :
    jsonGetInt s key = none := by
  have hcomma : trimStart (',' :: rest) = ',' :: rest := trimStart_of_not (by decide) _
  have hstrip : stripColon (',' :: rest) = none := rfl
  simp only [jsonGetInt, jsonValue, h, hcomma, hstrip, Option.bind_eq_bind, Option.bind_some,
    Option.bind_none]

/-! ### Texts -/

lemma untilQuote_of_ne (hs : ∀ c ∈ s, c ≠ '"' ∧ c ≠ '\\') {prev : Option Char}
    (hprev : prev ≠ some '\\') : untilQuote prev (s ++ '"' :: rest) = some s := by
  induction s generalizing prev with
  | nil => rw [List.nil_append, untilQuote, if_pos ⟨rfl, hprev⟩]
  | cons c s ih =>
    obtain ⟨hquote, hback⟩ := hs c List.mem_cons_self
    rw [List.cons_append, untilQuote, if_neg (fun h => hquote h.1),
      ih (fun c' hc' => hs c' (List.mem_cons_of_mem c hc')) fun heq => hback (Option.some.inj heq)]
    rfl

lemma untilQuote_of_plain (hs : ∀ c ∈ s, isBase64 c = true) {prev : Option Char}
    (hprev : prev ≠ some '\\') : untilQuote prev (s ++ '"' :: rest) = some s := by
  refine untilQuote_of_ne (fun c hc => ?_) hprev
  have hbase := hs c hc
  constructor
  · rintro rfl
    exact absurd hbase (by decide)
  · rintro rfl
    exact absurd hbase (by decide)

/-- The text after a key. -/
lemma jsonGetString_of_findAfter
    (h : findAfter (quoted key) s = some (':' :: '"' :: (t ++ '"' :: rest)))
    (ht : ∀ c ∈ t, isBase64 c = true) : jsonGetString s key = some t := by
  have hcolon : trimStart (':' :: '"' :: (t ++ '"' :: rest)) = ':' :: '"' :: (t ++ '"' :: rest) :=
    trimStart_of_not (by decide) _
  have hquote : trimStart ('"' :: (t ++ '"' :: rest)) = '"' :: (t ++ '"' :: rest) :=
    trimStart_of_not (by decide) _
  simp only [jsonGetString, jsonValue, h, hcolon, stripColon, hquote, Option.bind_eq_bind,
    Option.bind_some, Option.pure_def]
  exact untilQuote_of_plain ht (by simp)

end ThistleOS.MsgQueue
