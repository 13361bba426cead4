import ThistleOS.Kernel.Signing

/-!
# Streamed verification

A file that is verified while it is read is accepted exactly if it has the expected size and its signature is good,
however the reader splits it.
-/

namespace ThistleOS.Signing

open Sink (Log)

variable {σ τ κ ν ε : Type} {E : Ed25519 κ ν}

/-- What the loop can come to from some point on: the reader ends too soon, the consumer refuses a chunk, or as many
bytes as expected have been hashed and consumed. -/
inductive LoopResult (E : Ed25519 κ ν) (S : Source σ ε) (expectedSize consumed : ℕ) (s : σ) (v : ν) (log : List UInt8) :
    Except EspErr (σ × ν) × (τ × Log EspErr) → Prop
  | short (t : τ) (part : List UInt8) (hpart : part <+: S.bytes s)
    (h : consumed + (S.bytes s).length < expectedSize) :
    LoopResult E S expectedSize consumed s v log (.error espErrInvalidSize, (t, ⟨log ++ part, none⟩))
  | refused (t : τ) (e : EspErr) (part : List UInt8) (hpart : part <+: S.bytes s) :
    LoopResult E S expectedSize consumed s v log (.error e, (t, ⟨log ++ part, some e⟩))
  | full (t : τ) (s' : σ) (chunks : List (List UInt8)) (hbytes : S.bytes s = chunks.flatten ++ S.bytes s')
    (hsize : consumed + chunks.flatten.length = expectedSize) (hfailure : S.failure s' = S.failure s) :
    LoopResult E S expectedSize consumed s v log
      (.ok (s', chunks.foldl E.update v), (t, ⟨log ++ chunks.flatten, none⟩))

/-- A chunk before what the loop comes to. -/
lemma LoopResult.cons {S : Source σ ε} {expectedSize consumed : ℕ} {s s' : σ} {v : ν} {log chunk : List UInt8}
    {r : Except EspErr (σ × ν) × (τ × Log EspErr)} (hbytes : S.bytes s = chunk ++ S.bytes s')
    (hfailure : S.failure s' = S.failure s)
    (h : LoopResult E S expectedSize (consumed + chunk.length) s' (E.update v chunk) (log ++ chunk) r) :
    LoopResult E S expectedSize consumed s v log r := by
  have hwithin {part : List UInt8} (hpart : part <+: S.bytes s') : chunk ++ part <+: S.bytes s := by
    rw [hbytes]
    exact (List.prefix_append_right_inj chunk).mpr hpart
  cases h with
  | short t part hpart h =>
    rw [List.append_assoc]
    refine .short t _ (hwithin hpart) ?_
    rw [hbytes, List.length_append, ← Nat.add_assoc]
    exact h
  | refused t e part hpart =>
    rw [List.append_assoc]
    exact .refused t e _ (hwithin hpart)
  | full t s'' chunks hrest hsize hfailure' =>
    rw [List.append_assoc]
    refine .full t s'' (chunk :: chunks) ?_ ?_ (hfailure'.trans hfailure)
    · rw [hbytes, hrest, List.flatten_cons, List.append_assoc]
    · rw [List.flatten_cons, List.length_append, ← Nat.add_assoc, hsize]

lemma LoopResult.nothing {S : Source σ ε} {expectedSize consumed : ℕ} {s : σ} (v : ν) (t : τ) (log : List UInt8)
    (hbytes : S.bytes s = []) (hmore : consumed < expectedSize) :
    LoopResult E S expectedSize consumed s v log (.error espErrInvalidSize, (t, ⟨log, none⟩)) := by
  have hshort : LoopResult E S expectedSize consumed s v log (.error espErrInvalidSize, (t, ⟨log ++ [], none⟩)) :=
    .short t [] List.nil_prefix (by rw [hbytes]; exact hmore)
  rwa [List.append_nil] at hshort

lemma LoopResult.done {S : Source σ ε} {size : ℕ} (s : σ) (v : ν) (t : τ) (log : List UInt8) :
    LoopResult E S size size s v log (.ok (s, v), (t, ⟨log, none⟩)) := by
  have hfull : LoopResult E S size size s v log (.ok (s, v), (t, ⟨log ++ [], none⟩)) := .full t s [] rfl rfl rfl
  rwa [List.append_nil] at hfull

lemma verifyLoop_result (S : Source σ ε) (consume : Sink τ EspErr) (expectedSize consumed : ℕ) (s : σ) (v : ν)
    (w : τ × Log EspErr) {t : τ} {log : List UInt8} (hw : w = (t, ⟨log, none⟩)) (hle : consumed ≤ expectedSize) :
    LoopResult E S expectedSize consumed s v log
      (verifyLoop E S.toReader consume.logged expectedSize consumed s v w) := by
  have hroom {consumed : ℕ} (hmore : consumed < expectedSize) : 0 < min bufferSize (expectedSize - consumed) :=
    Nat.lt_min.mpr ⟨by decide, Nat.sub_pos_of_lt hmore⟩
  fun_induction verifyLoop E S.toReader consume.logged expectedSize consumed s v w generalizing t log with
  | case1 consumed s v w hmore e s' hread =>
    obtain ⟨hbytes, -⟩ := S.error (hroom hmore) (congrArg Prod.fst hread)
    rw [hw]
    exact .nothing v t log hbytes hmore
  | case2 consumed s v w hmore s' hread =>
    obtain ⟨hbytes, -⟩ := S.end_ok (hroom hmore) (congrArg Prod.fst hread)
    rw [hw]
    exact .nothing v t log hbytes hmore
  | case3 consumed s v w hmore chunk s' hread hne e w' htake =>
    obtain ⟨hbytes, -⟩ := S.chunk_ok (hroom hmore) (congrArg Prod.fst hread) hne
    rw [hw] at htake
    rcases consume.takes chunk (t, ⟨log, none⟩) with ⟨e', t', h⟩ | ⟨t', h⟩
    · obtain ⟨he, rfl⟩ := Prod.mk.inj (htake.symm.trans h)
      obtain rfl := Except.error.inj he
      exact .refused t' e chunk (hbytes ▸ List.prefix_append _ _)
    · cases htake.symm.trans h
  | case4 consumed s v w hmore chunk s' hread hne w' htake ih =>
    obtain ⟨hbytes, hfailure⟩ := S.chunk_ok (hroom hmore) (congrArg Prod.fst hread) hne
    have hlength := S.length_le (congrArg Prod.fst hread)
    rw [hread] at hbytes hfailure
    rw [hw] at htake
    rcases consume.takes chunk (t, ⟨log, none⟩) with ⟨e', t', h⟩ | ⟨t', h⟩
    · cases htake.symm.trans h
    · obtain ⟨-, rfl⟩ := Prod.mk.inj (htake.symm.trans h)
      exact (ih rfl (by omega)).cons hbytes hfailure
  | case5 consumed s v w hmore =>
    obtain rfl := Nat.le_antisymm hle (Nat.le_of_not_lt hmore)
    rw [hw]
    exact .done s v t log

/-! ### Whole files -/

/-- What a verification comes to for the bytes of a file that ends as given. -/
def verified (E : Ed25519 κ ν) (key : Option κ) (expectedSize : ℕ) (signature bytes : List UInt8)
    (failure : Option ε) : Except EspErr Unit :=
  if expectedSize = 0 ∨ maxVerifySize < expectedSize ∨ signature.length ≠ signatureSize then .error espErrInvalidSize
  else
    match key with
    | none => .error espErrInvalidState
    | some key =>
      if (E.verifyStream key signature).isNone then .error espErrInvalidCrc
      else if bytes.length ≠ expectedSize ∨ failure.isSome then .error espErrInvalidSize
      else if E.verify key bytes signature then .ok ()
      else .error espErrInvalidCrc

/-- What a verification does: it hands on a beginning of the file, all of it if it accepts, and its result is that of
the whole file unless the consumer refuses a chunk. -/
structure Verifies (E : Ed25519 κ ν) (key : Option κ) (expectedSize : ℕ) (signature bytes : List UInt8)
    (failure : Option ε) (r : Except EspErr Unit × (τ × Log EspErr)) : Prop where
  consumed : r.2.2.bytes <+: bytes
  accepted : r.1 = .ok () → r.2.2 = ⟨bytes, none⟩
  result : r.2.2.refusal = none → r.1 = verified E key expectedSize signature bytes failure

lemma verifies (S : Source σ ε) (consume : Sink τ EspErr) (key : Option κ) (expectedSize : ℕ) (signature : List UInt8)
    (s : σ) (t : τ) : Verifies E key expectedSize signature (S.bytes s) (S.failure s)
      (verifyExactReaderWith E S.toReader consume.logged key expectedSize signature s (t, .empty)) := by
  rw [verifyExactReaderWith.eq_def]
  split_ifs with hguard
  · refine ⟨List.nil_prefix, fun h => (nomatch h), fun _ => ?_⟩
    rw [verified.eq_def, if_pos hguard]
  cases key with
  | none =>
    refine ⟨List.nil_prefix, fun h => (nomatch h), fun _ => ?_⟩
    rw [verified.eq_def, if_neg hguard]
  | some key =>
    have hverified : verified E (some key) expectedSize signature (S.bytes s) (S.failure s) =
        if (E.verifyStream key signature).isNone then .error espErrInvalidCrc
        else if (S.bytes s).length ≠ expectedSize ∨ (S.failure s).isSome then .error espErrInvalidSize
        else if E.verify key (S.bytes s) signature then .ok ()
        else .error espErrInvalidCrc := if_neg hguard
    cases hstream : E.verifyStream key signature with
    | none =>
      simp only [hstream]
      refine ⟨List.nil_prefix, fun h => (nomatch h), fun _ => ?_⟩
      rw [hverified, hstream]
      rfl
    | some v =>
      simp only [hstream]
      rw [hstream, Option.isNone_some, if_neg Bool.false_ne_true] at hverified
      have hloop := verifyLoop_result (E := E) S consume expectedSize 0 s v (t, .empty) rfl (Nat.zero_le _)
      generalize verifyLoop E S.toReader consume.logged expectedSize 0 s v (t, .empty) = r at hloop
      cases hloop with
      | short t' part hpart h =>
        refine ⟨hpart, fun h => (nomatch h), fun _ => ?_⟩
        rw [hverified, if_pos (.inl (by omega))]
      | refused t' e part hpart => exact ⟨hpart, fun h => (nomatch h), fun h => (nomatch h)⟩
      | full t' s' chunks hbytes hsize hfailure =>
        have hpart : chunks.flatten <+: S.bytes s := hbytes ▸ List.prefix_append _ _
        simp only
        rcases S.reads Nat.zero_lt_one s' with ⟨e, h, hend, hfail⟩ | ⟨h, hend, hfail⟩ | ⟨extra, hne, h, -, hrest, -⟩
        · have hbad : (S.bytes s).length ≠ expectedSize ∨ (S.failure s).isSome = true :=
            .inr (by rw [← hfailure, hfail]; rfl)
          simp only [h]
          refine ⟨hpart, fun h => (nomatch h), fun _ => ?_⟩
          rw [hverified, if_pos hbad]
        · have hall : S.bytes s = chunks.flatten := by rw [hbytes, hend, List.append_nil]
          have hgood : ¬ ((S.bytes s).length ≠ expectedSize ∨ (S.failure s).isSome = true) := by
            rw [hall, ← hfailure, hfail, not_or, not_not]
            exact ⟨by omega, Bool.false_ne_true⟩
          rw [if_neg hgood, hall] at hverified
          rw [hall]
          simp only [h, ne_eq, not_true_eq_false, if_false, E.stream chunks hstream]
          split_ifs with hverify
          · rw [if_pos hverify] at hverified
            exact ⟨List.prefix_rfl, fun _ => rfl, fun _ => hverified.symm⟩
          · rw [if_neg hverify] at hverified
            exact ⟨List.prefix_rfl, fun h => (nomatch h), fun _ => hverified.symm⟩
        · have hpos := List.length_pos_iff.mpr hne
          have hbad : (S.bytes s).length ≠ expectedSize := by
            rw [hbytes, hrest, List.length_append, List.length_append]
            omega
          simp only [h, ne_eq, hne, not_false_eq_true, if_true]
          refine ⟨hpart, fun h => (nomatch h), fun _ => ?_⟩
          rw [hverified, if_pos (.inl hbad)]

lemma verifyFileBytes_ok_iff {key : Option κ} {bytes signature : List UInt8} :
    verifyFileBytes E key bytes (.ok signature) = espOk ↔ bytes.length ≤ maxVerifySize ∧
      signature.length = signatureSize ∧ ∃ k, key = some k ∧ E.verify k bytes signature = true := by
  rw [verifyFileBytes]
  split_ifs with hlong hsignature
  · exact iff_of_false (by decide) fun h => absurd h.1 (Nat.not_le.mpr hlong)
  · exact iff_of_false (by decide) fun h => hsignature h.2.1
  · rw [and_iff_right (Nat.le_of_not_lt hlong), and_iff_right (not_not.mp hsignature)]
    cases key with
    | none => exact iff_of_false (show ¬ espErrInvalidState = espOk by decide) fun ⟨_, h, _⟩ => nomatch h
    | some key =>
      rw [signingVerify]
      split_ifs with hverify
      · exact iff_of_true rfl ⟨key, rfl, hverify⟩
      · refine iff_of_false (by decide) ?_
        rintro ⟨k, hk, h⟩
        obtain rfl := Option.some.inj hk
        exact hverify h

lemma verified_ok_iff {key : Option κ} {expectedSize : ℕ} {signature bytes : List UInt8} {failure : Option ε} :
    verified E key expectedSize signature bytes failure = .ok () ↔
      expectedSize ≠ 0 ∧ bytes.length = expectedSize ∧ failure = none ∧
        verifyFileBytes E key bytes (.ok signature) = espOk := by
  rw [verifyFileBytes_ok_iff, verified.eq_def]
  constructor
  · intro h
    by_cases hguard : expectedSize = 0 ∨ maxVerifySize < expectedSize ∨ signature.length ≠ signatureSize
    · rw [if_pos hguard] at h
      cases h
    rw [if_neg hguard] at h
    rw [not_or, not_or, not_not] at hguard
    cases key with
    | none => cases h
    | some key =>
      simp only at h
      split_ifs at h with hstream hbad hverify
      rw [not_or, not_not, Option.not_isSome_iff_eq_none] at hbad
      exact ⟨hguard.1, hbad.1, hbad.2, hbad.1 ▸ Nat.le_of_not_lt hguard.2.1, hguard.2.2, key, rfl, hverify⟩
  · rintro ⟨hzero, rfl, rfl, hle, hsignature, k, rfl, hverify⟩
    have hguard : ¬ (bytes.length = 0 ∨ maxVerifySize < bytes.length ∨ signature.length ≠ signatureSize) := by
      rw [not_or, not_or, not_not]
      exact ⟨hzero, Nat.not_lt.mpr hle, hsignature⟩
    have hstream : (E.verifyStream k signature).isNone = false := by
      cases hstream : E.verifyStream k signature with
      | none =>
        rw [E.refused bytes hstream] at hverify
        cases hverify
      | some v => rfl
    rw [if_neg hguard]
    simp [hstream, hverify]

/-- A streamed verification whose consumer refuses nothing accepts a file exactly if the file is not empty, has the
expected size, is read without an error and is accepted as a whole; the consumer gets a beginning of the file, all of
it if the file is accepted; and the result is the same for every other reader of the file. -/
theorem streamed_verification (E : Ed25519 κ ν) (S : Source σ ε) (consume : Sink τ EspErr) (key : Option κ)
    (expectedSize : ℕ) (signature : List UInt8) (s : σ) (t : τ) :
    let r := verifyExactReaderWith E S.toReader consume.logged key expectedSize signature s (t, .empty)
    (r.2.2.refusal = none → (r.1 = .ok () ↔ expectedSize ≠ 0 ∧ (S.bytes s).length = expectedSize ∧ S.failure s = none ∧
      verifyFileBytes E key (S.bytes s) (.ok signature) = espOk)) ∧
    (r.2.2.bytes <+: S.bytes s ∧ (r.1 = .ok () → r.2.2 = ⟨S.bytes s, none⟩)) ∧
    ∀ {σ' τ' : Type} (S' : Source σ' ε) (consume' : Sink τ' EspErr) (s' : σ') (t' : τ'),
      let r' := verifyExactReaderWith E S'.toReader consume'.logged key expectedSize signature s' (t', .empty)
      S'.bytes s' = S.bytes s → S'.failure s' = S.failure s → r.2.2.refusal = none → r'.2.2.refusal = none →
        r'.1 = r.1 := by
  intro r
  have hr := verifies (E := E) S consume key expectedSize signature s t
  refine ⟨fun h => ?_, ⟨hr.consumed, hr.accepted⟩, ?_⟩
  · rw [hr.result h]
    exact verified_ok_iff
  · intro σ' τ' S' consume' s' t' r' hbytes hfailure h h'
    have hr' := verifies (E := E) S' consume' key expectedSize signature s' t'
    rw [hr.result h, hr'.result h', hbytes, hfailure]

/-- A scheme whose signatures are the first bytes of the message, which nobody should use. -/
def toyScheme : Ed25519 Unit (List UInt8 × List UInt8) where
  verify _ message signature := signature == (message ++ List.replicate signatureSize 0).take signatureSize
  verifyStream _ signature := some (signature, [])
  update v chunk := (v.1, v.2 ++ chunk)
  finalizeAndVerify v := v.1 == (v.2 ++ List.replicate signatureSize 0).take signatureSize
  stream {key signature v} chunks h := by
    have hfold : ∀ v : List UInt8 × List UInt8,
        chunks.foldl (fun v chunk => (v.1, v.2 ++ chunk)) v = (v.1, v.2 ++ chunks.flatten) := by
      induction chunks with
      | nil => exact fun v => by rw [List.flatten_nil, List.append_nil]; rfl
      | cons chunk chunks ih => exact fun v => by rw [List.foldl_cons, ih, List.flatten_cons, List.append_assoc]
    obtain rfl := Option.some.inj h
    rw [hfold, List.nil_append]
  refused message h := nomatch h

/-- An empty file with a good signature is refused. -/
theorem empty_file_refused :
    verifyFileBytes toyScheme (some ()) [] (.ok (List.replicate signatureSize 0)) = espOk ∧
      (verifyExactReaderWith toyScheme (Source.ofBytes 0 (none : Option Unit)).toReader (Sink.all EspErr).logged
        (some ()) 0 (List.replicate signatureSize 0) [] ((), .empty)).1 = .error espErrInvalidSize := by
  exact ⟨by decide, rfl⟩

end ThistleOS.Signing
