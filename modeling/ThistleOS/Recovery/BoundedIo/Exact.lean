import ThistleOS.Recovery.BoundedIo

/-!
# What a copy comes to

The result of a copy is that of the length of the body, however the reader splits it.
-/

namespace ThistleOS.BoundedIo

open Sink (Log)

variable {σ τ ε : Type}

/-- The result for a body of a length that ends as given. -/
def outcome (declaredLength : Option ℕ) (maxSize length : ℕ) (failure : Option ε) : Except (IoError ε) ℕ :=
  if length ≤ maxSize ∧ ∀ declared ∈ declaredLength, declared ≤ maxSize ∧ length ≤ declared then
    match failure with
    | some e => .error (.read e)
    | none => if ∀ declared ∈ declaredLength, length = declared then .ok length else .error lengthError
  else .error (limitError maxSize)

/-- What a copy from some point on does with the rest of a body: it writes a part of it that stays within the limits,
and its result is that of the whole length unless the writer refuses a chunk. -/
structure Copies (l : BodyLimit) (bytes : List UInt8) (failure : Option ε) (w : τ × Log ε)
    (r : Except (IoError ε) ℕ × (τ × Log ε)) : Prop where
  written : ∃ part, r.2.2.bytes = w.2.bytes ++ part ∧ part <+: bytes ∧ l.received + part.length ≤ l.maxSize ∧
    (∀ declared ∈ l.declaredLength, l.received + part.length ≤ declared) ∧
    (r.1.toOption.isSome → part = bytes)
  result : r.2.2.refusal = none → r.1 = outcome l.declaredLength l.maxSize (l.received + bytes.length) failure

lemma copies_nothing {l : BodyLimit} {bytes : List UInt8} {failure : Option ε} {w : τ × Log ε} {r : Except (IoError ε) ℕ}
    (h : r.toOption.isSome → bytes = [])
    (hresult : r = outcome l.declaredLength l.maxSize (l.received + bytes.length) failure) :
    Copies l bytes failure w (r, w) where
  written := ⟨[], (List.append_nil _).symm, List.nil_prefix, l.received_le, fun d hd => (l.declared_le d hd).2,
    fun hr => (h hr).symm⟩
  result _ := hresult

lemma outcome_of_lt {l : BodyLimit} {n m : ℕ} {failure : Option ε} {e : IoError ε} (hle : n ≤ m)
    (h : l.observe n = .error e) : .error e = outcome l.declaredLength l.maxSize (l.received + m) failure := by
  rw [BodyLimit.observe] at h
  split_ifs at h with hroom
  obtain rfl := Except.error.inj h
  rw [outcome.eq_def, if_neg]
  rintro ⟨hmax, hdeclared⟩
  exact hroom ⟨by omega, fun d hd => by have := (hdeclared d hd).2; omega⟩

lemma outcome_end (l : BodyLimit) : (l.finish : Except (IoError ε) ℕ) =
    outcome l.declaredLength l.maxSize (l.received + 0) none := by
  rw [outcome.eq_def, if_pos ⟨l.received_le, l.declared_le⟩]
  rfl

lemma outcome_error (l : BodyLimit) (e : ε) : .error (.read e) =
    outcome l.declaredLength l.maxSize (l.received + 0) (some e) := by
  rw [outcome.eq_def, if_pos ⟨l.received_le, l.declared_le⟩]

lemma copyLoop_copies (S : Source σ ε) (W : Sink τ ε) (l : BodyLimit) (s : σ) (w : τ × Log ε) (hw : w.2.refusal = none) :
    Copies l (S.bytes s) (S.failure s) w (copyLoop S.toReader W.logged l s w) := by
  have hbuffer : 0 < bufferSize := by decide
  fun_induction copyLoop S.toReader W.logged l s w with
  | case1 l s w e s' hread =>
    obtain ⟨hbytes, hfailure⟩ := S.error hbuffer (congrArg Prod.fst hread)
    rw [hbytes, hfailure]
    exact copies_nothing (fun _ => rfl) (outcome_error l e)
  | case2 l s w s' hread =>
    obtain ⟨hbytes, hfailure⟩ := S.end_ok hbuffer (congrArg Prod.fst hread)
    rw [hbytes, hfailure]
    exact copies_nothing (fun _ => rfl) (outcome_end l)
  | case3 l s w chunk s' hread hne e hobserve =>
    obtain ⟨hbytes, -⟩ := S.chunk_ok hbuffer (congrArg Prod.fst hread) hne
    rw [hbytes]
    refine copies_nothing (fun h => absurd h Bool.false_ne_true) (outcome_of_lt ?_ hobserve)
    rw [List.length_append]
    exact Nat.le_add_right _ _
  | case4 l s w chunk s' hread hne l' hobserve e w' htake =>
    obtain ⟨hbytes, -⟩ := S.chunk_ok hbuffer (congrArg Prod.fst hread) hne
    obtain ⟨hdeclared, hmax, hreceived⟩ := observe_ok hobserve
    rcases W.takes chunk w with ⟨e', t, h⟩ | ⟨t, h⟩
    · obtain ⟨-, rfl⟩ := Prod.mk.inj (htake.symm.trans h)
      rw [hbytes]
      refine ⟨⟨chunk, rfl, List.prefix_append _ _, ?_, fun d hd => ?_, fun h => absurd h Bool.false_ne_true⟩,
        fun h => nomatch h⟩
      · rw [← hmax, ← hreceived]
        exact l'.received_le
      · rw [← hreceived]
        exact (l'.declared_le d (hdeclared ▸ hd)).2
    · cases htake.symm.trans h
  | case5 l s w chunk s' hread hne l' hobserve w' htake ih =>
    obtain ⟨hbytes, hfailure⟩ := S.chunk_ok hbuffer (congrArg Prod.fst hread) hne
    rw [hread] at hbytes hfailure
    obtain ⟨hdeclared, hmax, hreceived⟩ := observe_ok hobserve
    rcases W.takes chunk w with ⟨e', t, h⟩ | ⟨t, h⟩
    · cases htake.symm.trans h
    · obtain ⟨-, rfl⟩ := Prod.mk.inj (htake.symm.trans h)
      obtain ⟨⟨part, hlog, hpart, hle, hdeclared', hall⟩, hresult⟩ := ih hw
      rw [hreceived, hmax] at hle
      rw [hbytes, ← hfailure]
      refine ⟨⟨chunk ++ part, ?_, (List.prefix_append_right_inj chunk).mpr hpart, ?_, fun d hd => ?_, fun h => ?_⟩,
        fun h => ?_⟩
      · rw [hlog, List.append_assoc]
      · rw [List.length_append, ← Nat.add_assoc]
        exact hle
      · have hd := hdeclared' d (hdeclared ▸ hd)
        rw [List.length_append, ← Nat.add_assoc, ← hreceived]
        exact hd
      · rw [hall h]
      · rw [hresult h, hdeclared, hmax, hreceived, List.length_append, Nat.add_assoc]

/-! ### Copies -/

/-- A body whose headers have been accepted is not refused before it is read. -/
lemma new_of_validateFraming {contentLength transferEncoding : Option String} {declaredLength : Option ℕ} {maxSize : ℕ}
    (h : validateFraming contentLength transferEncoding maxSize = (.ok declaredLength : Except (IoError ε) (Option ℕ))) :
    ∃ l, (BodyLimit.new declaredLength maxSize : Except (IoError ε) BodyLimit) = .ok l := by
  have hle : ∀ declared ∈ declaredLength, declared ≤ maxSize := by
    rw [validateFraming.eq_def] at h
    split_ifs at h
    cases contentLength with
    | none =>
      obtain rfl := Except.ok.inj h
      exact fun _ hd => nomatch hd
    | some value =>
      simp only at h
      split at h
      · cases h
      · split_ifs at h with hlt
        obtain rfl := Except.ok.inj h
        intro declared hd
        obtain rfl := Option.mem_some_iff.mp hd
        exact Nat.le_of_not_lt hlt
  rw [BodyLimit.new, dif_pos hle]
  exact ⟨_, rfl⟩

section Copy

variable {S : Source σ ε} {W : Sink τ ε} {declaredLength : Option ℕ} {maxSize : ℕ} {s : σ} {t : τ}

lemma outcome_ok_iff {length n : ℕ} {failure : Option ε} :
    outcome declaredLength maxSize length failure = .ok n ↔
      failure = none ∧ length = n ∧ n ≤ maxSize ∧ ∀ declared ∈ declaredLength, n = declared := by
  rw [outcome.eq_def]
  constructor
  · intro h
    by_cases hroom : length ≤ maxSize ∧ ∀ declared ∈ declaredLength, declared ≤ maxSize ∧ length ≤ declared
    · rw [if_pos hroom] at h
      cases failure with
      | some e => cases h
      | none =>
        simp only at h
        split_ifs at h with hdeclared
        obtain rfl := Except.ok.inj h
        exact ⟨rfl, rfl, hroom.1, hdeclared⟩
    · rw [if_neg hroom] at h
      cases h
  · rintro ⟨rfl, rfl, hle, hdeclared⟩
    have hroom : length ≤ maxSize ∧ ∀ declared ∈ declaredLength, declared ≤ maxSize ∧ length ≤ declared :=
      ⟨hle, fun d hd => ⟨hdeclared d hd ▸ hle, Nat.le_of_eq (hdeclared d hd)⟩⟩
    rw [if_pos hroom]
    exact if_pos hdeclared

/-- The same for a whole copy: it may be that nothing is read. -/
structure CopiesAll (declaredLength : Option ℕ) (maxSize : ℕ) (bytes : List UInt8) (failure : Option ε)
    (r : Except (IoError ε) ℕ × (τ × Log ε)) : Prop where
  written : r.2.2.bytes <+: bytes
  length_le : r.2.2.bytes.length ≤ maxSize ∧ ∀ declared ∈ declaredLength, r.2.2.bytes.length ≤ declared
  all : r.1.toOption.isSome → r.2.2.bytes = bytes
  result : r.2.2.refusal = none → r.1 = outcome declaredLength maxSize bytes.length failure

lemma copyLimited_copies (S : Source σ ε) (W : Sink τ ε) (declaredLength : Option ℕ) (maxSize : ℕ) (s : σ) (t : τ) :
    CopiesAll declaredLength maxSize (S.bytes s) (S.failure s)
      (copyLimited S.toReader W.logged declaredLength maxSize s (t, .empty)) := by
  rw [copyLimited, BodyLimit.new]
  split_ifs with hdeclared
  · obtain ⟨⟨part, hlog, hpart, hle, hdeclared', hall⟩, hresult⟩ := copyLoop_copies S W
      ⟨declaredLength, maxSize, 0, fun d hd => ⟨hdeclared d hd, Nat.zero_le _⟩, Nat.zero_le _⟩ s (t, .empty) rfl
    rw [Nat.zero_add] at hresult hle
    have hbytes := hlog.trans (List.nil_append part)
    refine ⟨by rwa [hbytes], ?_, fun h => by rw [hbytes, hall h], hresult⟩
    rw [hbytes]
    exact ⟨hle, fun d hd => Nat.zero_add part.length ▸ hdeclared' d hd⟩
  · refine ⟨List.nil_prefix, ⟨Nat.zero_le _, fun _ _ => Nat.zero_le _⟩, fun h => absurd h Bool.false_ne_true, fun _ => ?_⟩
    rw [outcome.eq_def, if_neg fun h => hdeclared fun d hd => (h.2 d hd).1]

end Copy

/-- A copy to a writer that refuses nothing returns `n` exactly if the body ends without an error after `n` bytes,
which are no more than the maximum and as many as declared; the writer gets a beginning of the body within the
limits, all of it on success; and the result is the same for every other reader of the body. -/
theorem copy_limited_exact (S : Source σ ε) (W : Sink τ ε) (declaredLength : Option ℕ) (maxSize : ℕ) (s : σ) (t : τ) :
    let r := copyLimited S.toReader W.logged declaredLength maxSize s (t, .empty)
    (r.2.2.refusal = none → ∀ n, r.1 = .ok n ↔ S.failure s = none ∧ (S.bytes s).length = n ∧ n ≤ maxSize ∧
      ∀ declared ∈ declaredLength, n = declared) ∧
    (r.2.2.bytes <+: S.bytes s ∧ r.2.2.bytes.length ≤ maxSize ∧
      (∀ declared ∈ declaredLength, r.2.2.bytes.length ≤ declared) ∧ ∀ n, r.1 = .ok n → r.2.2.bytes = S.bytes s) ∧
    ∀ {σ' τ' : Type} (S' : Source σ' ε) (W' : Sink τ' ε) (s' : σ') (t' : τ'),
      let r' := copyLimited S'.toReader W'.logged declaredLength maxSize s' (t', .empty)
      S'.bytes s' = S.bytes s → S'.failure s' = S.failure s → r.2.2.refusal = none → r'.2.2.refusal = none →
        r'.1 = r.1 := by
  intro r
  have hr := copyLimited_copies S W declaredLength maxSize s t
  refine ⟨fun h n => ?_, ⟨hr.written, hr.length_le.1, hr.length_le.2, fun n h => hr.all ?_⟩, ?_⟩
  · rw [hr.result h]
    exact outcome_ok_iff
  · rw [show (copyLimited S.toReader W.logged declaredLength maxSize s (t, .empty)).1 = .ok n from h]
    rfl
  · intro σ' τ' S' W' s' t' r' hbytes hfailure h h'
    have hr' := copyLimited_copies S' W' declaredLength maxSize s' t'
    rw [hr.result h, hr'.result h', hbytes, hfailure]

end ThistleOS.BoundedIo
