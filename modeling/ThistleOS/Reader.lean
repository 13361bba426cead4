import Mathlib.Tactic.Common

/-!
# Readers and sinks

A reader fills a buffer with as many bytes as it likes, and a sink takes chunks of bytes. A source is a reader of a
given string of bytes, however it splits it, which ends regularly or with an error.
-/

/-- A reader answers with a chunk that fits into the buffer, or with an error. -/
structure Reader (σ ε : Type) where
  read : ℕ → σ → Except ε (List UInt8) × σ
  length_le : ∀ {n s chunk}, (read n s).1 = .ok chunk → chunk.length ≤ n

namespace Reader

variable {σ ε : Type} (R : Reader σ ε) {n : ℕ} {w : σ × List UInt8}

/-- A reader that records what it has handed out. -/
def logged : Reader (σ × List UInt8) ε where
  read n w := ((R.read n w.1).1, ((R.read n w.1).2, w.2 ++ ((R.read n w.1).1.toOption.getD [])))
  length_le := R.length_le

lemma logged_ok {chunk : List UInt8} {w' : σ × List UInt8} (h : R.logged.read n w = (.ok chunk, w')) :
    w'.2 = w.2 ++ chunk := by
  obtain ⟨hread, rfl⟩ := Prod.mk.inj h
  simp only [hread, Except.toOption, Option.getD_some]

end Reader

/-- An empty chunk says that nothing is left. -/
structure Source (σ ε : Type) extends Reader σ ε where
  bytes : σ → List UInt8
  failure : σ → Option ε
  chunk_ok : ∀ {n s chunk}, 0 < n → (read n s).1 = .ok chunk → chunk ≠ [] →
    bytes s = chunk ++ bytes (read n s).2 ∧ failure (read n s).2 = failure s
  end_ok : ∀ {n s}, 0 < n → (read n s).1 = .ok [] → bytes s = [] ∧ failure s = none
  error : ∀ {n s e}, 0 < n → (read n s).1 = .error e → bytes s = [] ∧ failure s = some e

structure Sink (τ ε : Type) where
  take : List UInt8 → τ → Except ε Unit × τ

namespace Source

variable {σ ε : Type} {S : Source σ ε} {n : ℕ}

/-- What a read can come to. -/
inductive Reads (S : Source σ ε) (n : ℕ) (s : σ) : Prop
  | error (e : ε) (h : (S.read n s).1 = .error e) (hbytes : S.bytes s = []) (hfailure : S.failure s = some e)
  | finish (h : (S.read n s).1 = .ok []) (hbytes : S.bytes s = []) (hfailure : S.failure s = none)
  | chunk (chunk : List UInt8) (hne : chunk ≠ []) (h : (S.read n s).1 = .ok chunk) (hle : chunk.length ≤ n)
    (hbytes : S.bytes s = chunk ++ S.bytes (S.read n s).2) (hfailure : S.failure (S.read n s).2 = S.failure s)

lemma reads (hn : 0 < n) (s : σ) : Reads S n s := by
  cases h : (S.read n s).1 with
  | error e => exact .error e h (S.error hn h).1 (S.error hn h).2
  | ok chunk =>
    by_cases hne : chunk = []
    · subst hne
      exact .finish h (S.end_ok hn h).1 (S.end_ok hn h).2
    · exact .chunk chunk hne h (S.length_le h) (S.chunk_ok hn h hne).1 (S.chunk_ok hn h hne).2

/-- A string of bytes that is handed out in chunks of at most a given number of bytes. -/
def ofBytes (step : ℕ) (failure : Option ε) : Source (List UInt8) ε where
  read n s := (if s = [] then failure.elim (.ok []) .error else .ok (s.take (min n (step + 1))), s.drop (min n (step + 1)))
  bytes s := s
  failure _ := failure
  length_le {n s chunk} h := by
    split_ifs at h
    · cases failure with
      | none =>
        obtain rfl := Except.ok.inj h
        exact Nat.zero_le n
      | some e => cases h
    · obtain rfl := Except.ok.inj h
      exact Nat.le_trans (List.length_take_le _ _) (Nat.min_le_left _ _)
  chunk_ok {n s chunk} hn h hne := by
    split_ifs at h with hs
    · cases failure with
      | none =>
        obtain rfl := Except.ok.inj h
        exact absurd rfl hne
      | some e => cases h
    · obtain rfl := Except.ok.inj h
      exact ⟨(List.take_append_drop _ _).symm, rfl⟩
  end_ok {n s} hn h := by
    split_ifs at h with hs
    · cases failure with
      | none => exact ⟨hs, rfl⟩
      | some e => cases h
    · have hnil := Except.ok.inj h
      rw [List.take_eq_nil_iff] at hnil
      exact absurd (hnil.resolve_right hs) (by omega)
  error {n s e} hn h := by
    split_ifs at h with hs
    · cases failure with
      | none => cases h
      | some e' =>
        obtain rfl := Except.error.inj h
        exact ⟨hs, rfl⟩

end Source

namespace Sink

variable {τ ε : Type} (K : Sink τ ε) {chunk : List UInt8} {t : τ}

/-- What a sink has been handed, and its error if it has refused a chunk. -/
structure Log (ε : Type) where
  bytes : List UInt8
  refusal : Option ε

namespace Log

def record (chunk : List UInt8) : Except ε Unit → Log ε → Log ε
  | .error e, log => ⟨log.bytes ++ chunk, some e⟩
  | .ok (), log => ⟨log.bytes ++ chunk, log.refusal⟩

def empty : Log ε := ⟨[], none⟩

end Log

/-- A sink that keeps a log. -/
def logged : Sink (τ × Log ε) ε where
  take chunk w := ((K.take chunk w.1).1, ((K.take chunk w.1).2, w.2.record chunk (K.take chunk w.1).1))

/-- What a chunk can come to. -/
inductive Takes (K : Sink τ ε) (chunk : List UInt8) (w : τ × Log ε) : Prop
  | refuse (e : ε) (t : τ) (h : K.logged.take chunk w = (.error e, (t, ⟨w.2.bytes ++ chunk, some e⟩)))
  | accept (t : τ) (h : K.logged.take chunk w = (.ok (), (t, ⟨w.2.bytes ++ chunk, w.2.refusal⟩)))

lemma takes (chunk : List UInt8) (w : τ × Log ε) : Takes K chunk w := by
  cases h : (K.take chunk w.1).1 with
  | error e => exact .refuse e (K.take chunk w.1).2 (by rw [logged]; simp only [h, Log.record])
  | ok u => exact .accept (K.take chunk w.1).2 (by rw [logged]; simp only [h, Log.record])

/-- A sink that takes everything. -/
def all (ε : Type) : Sink Unit ε := ⟨fun _ t => (.ok (), t)⟩

end Sink
