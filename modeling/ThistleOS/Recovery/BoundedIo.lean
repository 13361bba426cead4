import ThistleOS.Kernel.MsgQueue.Json
import ThistleOS.Reader
import ThistleOS.Recovery.ArtifactManifest

/-!
# Bounded bodies

The bodies of requests and responses are copied in chunks, up to a limit and a length that has been declared.
-/

namespace ThistleOS.BoundedIo

/-- The errors of a copy: those of the reader, of the writer, and the two of the limits. -/
inductive IoError (ε : Type) where
  | read (e : ε)
  | write (e : ε)
  | invalidData (message : String)
  | unexpectedEof (message : String)
  deriving DecidableEq

variable {σ τ ε : Type}

def invalidData (message : String) : IoError ε := .invalidData message

def limitError (maxSize : ℕ) : IoError ε := .invalidData ("body exceeds " ++ toString maxSize ++ "-byte limit")

def lengthError : IoError ε := .unexpectedEof "body length does not match Content-Length"

/-- The bytes that a body may still have. Sums do not reach the end of `usize` before they reach the limit. -/
structure BodyLimit where
  declaredLength : Option ℕ
  maxSize : ℕ
  received : ℕ
  declared_le : ∀ length ∈ declaredLength, length ≤ maxSize ∧ received ≤ length
  received_le : received ≤ maxSize

namespace BodyLimit

def new (declaredLength : Option ℕ) (maxSize : ℕ) : Except (IoError ε) BodyLimit :=
  if h : ∀ length ∈ declaredLength, length ≤ maxSize then
    .ok ⟨declaredLength, maxSize, 0, fun length hlength => ⟨h length hlength, Nat.zero_le _⟩, Nat.zero_le _⟩
  else .error (limitError maxSize)

def observe (count : ℕ) (l : BodyLimit) : Except (IoError ε) BodyLimit :=
  if h : l.received + count ≤ l.maxSize ∧ ∀ length ∈ l.declaredLength, l.received + count ≤ length then
    .ok { l with
      received := l.received + count
      declared_le := fun length hlength => ⟨(l.declared_le length hlength).1, h.2 length hlength⟩
      received_le := h.1 }
  else .error (limitError l.maxSize)

def finish (l : BodyLimit) : Except (IoError ε) ℕ :=
  if ∀ length ∈ l.declaredLength, l.received = length then .ok l.received else .error lengthError

end BodyLimit

/-- The length that the headers of a request declare. -/
def validateFraming (contentLength transferEncoding : Option String) (maxSize : ℕ) :
    Except (IoError ε) (Option ℕ) :=
  if transferEncoding.any fun value => MsgQueue.trim value.toList ≠ [] then
    .error (invalidData "transfer-encoded bodies are not accepted")
  else
    match contentLength with
    | none => .ok none
    | some contentLength =>
      match ArtifactManifest.parseDecimal 0x100000000 (String.ofList (MsgQueue.trim contentLength.toList)) with
      | none => .error (invalidData "invalid Content-Length")
      | some declared => if maxSize < declared then .error (limitError maxSize) else .ok (some declared)

def bufferSize : ℕ := 4096

lemma observe_ok {l l' : BodyLimit} {count : ℕ} (h : l.observe count = (.ok l' : Except (IoError ε) BodyLimit)) :
    l'.declaredLength = l.declaredLength ∧ l'.maxSize = l.maxSize ∧ l'.received = l.received + count := by
  rw [BodyLimit.observe] at h
  split_ifs at h
  obtain rfl := Except.ok.inj h
  exact ⟨rfl, rfl, rfl⟩

/-- Each chunk is counted before it is written. -/
def copyLoop (R : Reader σ ε) (W : Sink τ ε) (l : BodyLimit) (s : σ) (t : τ) : Except (IoError ε) ℕ × τ :=
  match R.read bufferSize s with
  | (.error e, _) => (.error (.read e), t)
  | (.ok chunk, s') =>
    if hchunk : chunk = [] then (l.finish, t)
    else
      match hobserve : l.observe chunk.length with
      | .error e => (.error e, t)
      | .ok l' =>
        match W.take chunk t with
        | (.error e, t') => (.error (.write e), t')
        | (.ok (), t') => copyLoop R W l' s' t'
termination_by l.maxSize - l.received
decreasing_by
  obtain ⟨-, hmax, hreceived⟩ := observe_ok hobserve
  have hle := l'.received_le
  have hpos := List.length_pos_of_ne_nil hchunk
  omega

def copyLimited (R : Reader σ ε) (W : Sink τ ε) (declaredLength : Option ℕ) (maxSize : ℕ) (s : σ) (t : τ) :
    Except (IoError ε) ℕ × τ :=
  match BodyLimit.new declaredLength maxSize with
  | .error e => (.error e, t)
  | .ok l => copyLoop R W l s t

end ThistleOS.BoundedIo
