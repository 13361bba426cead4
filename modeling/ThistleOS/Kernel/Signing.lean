import ThistleOS.EspErr
import ThistleOS.Reader

/-!
# Signatures

A file is verified against its signature while it is handed on, in chunks, to whoever uses it. The signature scheme
is a parameter: one that verifies a whole message and one that takes it in chunks and agrees with the first.
-/

namespace ThistleOS.Signing

/-- `ed25519_dalek`: the keys are of type `κ`, and a verification that has begun is of type `ν`. -/
structure Ed25519 (κ ν : Type) where
  verify : κ → (message signature : List UInt8) → Bool
  verifyStream : κ → (signature : List UInt8) → Option ν
  update : ν → List UInt8 → ν
  finalizeAndVerify : ν → Bool
  stream : ∀ {key signature v} (chunks : List (List UInt8)), verifyStream key signature = some v →
    finalizeAndVerify (chunks.foldl update v) = verify key chunks.flatten signature
  refused : ∀ {key signature} (message : List UInt8), verifyStream key signature = none →
    verify key message signature = false

variable {σ τ κ ν ε : Type}

def maxVerifySize : ℕ := 16 * 1024 * 1024

def signatureSize : ℕ := 64

def bufferSize : ℕ := 4096

section Verify

variable (E : Ed25519 κ ν)

/-- Without a key nothing is verified. -/
def signingVerify (key : Option κ) (data signature : List UInt8) : EspErr :=
  match key with
  | none => espErrInvalidState
  | some key => if E.verify key data signature then espOk else espErrInvalidCrc

/-- The image of a file together with what is read of its signature file. -/
def verifyFileBytes (key : Option κ) (fileBytes : List UInt8) (sigBytes : Except EspErr (List UInt8)) : EspErr :=
  if maxVerifySize < fileBytes.length then espErrInvalidSize
  else
    match sigBytes with
    | .error err => err
    | .ok sigBytes =>
      if sigBytes.length ≠ signatureSize then espErrInvalidSize else signingVerify E key fileBytes sigBytes

/-- Each chunk is hashed and then handed to the consumer, until as many bytes as expected have been. -/
def verifyLoop (R : Reader σ ε) (consume : Sink τ EspErr) (expectedSize consumed : ℕ) (s : σ) (v : ν) (t : τ) :
    Except EspErr (σ × ν) × τ :=
  if hmore : consumed < expectedSize then
    match R.read (min bufferSize (expectedSize - consumed)) s with
    | (.error _, _) => (.error espErrInvalidSize, t)
    | (.ok chunk, s') =>
      if hchunk : chunk = [] then (.error espErrInvalidSize, t)
      else
        match consume.take chunk t with
        | (.error e, t') => (.error e, t')
        | (.ok (), t') => verifyLoop R consume expectedSize (consumed + chunk.length) s' (E.update v chunk) t'
  else (.ok (s, v), t)
termination_by expectedSize - consumed
decreasing_by
  have hpos := List.length_pos_iff.mpr hchunk
  omega

def verifyExactReaderWith (R : Reader σ ε) (consume : Sink τ EspErr) (key : Option κ) (expectedSize : ℕ)
    (signature : List UInt8) (s : σ) (t : τ) : Except EspErr Unit × τ :=
  if expectedSize = 0 ∨ maxVerifySize < expectedSize ∨ signature.length ≠ signatureSize then
    (.error espErrInvalidSize, t)
  else
    match key with
    | none => (.error espErrInvalidState, t)
    | some key =>
      match E.verifyStream key signature with
      | none => (.error espErrInvalidCrc, t)
      | some v =>
        match verifyLoop E R consume expectedSize 0 s v t with
        | (.error e, t') => (.error e, t')
        | (.ok (s', v'), t') =>
          match (R.read 1 s').1 with
          | .error _ => (.error espErrInvalidSize, t')
          | .ok extra =>
            if extra ≠ [] then (.error espErrInvalidSize, t')
            else if E.finalizeAndVerify v' then (.ok (), t') else (.error espErrInvalidCrc, t')

end Verify

end ThistleOS.Signing
