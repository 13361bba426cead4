import ThistleOS.Kernel.Signing
import ThistleOS.Protocol

/-!
# Updates from the card

An image on the card is verified while it is written to the inactive partition, and the device boots from the partition
once all of the image is written and its signature is good. The first boot of an image is a trial, until the image is
marked valid.

ESP-IDF is a parameter, which answers each call as it likes, and so are the card and the signature scheme.
-/

open ThistleOS.Signing (Ed25519 signatureSize verifyExactReaderWith)

namespace ThistleOS.Ota

def maxOtaSize : ℕ := 16 * 1024 * 1024

/-- The state of an image that is on trial. -/
def imgPendingVerify : UInt32 := 1

/-- The calls of ESP-IDF for partitions of type `π`, and the callback for the progress. A begin also answers with a
handle, and a rollback that works does not return. -/
structure Esp (π φ : Type) where
  runningState : φ → Option (EspErr × UInt32) × φ
  markAppValid : φ → EspErr × φ
  markAppInvalid : φ → Option EspErr × φ
  nextUpdatePartition : φ → Option π × φ
  otaBegin : π → ℕ → φ → (EspErr × UInt32) × φ
  otaWrite : UInt32 → List UInt8 → φ → EspErr × φ
  otaAbort : UInt32 → φ → EspErr × φ
  otaEnd : UInt32 → φ → EspErr × φ
  setBootPartition : π → φ → EspErr × φ
  restart : φ → φ
  progress : (written total : UInt32) → φ → φ

/-- The calls with their answers. -/
inductive Call (π : Type) where
  | runningState (answer : Option (EspErr × UInt32))
  | markAppValid (ret : EspErr)
  | markAppInvalid (ret : Option EspErr)
  | otaBegin (partition : π) (size : ℕ) (ret : EspErr) (handle : UInt32)
  | otaWrite (handle : UInt32) (bytes : List UInt8) (ret : EspErr)
  | otaAbort (handle : UInt32) (ret : EspErr)
  | otaEnd (handle : UInt32) (ret : EspErr)
  | setBootPartition (partition : π) (ret : EspErr)
  | restart
  | progress (written total : UInt32)

variable {π φ σ ε κ ν : Type}

/-- ESP-IDF with a log of its calls. -/
def Esp.logged (F : Esp π φ) : Esp π (φ × List (Call π)) where
  runningState w := ((F.runningState w.1).1, ((F.runningState w.1).2, w.2 ++ [.runningState (F.runningState w.1).1]))
  markAppValid w := ((F.markAppValid w.1).1, ((F.markAppValid w.1).2, w.2 ++ [.markAppValid (F.markAppValid w.1).1]))
  markAppInvalid w :=
    ((F.markAppInvalid w.1).1, ((F.markAppInvalid w.1).2, w.2 ++ [.markAppInvalid (F.markAppInvalid w.1).1]))
  nextUpdatePartition w := ((F.nextUpdatePartition w.1).1, ((F.nextUpdatePartition w.1).2, w.2))
  otaBegin partition size w :=
    ((F.otaBegin partition size w.1).1, ((F.otaBegin partition size w.1).2,
      w.2 ++ [.otaBegin partition size (F.otaBegin partition size w.1).1.1 (F.otaBegin partition size w.1).1.2]))
  otaWrite handle bytes w :=
    ((F.otaWrite handle bytes w.1).1, ((F.otaWrite handle bytes w.1).2,
      w.2 ++ [.otaWrite handle bytes (F.otaWrite handle bytes w.1).1]))
  otaAbort handle w :=
    ((F.otaAbort handle w.1).1, ((F.otaAbort handle w.1).2, w.2 ++ [.otaAbort handle (F.otaAbort handle w.1).1]))
  otaEnd handle w :=
    ((F.otaEnd handle w.1).1, ((F.otaEnd handle w.1).2, w.2 ++ [.otaEnd handle (F.otaEnd handle w.1).1]))
  setBootPartition partition w :=
    ((F.setBootPartition partition w.1).1, ((F.setBootPartition partition w.1).2,
      w.2 ++ [.setBootPartition partition (F.setBootPartition partition w.1).1]))
  restart w := (F.restart w.1, w.2 ++ [.restart])
  progress written total w := (F.progress written total w.1, w.2 ++ [.progress written total])

/-! ### The trial of an image -/

inductive BootValidationState where
  | notPending
  | pending
  | validated
  deriving DecidableEq

namespace BootValidationState

def observePartition (pending : Bool) : BootValidationState := if pending then .pending else .notPending

def markValidOnceWith (mark : φ → EspErr × φ) (state : BootValidationState) (f : φ) :
    EspErr × BootValidationState × φ :=
  if state ≠ .pending then (espOk, state, f)
  else
    match mark f with
    | (ret, f') => (ret, if ret = espOk then .validated else state, f')

end BootValidationState

/-- What the running partition says of a trial, if there is one. -/
def isPending : Option (EspErr × UInt32) → Bool
  | none => false
  | some (ret, state) => ret == espOk && state == imgPendingVerify

def otaInit (F : Esp π φ) (f : φ) : EspErr × BootValidationState × φ :=
  match F.runningState f with
  | (answer, f') => (espOk, .observePartition (isPending answer), f')

def otaMarkValid (F : Esp π φ) (state : BootValidationState) (f : φ) : EspErr × BootValidationState × φ :=
  state.markValidOnceWith F.markAppValid f

/-! ### Updates -/

/-- What the card holds, as far as it can be read: the opened image, its size and its signature. -/
structure Card (σ : Type) where
  file : Option σ
  size : Option ℕ
  signature : Option (List UInt8)

/-- A call that works restarts the device. -/
inductive Ended where
  | returned (code : EspErr)
  | restarted
  deriving DecidableEq

section Apply

variable (F : Esp π φ)

/-- What is verified goes to the partition; the bytes written so far are counted for the callback, if there is one. -/
def writeSink (callback : Bool) (handle : UInt32) (size : ℕ) : Sink (UInt32 × φ) EspErr where
  take chunk t :=
    match F.otaWrite handle chunk t.2 with
    | (ret, f) =>
      if ret ≠ espOk then (.error ret, (t.1, f))
      else
        let written := t.1 + .ofNat chunk.length
        (.ok (), (written, if callback then F.progress written (.ofNat size) f else f))

/-- An image that is written: the update is closed, and the device boots from it. -/
def closeUpdate (partition : π) (handle : UInt32) (f : φ) : Ended × φ :=
  match F.otaEnd handle f with
  | (ret, f') =>
    if ret ≠ espOk then (.returned ret, f')
    else
      match F.setBootPartition partition f' with
      | (ret, f'') => if ret ≠ espOk then (.returned ret, f'') else (.restarted, F.restart f'')

variable (E : Ed25519 κ ν) (R : Reader σ ε)

/-- An update that has begun. -/
def streamUpdate (key : Option κ) (callback : Bool) (partition : π) (handle : UInt32) (size : ℕ)
    (signature : List UInt8) (file : σ) (f : φ) : Ended × φ :=
  match verifyExactReaderWith E R (writeSink F callback handle size) key size signature file (0, f) with
  | (.error error, t) => (.returned error, (F.otaAbort handle t.2).2)
  | (.ok (), t) => closeUpdate F partition handle t.2

def otaApplyFromSd (key : Option κ) (callback : Bool) (card : Card σ) (f : φ) : Ended × φ :=
  match card.file, card.size with
  | none, _ => (.returned espErrNotFound, f)
  | some _, none => (.returned espErrNotFound, f)
  | some file, some size =>
    if size = 0 then (.returned espErrInvalidSize, f)
    else if maxOtaSize < size then (.returned espErrInvalidSize, f)
    else
      match card.signature with
      | none => (.returned espErrNotFound, f)
      | some signature =>
        if signature.length ≠ signatureSize then (.returned espErrInvalidSize, f)
        else
          match F.nextUpdatePartition f with
          | (none, f') => (.returned espErrNotFound, f')
          | (some partition, f') =>
            match F.otaBegin partition size f' with
            | ((ret, handle), f'') =>
              if ret ≠ espOk then (.returned ret, f'')
              else streamUpdate F E R key callback partition handle size signature file f''

def otaRollback (f : φ) : Ended × φ :=
  match F.markAppInvalid f with
  | (some ret, f') => (.returned ret, f')
  | (none, f') => (.restarted, f')

end Apply

/-! ### The device -/

/-- The calls of the kernel; the key is there once it has been loaded. The power may be lost between them. -/
inductive Op (σ : Type) where
  | init
  | applyFromSd (keyLoaded callback : Bool) (card : Card σ)
  | markValid
  | rollback
  | powerLoss

/-- A restart forgets what has been observed of the running partition. -/
def afterwards (state : BootValidationState) : Ended → BootValidationState
  | .returned _ => state
  | .restarted => .notPending

def perform (E : Ed25519 κ ν) (key : κ) (R : Reader σ ε) (F : Esp π φ) (o : Op σ) (state : BootValidationState)
    (f : φ) : Ended × BootValidationState × φ :=
  match o with
  | .init => ((.returned (otaInit F f).1), (otaInit F f).2)
  | .applyFromSd keyLoaded callback card =>
    match otaApplyFromSd F E R (if keyLoaded then some key else none) callback card f with
    | (ended, f') => (ended, afterwards state ended, f')
  | .markValid => ((.returned (otaMarkValid F state f).1), (otaMarkValid F state f).2)
  | .rollback =>
    match otaRollback F f with
    | (ended, f') => (ended, afterwards state ended, f')
  | .powerLoss => (.restarted, .notPending, F.restart f)

/-- The device, which answers with the calls of ESP-IDF that an operation makes. -/
def device (E : Ed25519 κ ν) (key : κ) (R : Reader σ ε) (F : Esp π φ) :
    Component (Op σ) (fun _ => Ended × List (Call π)) (BootValidationState × φ) where
  step o s :=
    match perform E key R F.logged o s.1 (s.2, []) with
    | (ended, state, f, calls) => ((ended, calls), (state, f))

end ThistleOS.Ota
