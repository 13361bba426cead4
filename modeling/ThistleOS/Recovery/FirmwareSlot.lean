import ThistleOS.EspErr
import ThistleOS.Reader
import ThistleOS.Recovery.BoardBundle

/-!
# The firmware slot

An image is read in chunks, hashed and written to the update partition. The flash and the hash are parameters: the
flash answers each call as it likes, and the hash of chunks is that of all their bytes.
-/

namespace ThistleOS.FirmwareSlot

open BoardBundle (hexLower)

/-- `sha2::Sha256`: a hash that has begun is of type `η`. -/
structure Sha256 (η : Type) where
  digest : List UInt8 → List UInt8
  new : η
  update : η → List UInt8 → η
  finalize : η → List UInt8
  stream : ∀ chunks : List (List UInt8), finalize (chunks.foldl update new) = digest chunks.flatten

/-- The calls of ESP-IDF that write an image; a begin also answers with a handle. -/
structure Flash (φ : Type) where
  nextUpdatePartition : φ → Bool × φ
  otaBegin : (total : ℕ) → φ → (EspErr × UInt32) × φ
  otaWrite : (handle : UInt32) → List UInt8 → φ → EspErr × φ
  otaAbort : (handle : UInt32) → φ → EspErr × φ
  otaEnd : (handle : UInt32) → φ → EspErr × φ

/-- The calls with their answers. -/
inductive FlashCall where
  | otaBegin (total : ℕ) (ret : EspErr) (handle : UInt32)
  | otaWrite (handle : UInt32) (bytes : List UInt8) (ret : EspErr)
  | otaAbort (handle : UInt32) (ret : EspErr)
  | otaEnd (handle : UInt32) (ret : EspErr)
  deriving DecidableEq

inductive FirmwareError (ε : Type) where
  | invalidSize (total : ℕ)
  | invalidSha256
  | noPartition
  | beginFailed (ret : EspErr)
  | readFailed (offset : ℕ) (error : ε)
  | ended (offset total : ℕ)
  | writeFailed (offset : ℕ) (ret : EspErr)
  | digestMismatch (expected actual : String)
  | endFailed (ret : EspErr)

variable {σ ε φ η : Type}

/-- The messages of the errors; `display` shows those of the reader. -/
def FirmwareError.message (display : ε → String) : FirmwareError ε → String
  | invalidSize total => "Invalid firmware size: " ++ toString total ++ " bytes"
  | invalidSha256 => "Invalid signed firmware SHA-256"
  | noPartition => "No OTA update partition"
  | beginFailed ret => "esp_ota_begin failed: " ++ toString ret
  | readFailed offset error => "Firmware read failed at offset " ++ toString offset ++ ": " ++ display error
  | ended offset total => "Firmware ended at " ++ toString offset ++ " of " ++ toString total ++ " bytes"
  | writeFailed offset ret => "esp_ota_write failed at offset " ++ toString offset ++ ": " ++ toString ret
  | digestMismatch expected actual =>
    "Flashed firmware digest mismatch: expected " ++ expected ++ ", got " ++ actual
  | endFailed ret => "esp_ota_end failed: " ++ toString ret

def maxFirmwareSize : ℕ := 4 * 1024 * 1024

def chunkSize : ℕ := 4096

/-- A flash that keeps a log of its calls. -/
def Flash.logged (F : Flash φ) : Flash (φ × List FlashCall) where
  nextUpdatePartition w := ((F.nextUpdatePartition w.1).1, ((F.nextUpdatePartition w.1).2, w.2))
  otaBegin total w :=
    ((F.otaBegin total w.1).1, ((F.otaBegin total w.1).2,
      w.2 ++ [.otaBegin total (F.otaBegin total w.1).1.1 (F.otaBegin total w.1).1.2]))
  otaWrite handle bytes w :=
    ((F.otaWrite handle bytes w.1).1, ((F.otaWrite handle bytes w.1).2,
      w.2 ++ [.otaWrite handle bytes (F.otaWrite handle bytes w.1).1]))
  otaAbort handle w :=
    ((F.otaAbort handle w.1).1, ((F.otaAbort handle w.1).2, w.2 ++ [.otaAbort handle (F.otaAbort handle w.1).1]))
  otaEnd handle w :=
    ((F.otaEnd handle w.1).1, ((F.otaEnd handle w.1).2, w.2 ++ [.otaEnd handle (F.otaEnd handle w.1).1]))

section Write

variable (H : Sha256 η) (F : Flash φ) (R : Reader σ ε)

/-- Each chunk is hashed and then written; what stops the loop aborts the update. -/
def writeLoop (handle : UInt32) (total written : ℕ) (s : σ) (hasher : η) (f : φ) :
    Except (FirmwareError ε) η × σ × φ :=
  if hmore : written < total then
    match R.read (min chunkSize (total - written)) s with
    | (.error e, s') => (.error (.readFailed written e), s', (F.otaAbort handle f).2)
    | (.ok chunk, s') =>
      if hchunk : chunk = [] then (.error (.ended written total), s', (F.otaAbort handle f).2)
      else
        match F.otaWrite handle chunk f with
        | (ret, f') =>
          if ret ≠ espOk then (.error (.writeFailed written ret), s', (F.otaAbort handle f').2)
          else writeLoop handle total (written + chunk.length) s' (H.update hasher chunk) f'
  else (.ok hasher, s, f)
termination_by total - written
decreasing_by
  have hpos := List.length_pos_iff.mpr hchunk
  omega

/-- An update that has begun: what is read is written, checked and closed. -/
def writeImage (handle : UInt32) (total : ℕ) (expectedSha256 : String) (s : σ) (f : φ) :
    Except (FirmwareError ε) Unit × σ × φ :=
  match writeLoop H F R handle total 0 s H.new f with
  | (.error e, s', f') => (.error e, s', f')
  | (.ok hasher, s', f') =>
    let actualSha256 := hexLower (H.finalize hasher)
    if actualSha256 ≠ expectedSha256 then
      (.error (.digestMismatch expectedSha256 actualSha256), s', (F.otaAbort handle f').2)
    else
      match F.otaEnd handle f' with
      | (ret, f'') => if ret ≠ espOk then (.error (.endFailed ret), s', f'') else (.ok (), s', f'')

def writeOta1Reader (total : ℕ) (expectedSha256 : String) (s : σ) (f : φ) : Except (FirmwareError ε) Unit × σ × φ :=
  if total = 0 ∨ maxFirmwareSize < total then (.error (.invalidSize total), s, f)
  else if !isSha256Hex expectedSha256 then (.error .invalidSha256, s, f)
  else
    match F.nextUpdatePartition f with
    | (false, f') => (.error .noPartition, s, f')
    | (true, f') =>
      match F.otaBegin total f' with
      | ((ret, handle), f'') =>
        if ret ≠ espOk then (.error (.beginFailed ret), s, f'')
        else writeImage H F R handle total expectedSha256 s f''

end Write

end ThistleOS.FirmwareSlot
