import ThistleOS.Recovery.FirmwareSlot

/-!
# What is written to the firmware slot

An update that succeeds has written exactly the bytes that were read, and an update that has begun is closed exactly
once, by its last call.
-/

namespace ThistleOS.FirmwareSlot

open BoardBundle (hexLower)

variable {σ ε φ η : Type} {H : Sha256 η} {F : Flash φ} {R : Reader σ ε} {handle : UInt32} {total written : ℕ}
  {w w' : σ × List UInt8} {hasher : η} {f f' : φ × List FlashCall} {chunk : List UInt8}

/-- The handle that a call ends. -/
def FlashCall.ends : FlashCall → Option UInt32
  | .otaAbort handle _ => some handle
  | .otaEnd handle _ => some handle
  | _ => none

def FlashCall.IsWrite (handle : UInt32) (c : FlashCall) : Prop := ∃ bytes ret, c = .otaWrite handle bytes ret

/-- The calls that write some chunks. -/
def writes (handle : UInt32) (chunks : List (List UInt8)) : List FlashCall :=
  chunks.map fun chunk => .otaWrite handle chunk espOk

/-- An update that has begun is ended by the last call and by no other. -/
def EndsOnce (calls : List FlashCall) : Prop :=
  ∀ total handle, .otaBegin total espOk handle ∈ calls →
    ∃ before last, calls = before ++ [last] ∧ last.ends = some handle ∧ ∀ c ∈ before, c.ends = none

/-- What the loop can come to from some point on: it aborts the update after some writes, or it has written what it
has read up to the size of the image. -/
inductive LoopRun (H : Sha256 η) (handle : UInt32) (total written : ℕ) (w : σ × List UInt8) (hasher : η)
    (calls : List FlashCall) : Except (FirmwareError ε) η × (σ × List UInt8) × (φ × List FlashCall) → Prop
  | failed (e : FirmwareError ε) (w' : σ × List UInt8) (f : φ) (ret : EspErr) (more : List FlashCall)
    (hmore : ∀ c ∈ more, c.IsWrite handle) :
    LoopRun H handle total written w hasher calls (.error e, w', (f, calls ++ more ++ [.otaAbort handle ret]))
  | full (s : σ) (f : φ) (chunks : List (List UInt8)) (hsize : written + chunks.flatten.length = total) :
    LoopRun H handle total written w hasher calls
      (.ok (chunks.foldl H.update hasher), (s, w.2 ++ chunks.flatten), (f, calls ++ writes handle chunks))

/-- A chunk before what the loop comes to. -/
lemma LoopRun.cons {calls : List FlashCall} {r : Except (FirmwareError ε) η × (σ × List UInt8) × (φ × List FlashCall)}
    (hread : w'.2 = w.2 ++ chunk)
    (h : LoopRun H handle total (written + chunk.length) w' (H.update hasher chunk)
      (calls ++ [.otaWrite handle chunk espOk]) r) :
    LoopRun H handle total written w hasher calls r := by
  cases h with
  | failed e w'' f ret more hmore =>
    rw [List.append_assoc calls]
    refine .failed e w'' f ret _ fun c hc => ?_
    rcases List.mem_append.mp hc with hc | hc
    · exact ⟨chunk, espOk, List.mem_singleton.mp hc⟩
    · exact hmore c hc
  | full s f chunks hsize =>
    rw [hread, List.append_assoc, List.append_assoc]
    refine .full s f (chunk :: chunks) ?_
    rw [List.flatten_cons, List.length_append, ← Nat.add_assoc, hsize]

lemma logged_otaWrite {ret : EspErr} (h : F.logged.otaWrite handle chunk f = (ret, f')) :
    f'.2 = f.2 ++ [.otaWrite handle chunk ret] := by
  obtain ⟨rfl, rfl⟩ := Prod.mk.inj h
  rfl

/-- What is aborted after some writes. -/
lemma LoopRun.aborted (e : FirmwareError ε) (more : List FlashCall) (hmore : ∀ c ∈ more, c.IsWrite handle)
    {calls : List FlashCall} (hcalls : f.2 = calls ++ more) :
    LoopRun H handle total written w hasher calls (.error e, w', (F.logged.otaAbort handle f).2) := by
  show LoopRun H handle total written w hasher calls
    (.error e, w', ((F.otaAbort handle f.1).2, f.2 ++ [.otaAbort handle (F.otaAbort handle f.1).1]))
  rw [hcalls]
  exact .failed e w' _ _ more hmore

lemma LoopRun.done (w : σ × List UInt8) (hasher : η) (f : φ × List FlashCall) :
    LoopRun (ε := ε) H handle total total w hasher f.2 (.ok hasher, w, f) := by
  have hfull : LoopRun (ε := ε) H handle total total w hasher f.2
      (.ok hasher, (w.1, w.2 ++ []), (f.1, f.2 ++ [])) := .full w.1 f.1 [] rfl
  rwa [List.append_nil, List.append_nil] at hfull

lemma writeLoop_run (H : Sha256 η) (F : Flash φ) (R : Reader σ ε) (handle : UInt32) (total written : ℕ)
    (w : σ × List UInt8) (hasher : η) (f : φ × List FlashCall) (hle : written ≤ total) :
    LoopRun H handle total written w hasher f.2 (writeLoop H F.logged R.logged handle total written w hasher f) := by
  fun_induction writeLoop H F.logged R.logged handle total written w hasher f with
  | case1 written w hasher f hmore e w' hread => exact .aborted _ [] (by simp) (List.append_nil _).symm
  | case2 written w hasher f hmore w' hread => exact .aborted _ [] (by simp) (List.append_nil _).symm
  | case3 written w hasher f hmore chunk w' hread hne ret f' hwrite hret =>
    refine .aborted _ [.otaWrite handle chunk ret] (fun c hc => ?_) (logged_otaWrite hwrite)
    exact ⟨chunk, ret, List.mem_singleton.mp hc⟩
  | case4 written w hasher f hmore chunk w' hread hne ret f' hwrite hret ih =>
    have hlength := R.logged.length_le (congrArg Prod.fst hread)
    have hrest := ih (by omega)
    rw [logged_otaWrite hwrite, not_not.mp hret] at hrest
    exact hrest.cons (R.logged_ok hread)
  | case5 written w hasher f hmore =>
    obtain rfl := Nat.le_antisymm hle (Nat.le_of_not_lt hmore)
    exact .done w hasher f

/-! ### Updates -/

/-- What an update that has begun with some calls comes to. -/
inductive ImageRun (H : Sha256 η) (handle : UInt32) (total : ℕ) (expectedSha256 : String) (w : σ × List UInt8)
    (calls : List FlashCall) : Except (FirmwareError ε) Unit × (σ × List UInt8) × (φ × List FlashCall) → Prop
  | failed (e : FirmwareError ε) (w' : σ × List UInt8) (f : φ) (last : FlashCall) (more : List FlashCall)
    (hmore : ∀ c ∈ more, c.IsWrite handle) (hlast : last.ends = some handle) :
    ImageRun H handle total expectedSha256 w calls (.error e, w', (f, calls ++ more ++ [last]))
  | full (s : σ) (f : φ) (chunks : List (List UInt8)) (hsize : chunks.flatten.length = total)
    (hdigest : hexLower (H.digest chunks.flatten) = expectedSha256) :
    ImageRun H handle total expectedSha256 w calls
      (.ok (), (s, w.2 ++ chunks.flatten), (f, calls ++ writes handle chunks ++ [.otaEnd handle espOk]))

lemma isWrite_of_mem_writes {chunks : List (List UInt8)} {c : FlashCall} (h : c ∈ writes handle chunks) :
    c.IsWrite handle := by
  obtain ⟨chunk, -, rfl⟩ := List.mem_map.mp h
  exact ⟨chunk, espOk, rfl⟩

lemma writeImage_run (H : Sha256 η) (F : Flash φ) (R : Reader σ ε) (handle : UInt32) (total : ℕ)
    (expectedSha256 : String) (w : σ × List UInt8) (f : φ × List FlashCall) :
    ImageRun H handle total expectedSha256 w f.2
      (writeImage H F.logged R.logged handle total expectedSha256 w f) := by
  rw [writeImage]
  have hloop := writeLoop_run H F R handle total 0 w H.new f (Nat.zero_le _)
  generalize writeLoop H F.logged R.logged handle total 0 w H.new f = r at hloop
  cases hloop with
  | failed e w' f' ret more hmore => exact .failed e w' f' _ more hmore rfl
  | full s f' chunks hsize =>
    rw [Nat.zero_add] at hsize
    simp only [H.stream]
    split_ifs with hdigest hend
    · exact .failed _ _ _ (.otaAbort handle _) _ (fun c => isWrite_of_mem_writes) rfl
    · exact .failed _ _ _ (.otaEnd handle _) _ (fun c => isWrite_of_mem_writes) rfl
    · have hret : (F.otaEnd handle f').1 = espOk := not_not.mp hend
      have hfull : ImageRun (ε := ε) H handle total expectedSha256 w f.2 (.ok (), (s, w.2 ++ chunks.flatten),
        ((F.otaEnd handle f').2, f.2 ++ writes handle chunks ++ [.otaEnd handle espOk])) :=
        .full s _ chunks hsize (not_not.mp hdigest)
      rwa [← hret] at hfull

lemma ends_of_isWrite {c : FlashCall} (h : c.IsWrite handle) : c.ends = none := by
  obtain ⟨bytes, ret, rfl⟩ := h
  rfl

lemma endsOnce_of_begin {calls : List FlashCall} {last : FlashCall} (hcalls : ∀ c ∈ calls, c.IsWrite handle)
    (hlast : last.ends = some handle) : EndsOnce ([.otaBegin total espOk handle] ++ calls ++ [last]) := by
  intro total' handle' hbegin
  have hmem : FlashCall.otaBegin total' espOk handle' ∈ [FlashCall.otaBegin total espOk handle] := by
    rcases List.mem_append.mp hbegin with hbegin | hbegin
    · rcases List.mem_append.mp hbegin with hbegin | hbegin
      · exact hbegin
      · obtain ⟨bytes, ret, h⟩ := hcalls _ hbegin
        cases h
    · rw [← List.mem_singleton.mp hbegin] at hlast
      cases hlast
  obtain ⟨-, -, rfl⟩ := FlashCall.otaBegin.inj (List.mem_singleton.mp hmem)
  refine ⟨_, last, rfl, hlast, fun c hc => ?_⟩
  rcases List.mem_append.mp hc with hc | hc
  · rw [List.mem_singleton.mp hc]
    rfl
  · exact ends_of_isWrite (hcalls c hc)

/-- What is written when the update succeeds. -/
def Written (H : Sha256 η) (total : ℕ) (expectedSha256 : String) (bytes : List UInt8) (calls : List FlashCall) : Prop :=
  ∃ handle chunks, calls = [.otaBegin total espOk handle] ++ writes handle chunks ++ [.otaEnd handle espOk] ∧
    chunks.flatten = bytes ∧ bytes.length = total ∧ hexLower (H.digest bytes) = expectedSha256

end ThistleOS.FirmwareSlot
