import ThistleOS.Kernel.Ota

/-!
# What an update may do

The calls of ESP-IDF follow a protocol: an update that has begun is written in order and is closed or aborted once,
and only an image that is written completely and is signed is booted from. An image on trial is marked valid at most
once in a boot.
-/

open ThistleOS.Signing (Ed25519 signatureSize verifyLoop verifyExactReaderWith bufferSize)

namespace ThistleOS.Ota

variable {π φ σ ε κ ν : Type}

/-- An image of the declared size with a good signature. -/
def Signed (E : Ed25519 κ ν) (key : κ) (size : ℕ) (image : List UInt8) : Prop :=
  image.length = size ∧ 0 < size ∧ size ≤ maxOtaSize ∧
    ∃ signature : List UInt8, signature.length = signatureSize ∧ E.verify key image signature = true

/-- What the inactive partition is in for. -/
inductive Phase (π : Type) where
  | idle
  | writing (partition : π) (handle : UInt32) (size : ℕ) (bytes : List UInt8)
  | broken (handle : UInt32)
  | complete (partition : π)
  | selected

structure Slot (π : Type) where
  phase : Phase π
  onTrial : Bool

/-- A call of an update that is going on. -/
inductive Goes (Image : ℕ → List UInt8 → Prop) : Phase π → Call π → Phase π → Prop
  | begin (partition : π) (size : ℕ) (handle : UInt32) :
    Goes Image .idle (.otaBegin partition size espOk handle) (.writing partition handle size [])
  | beginFailed {partition : π} {size : ℕ} {ret : EspErr} {handle : UInt32} (h : ret ≠ espOk) :
    Goes Image .idle (.otaBegin partition size ret handle) .idle
  | write {partition : π} {handle : UInt32} {size : ℕ} {bytes chunk : List UInt8}
    (h : (bytes ++ chunk).length ≤ size) : Goes Image (.writing partition handle size bytes)
      (.otaWrite handle chunk espOk) (.writing partition handle size (bytes ++ chunk))
  | progress {partition : π} {handle : UInt32} {size : ℕ} {bytes : List UInt8} : Goes Image
      (.writing partition handle size bytes) (.progress (.ofNat bytes.length) (.ofNat size))
      (.writing partition handle size bytes)
  | writeFailed {partition : π} {handle : UInt32} {size : ℕ} {bytes chunk : List UInt8} {ret : EspErr}
    (h : ret ≠ espOk) : Goes Image (.writing partition handle size bytes) (.otaWrite handle chunk ret) (.broken handle)
  | abort {partition : π} {handle : UInt32} {size : ℕ} {bytes : List UInt8} {ret : EspErr} :
    Goes Image (.writing partition handle size bytes) (.otaAbort handle ret) .idle
  | abortBroken {handle : UInt32} {ret : EspErr} : Goes Image (.broken handle) (.otaAbort handle ret) .idle
  | close {partition : π} {handle : UInt32} {size : ℕ} {bytes : List UInt8} (h : Image size bytes) :
    Goes Image (.writing partition handle size bytes) (.otaEnd handle espOk) (.complete partition)
  | closeFailed {partition : π} {handle : UInt32} {size : ℕ} {bytes : List UInt8} {ret : EspErr} (h : ret ≠ espOk) :
    Goes Image (.writing partition handle size bytes) (.otaEnd handle ret) .idle
  | select {partition : π} : Goes Image (.complete partition) (.setBootPartition partition espOk) .selected
  | selectFailed {partition : π} {ret : EspErr} (h : ret ≠ espOk) :
    Goes Image (.complete partition) (.setBootPartition partition ret) .idle

/-- A call of the device. What concerns the trial of the running image does not come in the middle of an update. -/
inductive Calls (Image : ℕ → List UInt8 → Prop) : Slot π → Call π → Slot π → Prop
  | update {phase phase' : Phase π} {c : Call π} {onTrial : Bool} (h : Goes Image phase c phase') :
    Calls Image ⟨phase, onTrial⟩ c ⟨phase', onTrial⟩
  | restart {phase : Phase π} {onTrial : Bool} (h : phase = .idle ∨ phase = .selected) :
    Calls Image ⟨phase, onTrial⟩ .restart ⟨.idle, false⟩
  | observe {onTrial : Bool} (answer : Option (EspErr × UInt32)) :
    Calls Image ⟨.idle, onTrial⟩ (.runningState answer) ⟨.idle, isPending answer⟩
  | markValid (ret : EspErr) : Calls Image ⟨.idle, true⟩ (.markAppValid ret) ⟨.idle, ret != espOk⟩
  | rollBack {onTrial : Bool} : Calls Image ⟨.idle, onTrial⟩ (.markAppInvalid none) ⟨.idle, false⟩
  | rollBackFailed {onTrial : Bool} (ret : EspErr) :
    Calls Image ⟨.idle, onTrial⟩ (.markAppInvalid (some ret)) ⟨.idle, onTrial⟩

def otaProtocol (π : Type) (Image : ℕ → List UInt8 → Prop) : Protocol (Slot π) (Call π) := ⟨Calls Image⟩

section Trace

variable {Image : ℕ → List UInt8 → Prop} {partition : π} {handle : UInt32} {size : ℕ} {bytes : List UInt8}
  {calls before : List (Call π)} {c : Call π} {q q' : Slot π}

/-- The bytes that a call writes. -/
def Call.written : Call π → List UInt8
  | .otaWrite _ bytes _ => bytes
  | _ => []

/-- A call that writes to the handle, or tells the progress. -/
def Call.Writes (handle : UInt32) (c : Call π) : Prop :=
  (∃ bytes, c = .otaWrite handle bytes espOk) ∨ ∃ written total, c = .progress written total

/-- The last calls have begun an update of the partition and have written the bytes to it. -/
def Begun (partition : π) (handle : UInt32) (size : ℕ) (bytes : List UInt8) (calls : List (Call π)) : Prop :=
  ∃ earlier writes, calls = earlier ++ .otaBegin partition size espOk handle :: writes ∧
    (∀ c ∈ writes, c.Writes handle) ∧ writes.flatMap Call.written = bytes

/-- The last calls have written an image to the partition from its beginning to its end. -/
def Installed (Image : ℕ → List UInt8 → Prop) (partition : π) (calls : List (Call π)) : Prop :=
  ∃ begun handle size bytes, calls = begun ++ [.otaEnd handle espOk] ∧ Begun partition handle size bytes begun ∧
    Image size bytes

/-- What the phase says of the calls that have led to it. -/
def Phase.Describes (Image : ℕ → List UInt8 → Prop) (calls : List (Call π)) : Phase π → Prop
  | .writing partition handle size bytes => Begun partition handle size bytes calls
  | .complete partition => Installed Image partition calls
  | _ => True

lemma Begun.snoc {bytes' : List UInt8} (h : Begun partition handle size bytes calls) (hc : c.Writes handle)
    (hbytes : bytes' = bytes ++ c.written) : Begun partition handle size bytes' (calls ++ [c]) := by
  obtain ⟨earlier, writes, rfl, hwrites, rfl⟩ := h
  refine ⟨earlier, writes ++ [c], by rw [List.append_assoc, List.cons_append], fun c' hc' => ?_, ?_⟩
  · rcases List.mem_append.mp hc' with hc' | hc'
    · exact hwrites c' hc'
    · rwa [List.mem_singleton.mp hc']
  · rw [List.flatMap_append, List.flatMap_singleton, hbytes]

lemma Goes.describes {phase phase' : Phase π} (hc : Goes Image phase c phase') (h : phase.Describes Image before) :
    phase'.Describes Image (before ++ [c]) := by
  cases hc with
  | begin partition size handle => exact ⟨before, [], rfl, fun _ h => absurd h List.not_mem_nil, rfl⟩
  | write hle => exact Begun.snoc h (.inl ⟨_, rfl⟩) rfl
  | progress => exact Begun.snoc h (.inr ⟨_, _, rfl⟩) (List.append_nil _).symm
  | close himage => exact ⟨before, _, _, _, rfl, h, himage⟩
  | beginFailed h => trivial
  | writeFailed h => trivial
  | abort => trivial
  | abortBroken => trivial
  | closeFailed h => trivial
  | select => trivial
  | selectFailed h => trivial

lemma Calls.describes (hc : Calls Image q c q') (h : q.phase.Describes Image before) :
    q'.phase.Describes Image (before ++ [c]) := by
  cases hc with
  | update hc => exact hc.describes h
  | restart h => trivial
  | observe answer => trivial
  | markValid ret => trivial
  | rollBack => trivial
  | rollBackFailed ret => trivial

/-- In a run of the protocol, a partition is booted from right after an image has been written to it. -/
lemma installed_of_run {ret : EspErr} {after : List (Call π)} (hq : q.phase = .idle)
    (h : (otaProtocol π Image).Run q (before ++ .setBootPartition partition ret :: after) q') :
    Installed Image partition before := by
  obtain ⟨q₁, hbefore, hrest⟩ := Protocol.run_append.mp h
  have hdescribes : q₁.phase.Describes Image ([] ++ before) :=
    Protocol.Run.invariant (I := fun calls q => q.phase.Describes Image calls) (fun h hc => Calls.describes hc h)
      hbefore (by rw [hq]; trivial)
  rw [List.nil_append] at hdescribes
  cases hrest with
  | cons hc _ =>
    cases hc with
    | update hc =>
      cases hc with
      | select => exact hdescribes
      | selectFailed h => exact hdescribes

end Trace

/-! ### The writing of an image -/

section Write

variable {Image : ℕ → List UInt8 → Prop} {E : Ed25519 κ ν} {R : Reader σ ε} {F : Esp π φ} {callback onTrial : Bool}
  {partition : π} {handle : UInt32} {size : ℕ} {bytes chunk : List UInt8} {t t' : UInt32 × φ × List (Call π)}

/-- The calls of an operation so far have led to a phase. -/
def Reached (Image : ℕ → List UInt8 → Prop) (onTrial : Bool) (calls : List (Call π)) (phase : Phase π) : Prop :=
  (otaProtocol π Image).Run ⟨.idle, onTrial⟩ calls ⟨phase, onTrial⟩

/-- An update that has written some bytes and has counted them. -/
structure Writing (Image : ℕ → List UInt8 → Prop) (onTrial : Bool) (partition : π) (handle : UInt32) (size : ℕ)
    (bytes : List UInt8) (t : UInt32 × φ × List (Call π)) : Prop where
  reached : Reached Image onTrial t.2.2 (.writing partition handle size bytes)
  written : t.1 = .ofNat bytes.length

/-- An update that can be aborted. -/
def Open (Image : ℕ → List UInt8 → Prop) (onTrial : Bool) (handle : UInt32) (t : UInt32 × φ × List (Call π)) : Prop :=
  ∀ ret, Reached Image onTrial (t.2.2 ++ [.otaAbort handle ret]) .idle

lemma Reached.snoc {calls : List (Call π)} {phase phase' : Phase π} {c : Call π} (h : Reached Image onTrial calls phase)
    (hc : Goes Image phase c phase') : Reached Image onTrial (calls ++ [c]) phase' :=
  Protocol.Run.snoc h (.update hc)

lemma Writing.isOpen (h : Writing Image onTrial partition handle size bytes t) : Open Image onTrial handle t :=
  fun _ => h.reached.snoc .abort

/-- A chunk that the sink takes or refuses. -/
lemma Writing.take (h : Writing Image onTrial partition handle size bytes t) (hle : (bytes ++ chunk).length ≤ size)
    {r : Except EspErr Unit} (htake : (writeSink F.logged callback handle size).take chunk t = (r, t')) :
    (∀ e, r = .error e → Open Image onTrial handle t') ∧
      (r = .ok () → Writing Image onTrial partition handle size (bytes ++ chunk) t') := by
  have hwrite : F.logged.otaWrite handle chunk t.2 = ((F.otaWrite handle chunk t.2.1).1,
    ((F.otaWrite handle chunk t.2.1).2, t.2.2 ++ [.otaWrite handle chunk (F.otaWrite handle chunk t.2.1).1])) := rfl
  have hcount : t.1 + .ofNat chunk.length = .ofNat (bytes ++ chunk).length := by
    rw [h.written, List.length_append, UInt32.ofNat_add]
  simp only [writeSink, hwrite, hcount] at htake
  generalize F.otaWrite handle chunk t.2.1 = answer at htake
  split_ifs at htake with hret hcallback
  · obtain ⟨rfl, rfl⟩ := Prod.mk.inj htake
    exact ⟨fun _ _ _ => (h.reached.snoc (.writeFailed hret)).snoc .abortBroken, fun h => (nomatch h)⟩
  · obtain ⟨rfl, rfl⟩ := Prod.mk.inj htake
    refine ⟨fun _ h => (nomatch h), fun _ => ?_⟩
    rw [not_not.mp hret]
    exact ⟨(h.reached.snoc (.write hle)).snoc .progress, rfl⟩
  · obtain ⟨rfl, rfl⟩ := Prod.mk.inj htake
    refine ⟨fun _ h => (nomatch h), fun _ => ?_⟩
    rw [not_not.mp hret]
    exact ⟨h.reached.snoc (.write hle), rfl⟩

/-- What the loop can come to: an update that can be aborted, or one that has written as many bytes as declared. -/
inductive LoopEnds (Image : ℕ → List UInt8 → Prop) (E : Ed25519 κ ν) (onTrial : Bool) (partition : π)
    (handle : UInt32) (size : ℕ) (v : ν) : Except EspErr (σ × ν) × (UInt32 × φ × List (Call π)) → Prop
  | stopped (e : EspErr) (t : UInt32 × φ × List (Call π)) (h : Open Image onTrial handle t) :
    LoopEnds Image E onTrial partition handle size v (.error e, t)
  | full (s : σ) (t : UInt32 × φ × List (Call π)) (chunks : List (List UInt8))
    (h : Writing Image onTrial partition handle size chunks.flatten t) (hsize : chunks.flatten.length = size) :
    LoopEnds Image E onTrial partition handle size v (.ok (s, chunks.foldl E.update v), t)

lemma verifyLoop_ends (v : ν) (chunks : List (List UInt8)) (s : σ)
    (h : Writing Image onTrial partition handle size chunks.flatten t) (hle : chunks.flatten.length ≤ size) :
    LoopEnds Image E onTrial partition handle size v
      (verifyLoop E R (writeSink F.logged callback handle size) size chunks.flatten.length s
        (chunks.foldl E.update v) t) := by
  generalize hconsumed : chunks.flatten.length = consumed at hle
  generalize hv : chunks.foldl E.update v = v'
  fun_induction verifyLoop E R (writeSink F.logged callback handle size) size consumed s v' t generalizing chunks with
  | case1 consumed s v' t hmore e s' hread => exact .stopped _ t h.isOpen
  | case2 consumed s v' t hmore s' hread => exact .stopped _ t h.isOpen
  | case3 consumed s v' t hmore chunk s' hread hne e t' htake =>
    have hlength := R.length_le (congrArg Prod.fst hread)
    have hroom : (chunks.flatten ++ chunk).length ≤ size := by
      rw [List.length_append]
      omega
    exact .stopped _ t' ((h.take hroom htake).1 e rfl)
  | case4 consumed s v' t hmore chunk s' hread hne t' htake ih =>
    have hlength := R.length_le (congrArg Prod.fst hread)
    have hflatten : (chunks ++ [chunk]).flatten = chunks.flatten ++ chunk := by
      rw [List.flatten_append, List.flatten_singleton]
    have hroom : (chunks.flatten ++ chunk).length ≤ size := by
      rw [List.length_append]
      omega
    refine ih (chunks ++ [chunk]) ?_ ?_ ?_ ?_
    · rw [hflatten]
      exact (h.take hroom htake).2 rfl
    · rw [hflatten, List.length_append, hconsumed]
    · omega
    · rw [List.foldl_append, hv]
      rfl
  | case5 consumed s v' t hmore =>
    subst hv
    exact .full s t chunks h (hconsumed.trans (Nat.le_antisymm hle (Nat.le_of_not_lt hmore)))

/-- A verified update has written a signed image, and any other one can be aborted. -/
lemma verifyExactReaderWith_ends {key : κ} {loaded : Option κ} {signature : List UInt8} {file : σ}
    {r : Except EspErr Unit} (hloaded : ∀ k ∈ loaded, k = key) (hsize : 0 < size ∧ size ≤ maxOtaSize)
    (hsignature : signature.length = signatureSize) (h : Writing Image onTrial partition handle size [] t)
    (hr : verifyExactReaderWith E R (writeSink F.logged callback handle size) loaded size signature file t =
      (r, t')) :
    (∀ e, r = .error e → Open Image onTrial handle t') ∧
      (r = .ok () → ∃ image, Writing Image onTrial partition handle size image t' ∧ Signed E key size image) := by
  have hopen {e : EspErr} {u : UInt32 × φ × List (Call π)} (hu : Open Image onTrial handle u)
      (hr : (Except.error e, u) = (r, t')) : (∀ e, r = .error e → Open Image onTrial handle t') ∧
        (r = .ok () → ∃ image, Writing Image onTrial partition handle size image t' ∧ Signed E key size image) := by
    obtain ⟨rfl, rfl⟩ := Prod.mk.inj hr
    exact ⟨fun _ _ => hu, fun h => (nomatch h)⟩
  unfold verifyExactReaderWith at hr
  split_ifs at hr with hguard
  · exact hopen h.isOpen hr
  cases loaded with
  | none => exact hopen h.isOpen hr
  | some k =>
    obtain rfl := hloaded k rfl
    dsimp only at hr
    cases hstream : E.verifyStream k signature with
    | none =>
      rw [hstream] at hr
      exact hopen h.isOpen hr
    | some v =>
      rw [hstream] at hr
      dsimp only at hr
      have hends : LoopEnds Image E onTrial partition handle size v
          (verifyLoop E R (writeSink F.logged callback handle size) size 0 file v t) :=
        verifyLoop_ends v [] file h (Nat.zero_le _)
      generalize verifyLoop E R (writeSink F.logged callback handle size) size 0 file v t = u at hr hends
      cases hends with
      | stopped e u hu => exact hopen hu hr
      | full s u chunks hu hlength =>
        dsimp only at hr
        split at hr
        · exact hopen hu.isOpen hr
        · split_ifs at hr with hextra hgood
          · exact hopen hu.isOpen hr
          · obtain ⟨rfl, rfl⟩ := Prod.mk.inj hr
            refine ⟨fun _ h => (nomatch h), fun _ => ⟨_, hu, hlength, hsize.1, hsize.2, signature, hsignature, ?_⟩⟩
            rwa [E.stream chunks hstream] at hgood
          · exact hopen hu.isOpen hr

end Write

/-! ### The calls of the device -/

section Device

variable {E : Ed25519 κ ν} {key : κ} {R : Reader σ ε} {F : Esp π φ} {onTrial : Bool} {f : φ} {calls : List (Call π)}

/-- What an operation has come to: it returns with nothing begun, or the device has restarted. -/
def Rests (Image : ℕ → List UInt8 → Prop) (onTrial : Bool) (r : Ended × φ × List (Call π)) : Prop :=
  (otaProtocol π Image).Run ⟨.idle, onTrial⟩ r.2.2 ⟨.idle, onTrial && r.1 != .restarted⟩

lemma rests_returned {Image : ℕ → List UInt8 → Prop} {code : EspErr} {f : φ} {calls : List (Call π)}
    (h : Reached Image onTrial calls .idle) : Rests Image onTrial (.returned code, f, calls) := by
  have hcode : (onTrial && Ended.returned code != .restarted) = onTrial := by
    rw [bne_iff_ne.mpr (by simp), Bool.and_true]
  rwa [Rests, hcode]

lemma closeUpdate_rests {Image : ℕ → List UInt8 → Prop} {partition : π} {handle : UInt32} {size : ℕ}
    {image : List UInt8} {w : φ × List (Call π)}
    (h : Reached Image onTrial w.2 (.writing partition handle size image)) (himage : Image size image) :
    Rests Image onTrial (closeUpdate F.logged partition handle w) := by
  have hend : F.logged.otaEnd handle w = ((F.otaEnd handle w.1).1,
    ((F.otaEnd handle w.1).2, w.2 ++ [.otaEnd handle (F.otaEnd handle w.1).1])) := rfl
  have hselect (u : φ × List (Call π)) : F.logged.setBootPartition partition u =
      ((F.setBootPartition partition u.1).1, ((F.setBootPartition partition u.1).2,
        u.2 ++ [.setBootPartition partition (F.setBootPartition partition u.1).1])) := rfl
  simp only [closeUpdate, hend, hselect]
  generalize F.otaEnd handle w.1 = closed
  by_cases hclosed : closed.1 ≠ espOk
  · rw [if_pos hclosed]
    exact rests_returned (h.snoc (.closeFailed hclosed))
  · rw [if_neg hclosed, not_not.mp hclosed]
    generalize F.setBootPartition partition closed.2 = selected
    have hcomplete := h.snoc (.close himage)
    split_ifs with hselected
    · exact rests_returned (hcomplete.snoc (.selectFailed hselected))
    · rw [not_not.mp hselected]
      have hrestart := Protocol.Run.snoc (hcomplete.snoc .select) (.restart (.inr rfl))
      rwa [Rests, bne_self_eq_false, Bool.and_false]

lemma streamUpdate_rests {partition : π} {handle : UInt32} {size : ℕ} {signature : List UInt8} {file : σ}
    {loaded : Option κ} {callback : Bool} {w : φ × List (Call π)} (hloaded : ∀ k ∈ loaded, k = key)
    (hsize : 0 < size ∧ size ≤ maxOtaSize) (hsignature : signature.length = signatureSize)
    (h : Reached (Signed E key) onTrial w.2 (.writing partition handle size [])) :
    Rests (Signed E key) onTrial
      (streamUpdate F.logged E R loaded callback partition handle size signature file w) := by
  rw [streamUpdate]
  generalize hr :
    verifyExactReaderWith E R (writeSink F.logged callback handle size) loaded size signature file (0, w) = r
  obtain ⟨result, t⟩ := r
  have hends := verifyExactReaderWith_ends hloaded hsize hsignature ⟨h, rfl⟩ hr
  cases result with
  | error e => exact rests_returned (hends.1 e rfl _)
  | ok u =>
    obtain ⟨image, himage, hsigned⟩ := hends.2 rfl
    exact closeUpdate_rests himage.reached hsigned

lemma otaApplyFromSd_rests {loaded : Option κ} {callback : Bool} {card : Card σ} (hloaded : ∀ k ∈ loaded, k = key) :
    Rests (Signed E key) onTrial (otaApplyFromSd F.logged E R loaded callback card (f, [])) := by
  have hnothing : Reached (Signed E key) onTrial ([] : List (Call π)) .idle := .nil _
  rw [otaApplyFromSd]
  split
  · exact rests_returned hnothing
  · exact rests_returned hnothing
  · rename_i file size hfile hsize
    split_ifs with hzero hlarge
    · exact rests_returned hnothing
    · exact rests_returned hnothing
    · split
      · exact rests_returned hnothing
      · rename_i signature hsignature
        split_ifs with hlength
        · exact rests_returned hnothing
        · have hnext : F.logged.nextUpdatePartition (f, []) =
              ((F.nextUpdatePartition f).1, ((F.nextUpdatePartition f).2, [])) := rfl
          rw [hnext]
          generalize F.nextUpdatePartition f = next
          obtain ⟨_ | partition, f'⟩ := next
          · exact rests_returned hnothing
          · have hbegin : F.logged.otaBegin partition size (f', []) = ((F.otaBegin partition size f').1,
                ((F.otaBegin partition size f').2, [.otaBegin partition size (F.otaBegin partition size f').1.1
                  (F.otaBegin partition size f').1.2])) := rfl
            simp only [hbegin]
            generalize F.otaBegin partition size f' = begun
            split_ifs with hbegun
            · exact rests_returned (hnothing.snoc (.beginFailed hbegun))
            · rw [not_not.mp hbegun]
              exact streamUpdate_rests hloaded ⟨Nat.pos_of_ne_zero hzero, Nat.le_of_not_lt hlarge⟩ (not_not.mp hlength)
                (hnothing.snoc (.begin partition size _))

lemma otaRollback_rests {Image : ℕ → List UInt8 → Prop} : Rests Image onTrial (otaRollback F.logged (f, [])) := by
  have hmark : F.logged.markAppInvalid (f, []) =
      ((F.markAppInvalid f).1, ((F.markAppInvalid f).2, [.markAppInvalid (F.markAppInvalid f).1])) := rfl
  rw [otaRollback, hmark]
  generalize F.markAppInvalid f = answer
  obtain ⟨_ | ret, f'⟩ := answer
  · have hback : (otaProtocol π Image).Run ⟨.idle, onTrial⟩ [.markAppInvalid none] ⟨.idle, false⟩ :=
      Protocol.run_singleton.mpr .rollBack
    rwa [Rests, bne_self_eq_false, Bool.and_false]
  · exact rests_returned (Protocol.run_singleton.mpr (.rollBackFailed ret))

/-- Between the operations nothing is begun, and the running image is on trial as observed. -/
def atRest (π : Type) (s : BootValidationState × φ) : Slot π := ⟨.idle, s.1 == .pending⟩

lemma observePartition_beq (b : Bool) : (BootValidationState.observePartition b == .pending) = b := by
  cases b <;> rfl

lemma afterwards_beq (state : BootValidationState) (ended : Ended) :
    (afterwards state ended == .pending) = (state == .pending && ended != .restarted) := by
  cases ended with
  | returned code =>
    rw [bne_iff_ne.mpr (by simp), Bool.and_true]
    rfl
  | restarted =>
    rw [bne_self_eq_false, Bool.and_false]
    rfl

/-- The calls of one operation. -/
lemma device_run (E : Ed25519 κ ν) (key : κ) (R : Reader σ ε) (F : Esp π φ) (o : Op σ) (s : BootValidationState × φ) :
    (otaProtocol π (Signed E key)).Run (atRest π s) ((device E key R F).reply o s).2
      (atRest π ((device E key R F).next o s)) := by
  obtain ⟨state, f⟩ := s
  cases o with
  | init =>
    have hobserve : Calls (Signed E key) (atRest π (state, f)) (.runningState (F.runningState f).1)
        ⟨.idle, isPending (F.runningState f).1⟩ := .observe _
    rw [← observePartition_beq (isPending (F.runningState f).1)] at hobserve
    exact Protocol.run_singleton.mpr hobserve
  | applyFromSd keyLoaded callback card =>
    have hloaded : ∀ k ∈ (if keyLoaded then some key else none), k = key := by
      cases keyLoaded with
      | false => exact fun k hk => (nomatch hk)
      | true => exact fun k hk => (Option.some.inj hk).symm
    have hrests : Rests (Signed E key) (state == .pending)
        (otaApplyFromSd F.logged E R (if keyLoaded then some key else none) callback card (f, [])) :=
      otaApplyFromSd_rests hloaded
    rw [Rests, ← afterwards_beq] at hrests
    exact hrests
  | markValid =>
    by_cases hstate : state = .pending
    · subst hstate
      have hmark : Calls (Signed E key) (atRest π (.pending, f)) (.markAppValid (F.markAppValid f).1)
          ⟨.idle, (F.markAppValid f).1 != espOk⟩ := .markValid _
      have hnext : ((if (F.markAppValid f).1 = espOk then BootValidationState.validated else .pending) == .pending) =
          ((F.markAppValid f).1 != espOk) := by
        by_cases hret : (F.markAppValid f).1 = espOk
        · rw [if_pos hret, hret]
          rfl
        · rw [if_neg hret, bne_iff_ne.mpr hret]
          rfl
      rw [← hnext] at hmark
      exact Protocol.run_singleton.mpr hmark
    · have hmark : otaMarkValid F.logged state (f, []) = (espOk, state, (f, [])) := if_pos hstate
      change (otaProtocol π (Signed E key)).Run _ (otaMarkValid F.logged state (f, [])).2.2.2
        (atRest π ((otaMarkValid F.logged state (f, [])).2.1, (otaMarkValid F.logged state (f, [])).2.2.1))
      rw [hmark]
      exact .nil _
  | rollback =>
    have hrests : Rests (Signed E key) (state == .pending) (otaRollback F.logged (f, [])) := otaRollback_rests
    rw [Rests, ← afterwards_beq] at hrests
    exact hrests
  | powerLoss => exact Protocol.run_singleton.mpr (.restart (.inl rfl))

/-- Whatever is on the card and whatever the calls of ESP-IDF answer, the calls of a device follow the protocol from
the start on; and whenever it selects a partition to boot from, its last calls have written a complete image with a good
signature to this partition. -/
theorem updates_along (E : Ed25519 κ ν) (key : κ) (R : Reader σ ε) (F : Esp π φ) (f : φ) (ops : List (Op σ)) :
    let w := ((device E key R F).watch (Protocol.record fun _ r => r.2)).run ((.notPending, f), []) ops
    (otaProtocol π (Signed E key)).Run ⟨.idle, false⟩ w.2 (atRest π w.1) ∧
      ∀ before partition ret after, w.2 = before ++ .setBootPartition partition ret :: after →
        Installed (Signed E key) partition before := by
  intro w
  have hrun : (otaProtocol π (Signed E key)).Run ⟨.idle, false⟩ w.2 (atRest π w.1) :=
    Protocol.run_watch (device_run E key R F) (.nil _) ops
  refine ⟨hrun, fun before partition ret after hw => ?_⟩
  rw [hw] at hrun
  exact installed_of_run rfl hrun

end Device

end ThistleOS.Ota
