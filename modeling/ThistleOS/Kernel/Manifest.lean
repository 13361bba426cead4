import ThistleOS.CString
import ThistleOS.Recovery.ArtifactManifest

/-!
# Manifests and their compatibility

The kernel asks a manifest whether it fits the running system; C code asks the same of a copy whose
texts have a fixed size.
-/

open ThistleOS.ArtifactManifest

namespace ThistleOS.Manifests

/-! ### Versions -/

structure Version where
  major : UInt32
  minor : UInt32
  patch : UInt32
  deriving DecidableEq, Repr

def versionPart (text : String) : UInt32 :=
  ((parseDecimal 0x100000000 text).map UInt32.ofNat).getD 0

/-- The version that a requirement asks for; what cannot be read is zero. -/
def required (requirement : String) : Version :=
  let parts := (requirement.toList.splitOn '.').map String.ofList
  { major := (parts[0]?.map versionPart).getD 0
    minor := (parts[1]?.map versionPart).getD 0
    patch := (parts[2]?.map versionPart).getD 0 }

def Version.meets (current req : Version) : Bool :=
  if current.major ≠ req.major then req.major < current.major
  else if current.minor ≠ req.minor then req.minor < current.minor
  else req.patch ≤ current.patch

def satisfies (current : Version) (requirement : String) : Bool :=
  current.meets (required requirement)

lemma Version.meets_refl (v : Version) : v.meets v = true := by
  simp [Version.meets]

lemma Version.meets_antisymm {v w : Version} (h : v.meets w = true) (h' : w.meets v = true) :
    v = w := by
  obtain ⟨a, b, c⟩ := v
  obtain ⟨a', b', c'⟩ := w
  simp only [Version.meets] at h h'
  by_cases ha : a = a'
  · subst ha
    by_cases hb : b = b'
    · subst hb
      simp only [ne_eq, not_true_eq_false, if_false, decide_eq_true_eq] at h h'
      rw [UInt32.le_antisymm h' h]
    · simp only [ne_eq, not_true_eq_false, if_false, hb, Ne.symm hb, not_false_eq_true, if_true,
        decide_eq_true_eq] at h h'
      exact absurd (UInt32.lt_trans h h') (UInt32.lt_irrefl _)
  · simp only [ne_eq, ha, Ne.symm ha, not_false_eq_true, if_true, decide_eq_true_eq] at h h'
    exact absurd (UInt32.lt_trans h h') (UInt32.lt_irrefl _)

/-- No requirement is stricter than the greatest version. -/
lemma meets_greatest (req : Version) :
    (⟨0xFFFFFFFF, 0xFFFFFFFF, 0xFFFFFFFF⟩ : Version).meets req = true := by
  have hle : ∀ n : UInt32, n ≤ 0xFFFFFFFF := fun n =>
    UInt32.le_iff_toNat_le.mpr (Nat.le_of_lt_succ n.toNat_lt)
  have hlt : ∀ n : UInt32, 0xFFFFFFFF ≠ n → n < 0xFFFFFFFF := fun n hne =>
    UInt32.lt_of_le_of_ne (hle n) hne.symm
  unfold Version.meets
  split_ifs with hmajor hminor
  · simpa using hlt _ hmajor
  · simpa using hlt _ hminor
  · simpa using hle _

/-! ### Manifests -/

inductive ManifestType
  | app
  | driver
  | firmware
  | wm
  deriving DecidableEq, Repr

def ManifestType.toUInt32 : ManifestType → UInt32
  | .app => 0
  | .driver => 1
  | .firmware => 2
  | .wm => 3

structure Manifest where
  manifestType : ManifestType
  id : String
  name : String
  version : String
  author : String
  description : String
  minOs : String
  arch : String
  entry : String
  icon : String
  permissions : UInt32
  background : Bool
  minMemoryKb : UInt32
  halInterface : String
  changelog : String

def Manifest.isCompatible (current : Version) (m : Manifest) (currentArch : String) : Bool :=
  if m.arch ≠ "" ∧ m.arch ≠ currentArch then false
  else if m.minOs ≠ "" ∧ !satisfies current m.minOs then false
  else true

/-! ### The copy for C -/

structure CManifest where
  manifestType : UInt32
  id : List UInt8
  name : List UInt8
  version : List UInt8
  author : List UInt8
  description : List UInt8
  minOs : List UInt8
  arch : List UInt8
  entry : List UInt8
  icon : List UInt8
  permissions : UInt32
  background : Bool
  minMemoryKb : UInt32
  halInterface : List UInt8
  changelog : List UInt8

/-- A text in a buffer of `size` bytes, cut so that a zero follows it. -/
def copyToBuf (src : String) (size : Nat) : List UInt8 :=
  let bytes := utf8 src
  let len := min bytes.length (size - 1)
  bytes.take len ++ List.replicate (size - len) 0

def CManifest.ofManifest (m : Manifest) : CManifest where
  manifestType := m.manifestType.toUInt32
  id := copyToBuf m.id 64
  name := copyToBuf m.name 32
  version := copyToBuf m.version 16
  author := copyToBuf m.author 32
  description := copyToBuf m.description 128
  minOs := copyToBuf m.minOs 16
  arch := copyToBuf m.arch 16
  entry := copyToBuf m.entry 64
  icon := copyToBuf m.icon 64
  permissions := m.permissions
  background := m.background
  minMemoryKb := m.minMemoryKb
  halInterface := copyToBuf m.halInterface 16
  changelog := copyToBuf m.changelog 256

/-- The text in a buffer; bytes that are no text count as none. -/
def readBuf (buf : List UInt8) : String := (CStr.ofBuffer buf).toStr.getD ""

/-- The pointers may be null. -/
def manifestIsCompatible (current : Version) (manifest : Option CManifest)
    (currentArch : Option CStr) : Bool :=
  match manifest with
  | none => true
  | some m =>
    let arch := (currentArch.bind CStr.toStr).getD ""
    if readBuf m.arch ≠ "" ∧ readBuf m.arch ≠ arch then false
    else if readBuf m.minOs ≠ "" ∧ !satisfies current (readBuf m.minOs) then false
    else true

/-! ### Texts that fit -/

/-- The text has at most `n` bytes, and none of them is zero. -/
def Fits (n : Nat) (s : String) : Prop := (utf8 s).length ≤ n ∧ (0 : UInt8) ∉ utf8 s

lemma takeWhile_replicate_zero (l : List UInt8) (n : Nat) :
    (l ++ List.replicate n 0).takeWhile (· != 0) = l.takeWhile (· != 0) := by
  induction l with
  | nil => cases n <;> simp [List.replicate_succ]
  | cons a l ih => simp only [List.cons_append, List.takeWhile_cons, ih]

lemma bytes_copyToBuf (s : String) (n : Nat) :
    (CStr.ofBuffer (copyToBuf s (n + 1))).bytes = ((utf8 s).take n).takeWhile (· != 0) := by
  have htake : (utf8 s).take (min (utf8 s).length n) = (utf8 s).take n := by
    rw [Nat.min_comm, ← List.take_take, List.take_length]
  rw [CStr.ofBuffer, copyToBuf, Nat.add_sub_cancel]
  simp only [htake]
  exact takeWhile_replicate_zero _ _

/-- A text comes back from a buffer exactly when it fits. -/
lemma readBuf_copyToBuf_iff {s : String} {n : Nat} :
    readBuf (copyToBuf s (n + 1)) = s ↔ Fits n s := by
  constructor
  · intro h
    cases hstr : (CStr.ofBuffer (copyToBuf s (n + 1))).toStr with
    | none =>
      rw [readBuf, hstr, Option.getD_none] at h
      subst h
      exact ⟨Nat.zero_le _, by decide⟩
    | some t =>
      rw [readBuf, hstr, Option.getD_some] at h
      subst h
      have hbytes := CStr.utf8_of_toStr hstr
      refine ⟨?_, ?_⟩
      · rw [hbytes, bytes_copyToBuf]
        exact (List.takeWhile_sublist _).length_le.trans (List.length_take_le n _)
      · rw [hbytes]
        exact (CStr.ofBuffer (copyToBuf t (n + 1))).noNul
  · rintro ⟨hlength, hnul⟩
    have hbytes : (CStr.ofBuffer (copyToBuf s (n + 1))).bytes = utf8 s := by
      rw [bytes_copyToBuf, List.take_of_length_le hlength, List.takeWhile_eq_self_iff]
      intro b hb
      have hb : b ≠ 0 := by
        rintro rfl
        exact hnul hb
      simpa using hb
    rw [readBuf, CStr.toStr, hbytes, fromUTF8?_utf8, Option.getD_some]

/-! ### Both answers -/

/-- A text that is read from a buffer is the text of a C string. -/
lemma exists_toStr_readBuf (buf : List UInt8) : ∃ arch : CStr, arch.toStr = some (readBuf buf) := by
  cases h : (CStr.ofBuffer buf).toStr with
  | none => exact ⟨⟨[], List.not_mem_nil⟩, by rw [readBuf, h]; rfl⟩
  | some t => exact ⟨CStr.ofBuffer buf, by rw [readBuf, h, Option.getD_some]⟩

lemma satisfies_empty (current : Version) : satisfies current "" = true := by
  have hrequired : required "" = ⟨0, 0, 0⟩ := by decide +kernel
  rw [satisfies, hrequired]
  unfold Version.meets
  split_ifs with hmajor hminor
  · simpa [UInt32.pos_iff_ne_zero] using hmajor
  · simpa [UInt32.pos_iff_ne_zero] using hminor
  · simp

/-- Is a system of this architecture what the manifest asks for? -/
def archFits (arch current : String) : Bool := arch == "" || arch == current

lemma isCompatible_eq (current : Version) (m : Manifest) (arch : String) :
    m.isCompatible current arch = (archFits m.arch arch && satisfies current m.minOs) := by
  have hempty : m.minOs = "" → satisfies current m.minOs = true := fun h =>
    h ▸ satisfies_empty current
  rw [Manifest.isCompatible, archFits]
  by_cases ha : m.arch = "" <;> by_cases hc : m.arch = arch <;> by_cases ho : m.minOs = "" <;>
    cases hs : satisfies current m.minOs <;> simp_all

lemma manifestIsCompatible_eq (current : Version) (m : CManifest) {arch : CStr} {name : String}
    (harch : arch.toStr = some name) :
    manifestIsCompatible current (some m) (some arch) =
      (archFits (readBuf m.arch) name && satisfies current (readBuf m.minOs)) := by
  have hempty : readBuf m.minOs = "" → satisfies current (readBuf m.minOs) = true := fun h =>
    h ▸ satisfies_empty current
  simp only [manifestIsCompatible, archFits, Option.bind_some, harch, Option.getD_some]
  by_cases ha : readBuf m.arch = "" <;> by_cases hc : readBuf m.arch = name <;>
    by_cases ho : readBuf m.minOs = "" <;> cases hs : satisfies current (readBuf m.minOs) <;>
    simp_all

/-- The two answers are the same on every system exactly when the architecture fits its buffer and
the version that is asked for survives the copy. -/
theorem compatible_from_c_iff (m : Manifest) :
    (∀ (current : Version) (arch : CStr) (name : String), arch.toStr = some name →
      manifestIsCompatible current (some (.ofManifest m)) (some arch) =
        m.isCompatible current name) ↔
      Fits 15 m.arch ∧ required (readBuf (copyToBuf m.minOs 16)) = required m.minOs := by
  have hc : ∀ current arch name, arch.toStr = some name →
      manifestIsCompatible current (some (.ofManifest m)) (some arch) =
        (archFits (readBuf (copyToBuf m.arch 16)) name &&
          satisfies current (readBuf (copyToBuf m.minOs 16))) :=
    fun current arch name harch => manifestIsCompatible_eq current _ harch
  constructor
  · intro hall
    -- a version that meets everything leaves the architectures to be compared
    have harchs : ∀ (arch : CStr) (name : String), arch.toStr = some name →
        archFits (readBuf (copyToBuf m.arch 16)) name = archFits m.arch name := by
      intro arch name harch
      have heq := hall ⟨0xFFFFFFFF, 0xFFFFFFFF, 0xFFFFFFFF⟩ arch name harch
      simpa [hc _ _ _ harch, isCompatible_eq, satisfies, meets_greatest] using heq
    have hfits : readBuf (copyToBuf m.arch 16) = m.arch := by
      by_contra hne
      have hm : m.arch ≠ "" := by
        intro hempty
        rw [hempty] at hne
        exact hne (by decide +kernel)
      obtain ⟨arch, harch⟩ := exists_toStr_readBuf (copyToBuf m.arch 16)
      have heq := harchs arch _ harch
      simp [archFits, hm, Ne.symm hne] at heq
    refine ⟨readBuf_copyToBuf_iff.mp hfits, ?_⟩
    obtain ⟨arch, harch⟩ := exists_toStr_readBuf (copyToBuf m.arch 16)
    have hversions : ∀ current, satisfies current (readBuf (copyToBuf m.minOs 16)) =
        satisfies current m.minOs := by
      intro current
      have heq := hall current arch _ harch
      simpa [hc _ _ _ harch, isCompatible_eq, archFits, hfits] using heq
    refine Version.meets_antisymm ?_ ?_
    · have heq := hversions (required (readBuf (copyToBuf m.minOs 16)))
      rw [satisfies, Version.meets_refl] at heq
      exact heq.symm
    · have heq := hversions (required m.minOs)
      rw [satisfies, satisfies, Version.meets_refl] at heq
      exact heq
  · rintro ⟨hfits, hrequired⟩ current arch name harch
    rw [hc _ _ _ harch, isCompatible_eq, readBuf_copyToBuf_iff.mpr hfits, satisfies, satisfies,
      hrequired]

/-- A manifest for the board of the running system. -/
def sampleManifest : Manifest where
  manifestType := .driver
  id := "com.thistle.radio"
  name := "Radio"
  version := "1.0.0"
  author := ""
  description := ""
  minOs := "0.5.0"
  arch := "esp32s3-n16r8-tdeck"
  entry := "radio.drv.elf"
  icon := ""
  permissions := 0
  background := false
  minMemoryKb := 0
  halInterface := "radio"
  changelog := ""

/-- Its architecture is cut, and is none that a system has. -/
theorem not_compatible_from_c :
    ¬ ∀ (m : Manifest) (current : Version) (arch : CStr) (name : String),
      arch.toStr = some name →
      manifestIsCompatible current (some (.ofManifest m)) (some arch) =
        m.isCompatible current name := by
  intro hall
  have harch : (CStr.ofBuffer (utf8 "esp32s3-n16r8-tdeck")).toStr = some "esp32s3-n16r8-tdeck" := by
    decide +kernel
  have heq := hall sampleManifest ⟨0, 5, 0⟩ _ _ harch
  have hc : manifestIsCompatible ⟨0, 5, 0⟩ (some (.ofManifest sampleManifest))
      (some (CStr.ofBuffer (utf8 "esp32s3-n16r8-tdeck"))) = false := by decide +kernel
  have hrust : sampleManifest.isCompatible ⟨0, 5, 0⟩ "esp32s3-n16r8-tdeck" = true := by
    decide +kernel
  rw [hc, hrust] at heq
  cases heq

end ThistleOS.Manifests
