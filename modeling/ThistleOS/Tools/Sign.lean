import Mathlib.Algebra.Group.Int.Defs
import Mathlib.Algebra.Group.Nat.Defs
import Mathlib.Data.List.Dedup
import Mathlib.Data.List.Sort
import ThistleOS.Recovery.ArtifactManifest.Canonical

/-!
# The signing tool

The manifest that the tool makes from its arguments and signs. Recovery accepts it exactly if the
arguments pass Recovery's own checks, of which the tool makes almost none.
-/

open Except (ok_bind bind_ok check_ok)

namespace ThistleOS.Sign

/-- The hash function of `hashlib`, which is not part of the repository. -/
abbrev Sha256 := List UInt8 → { digest : List UInt8 // digest.length = 32 }

/-- The arguments of the tool, as its command line lets them through, and the payload that they name. -/
structure Args where
  artifactType : ArtifactType
  artifactId : String
  version : String
  securityVersion : ℤ
  arch : String
  arch_mem : arch ∈ ["esp32", "esp32s2", "esp32s3", "esp32c3", "esp32c6"]
  compatibleBoards : List String
  url : String
  payload : List UInt8

def manifestDestination : ArtifactType → String → String
  | .firmware, _ => "ota_1"
  | .board, artifactId => s!"config/boards/{artifactId}.json"
  | .driver, artifactId => s!"drivers/{artifactId}.drv.elf"
  | .windowManager, artifactId => s!"wm/{artifactId}.wm.elf"

def hexdigest (digest : List UInt8) : String :=
  String.ofList (digest.flatMap fun b => [Nat.digitChar (b.toNat / 16), Nat.digitChar (b.toNat % 16)])

namespace Args

variable (args : Args)

/-- `sorted(set(compatible_boards))`. -/
def boards : List String := args.compatibleBoards.dedup.insertionSort (· ≤ ·)

def fields : List String := [args.artifactId, args.version, args.arch, args.url] ++ args.boards

def canonicalManifest (sha256 : Sha256) : Except String (List UInt8) :=
  if args.boards.isEmpty && args.artifactType != .firmware then
    .error "at least one compatible board is required"
  else if args.fields.any fun value =>
      value.isEmpty || value.toList.contains '\n' || value.toList.contains '\r' then
    .error "manifest fields must be non-empty single-line values"
  else
    .ok (utf8 (manifestHeader ++ "\n" ++
      s!"type={args.artifactType.asStr}\n" ++
      s!"id={args.artifactId}\n" ++
      s!"version={args.version}\n" ++
      s!"security_version={args.securityVersion}\n" ++
      s!"arch={args.arch}\n" ++
      "compatible_boards=" ++ ",".intercalate args.boards ++ "\n" ++
      s!"destination={manifestDestination args.artifactType args.artifactId}\n" ++
      s!"sha256={hexdigest (sha256 args.payload).1}\n" ++
      s!"size={args.payload.length}\n" ++
      s!"url={args.url}\n"))

/-- The manifest has the values of the arguments. -/
structure Spells (sha256 : Sha256) (m : ArtifactManifest) : Prop where
  artifactType : m.artifactType = args.artifactType
  id : m.id = args.artifactId
  version : m.version = args.version
  securityVersion : (m.securityVersion.toNat : ℤ) = args.securityVersion
  arch : m.arch = args.arch
  compatibleBoards : m.compatibleBoards = args.boards
  destination : m.destination = manifestDestination args.artifactType args.artifactId
  sha256 : m.sha256 = hexdigest (sha256 args.payload).1
  size : m.size.toNat = args.payload.length
  url : m.url = args.url

/-- The arguments are what Recovery asks for. -/
structure Fit : Prop where
  id : validateIdentifier args.artifactId "id" = .ok ()
  version : validateVersion args.version = .ok ()
  securityVersion : 0 < args.securityVersion ∧ args.securityVersion < 2 ^ 32
  nonempty : args.compatibleBoards ≠ []
  boards : ∀ board ∈ args.compatibleBoards, validateIdentifier board "compatible board" = .ok ()
  url : "https://".toList.isPrefixOf args.url.toList = true ∧ (utf8 args.url).any (· ≤ 32) = false
  size : 0 < args.payload.length ∧ args.payload.length < 2 ^ 32

end Args

/-! ### Boards -/

lemma mem_boards {args : Args} {board : String} : board ∈ args.boards ↔ board ∈ args.compatibleBoards := by
  rw [Args.boards, List.mem_insertionSort, List.mem_dedup]

lemma boards_eq_nil {args : Args} : args.boards = [] ↔ args.compatibleBoards = [] := by
  simp only [List.eq_nil_iff_forall_not_mem, mem_boards]

lemma pairwise_boards (args : Args) : args.boards.Pairwise fun a b => ¬ b ≤ a := by
  have hle : args.boards.Pairwise (· ≤ ·) := List.pairwise_insertionSort _ _
  have hnodup : args.boards.Nodup :=
    (List.perm_insertionSort _ _).nodup_iff.mpr (List.nodup_dedup args.compatibleBoards)
  exact (hle.and hnodup).imp fun h hge => h.2 (Std.le_antisymm h.1 hge)

/-- Identifiers that are sorted pass the check of the boards. -/
lemma validateBoards_of_pairwise {boards : List String} {previous : Option String}
    (hvalid : ∀ board ∈ boards, validateIdentifier board "compatible board" = .ok ())
    (hsorted : boards.Pairwise fun a b => ¬ b ≤ a)
    (hprevious : ∀ value ∈ previous, ∀ board ∈ boards, ¬ board ≤ value) :
    validateBoards previous boards = .ok () := by
  induction boards generalizing previous with
  | nil => rfl
  | cons board boards ih =>
    rw [List.forall_mem_cons] at hvalid
    rw [List.pairwise_cons] at hsorted
    have hlater : (previous.any fun value => decide (board ≤ value)) = false := by
      cases previous with
      | none => rfl
      | some value => simpa using hprevious value rfl board List.mem_cons_self
    rw [validateBoards, hvalid.1, ok_bind, hlater]
    exact ih hvalid.2 hsorted.2 fun value hvalue => by
      cases hvalue
      exact hsorted.1

/-! ### The manifest of the arguments -/

lemma expectedDestination_eq (t : ArtifactType) (id : String) :
    expectedDestination t id = manifestDestination t id := by
  cases t <;> rfl

/-- A hexadecimal digit is one byte. -/
lemma digitChar_byte {n : ℕ} (h : n < 16) :
    ∃ byte, String.utf8EncodeChar (Nat.digitChar n) = [byte] ∧ isLowerHexDigit byte = true := by
  have hall : (List.range 16).all (fun n =>
      (String.utf8EncodeChar (Nat.digitChar n)).length == 1 &&
        (String.utf8EncodeChar (Nat.digitChar n)).all isLowerHexDigit) = true := by decide
  have hn := List.all_eq_true.mp hall n (List.mem_range.mpr h)
  rw [Bool.and_eq_true, beq_iff_eq, List.length_eq_one_iff] at hn
  obtain ⟨⟨byte, hbyte⟩, hhex⟩ := hn
  rw [hbyte] at hhex
  exact ⟨byte, hbyte, by simpa using hhex⟩

lemma hexdigest_bytes (digest : List UInt8) :
    (utf8 (hexdigest digest)).length = 2 * digest.length ∧
      (utf8 (hexdigest digest)).all isLowerHexDigit = true := by
  rw [utf8_eq_flatMap, hexdigest, String.toList_ofList]
  induction digest with
  | nil => exact ⟨rfl, rfl⟩
  | cons b digest ih =>
    obtain ⟨high, hhigh, hhex⟩ := digitChar_byte (n := b.toNat / 16) (by have := b.toNat_lt; omega)
    obtain ⟨low, hlow, hhex'⟩ := digitChar_byte (n := b.toNat % 16) (Nat.mod_lt _ (by decide))
    have hbytes : ([Nat.digitChar (b.toNat / 16), Nat.digitChar (b.toNat % 16)]).flatMap
        String.utf8EncodeChar = [high, low] := by
      simp [hhigh, hlow]
    rw [List.flatMap_cons, List.flatMap_append, hbytes]
    refine ⟨?_, ?_⟩
    · rw [List.length_append, ih.1, List.length_cons]
      simp
      omega
    · rw [List.all_append, ih.2]
      simp [hhex, hhex']

/-- The digest has the form that Recovery asks for. -/
lemma isSha256Hex_hexdigest {digest : List UInt8} (h : digest.length = 32) :
    isSha256Hex (hexdigest digest) = true := by
  obtain ⟨hlen, hall⟩ := hexdigest_bytes digest
  rw [isSha256Hex, hlen, h, hall]
  rfl

/-- The manifest that Recovery is to find. -/
def manifestOf (sha256 : Sha256) (args : Args) : ArtifactManifest where
  artifactType := args.artifactType
  id := args.artifactId
  version := args.version
  securityVersion := .ofNat args.securityVersion.toNat
  arch := args.arch
  compatibleBoards := args.boards
  destination := manifestDestination args.artifactType args.artifactId
  sha256 := hexdigest (sha256 args.payload).1
  size := .ofNat args.payload.length
  url := args.url

namespace Args

variable {args : Args} {sha256 : Sha256}

lemma Fit.securityVersion_toNat (h : args.Fit) :
    ((manifestOf sha256 args).securityVersion.toNat : ℤ) = args.securityVersion := by
  obtain ⟨hpos, hlt⟩ := h.securityVersion
  have hnat : args.securityVersion.toNat < 2 ^ 32 := by omega
  rw [manifestOf, UInt32.toNat_ofNat_of_lt' hnat, Int.toNat_of_nonneg hpos.le]

lemma Fit.size_toNat (h : args.Fit) : (manifestOf sha256 args).size.toNat = args.payload.length :=
  UInt32.toNat_ofNat_of_lt' h.size.2

lemma Fit.spells (h : args.Fit) : args.Spells sha256 (manifestOf sha256 args) :=
  ⟨rfl, rfl, rfl, h.securityVersion_toNat, rfl, rfl, rfl, rfl, h.size_toNat, rfl⟩

/-- Arguments that fit pass the checks of Recovery. -/
lemma Fit.validateShape (h : args.Fit) : (manifestOf sha256 args).validateShape = .ok () := by
  have hsecurity : (manifestOf sha256 args).securityVersion ≠ 0 := by
    intro hzero
    have := @Fit.securityVersion_toNat args sha256 h
    rw [hzero] at this
    exact h.securityVersion.1.ne this
  have hsize : (manifestOf sha256 args).size ≠ 0 := by
    intro hzero
    have := @Fit.size_toNat args sha256 h
    rw [hzero] at this
    exact h.size.1.ne this
  have hboards : validateBoards none args.boards = .ok () :=
    validateBoards_of_pairwise (fun board hmem => h.boards board (mem_boards.mp hmem))
      (pairwise_boards args) (by simp)
  apply ArtifactManifest.Shape.validateShape
  refine ⟨h.id, h.version, hsecurity, args.arch_mem, ?_, hboards, ?_, ?_, hsize, ?_⟩
  · rw [List.isEmpty_eq_false_iff]
    exact mt boards_eq_nil.mp h.nonempty
  · exact (expectedDestination_eq _ _).symm
  · exact isSha256Hex_hexdigest (sha256 args.payload).2
  · change ("https://".toList.isPrefixOf args.url.toList && !(utf8 args.url).any (· ≤ 32)) = true
    rw [h.url.1, h.url.2]
    rfl

/-- What the checks of Recovery say about the arguments. -/
lemma Spells.fit {m : ArtifactManifest} (h : args.Spells sha256 m) (hshape : m.Shape) : args.Fit where
  id := h.id ▸ hshape.id
  version := h.version ▸ hshape.version
  securityVersion := by
    rw [← h.securityVersion]
    have hne : m.securityVersion.toNat ≠ 0 := fun hzero =>
      hshape.securityVersion (UInt32.toNat_inj.mp hzero)
    have hlt := m.securityVersion.toNat_lt
    omega
  nonempty := by
    have hne := hshape.nonempty
    rw [h.compatibleBoards, List.isEmpty_eq_false_iff] at hne
    exact mt boards_eq_nil.mpr hne
  boards board hmem := by
    apply hshape.board
    rw [h.compatibleBoards]
    exact mem_boards.mpr hmem
  url := by
    have hurl := hshape.url
    rw [Bool.and_eq_true, Bool.not_eq_true', h.url] at hurl
    exact hurl
  size := by
    rw [← h.size]
    exact ⟨Nat.pos_of_ne_zero fun hzero => hshape.size (UInt32.toNat_inj.mp hzero), m.size.toNat_lt⟩

/-- The bytes of arguments that fit are the encoding of their manifest. -/
lemma Fit.canonicalManifest_eq (h : args.Fit) {bytes : List UInt8}
    (hbytes : args.canonicalManifest sha256 = .ok bytes) :
    bytes = utf8 (manifestOf sha256 args).canonicalText := by
  rw [canonicalManifest] at hbytes
  split_ifs at hbytes
  rw [← Except.ok.inj hbytes, ArtifactManifest.canonicalText]
  have hsecurity : toString args.securityVersion = toString (manifestOf sha256 args).securityVersion := by
    rw [← @Fit.securityVersion_toNat args sha256 h]
    rfl
  have hsize : toString args.payload.length = toString (manifestOf sha256 args).size := by
    rw [← @Fit.size_toNat args sha256 h]
    rfl
  rw [hsecurity, hsize]
  rfl

/-- Recovery reads the signed bytes as a manifest with the values of the arguments. -/
def Accepted (sha256 : Sha256) (args : Args) (bytes : List UInt8) : Prop :=
  ∃ canonical m, String.fromUTF8? ⟨bytes.toArray⟩ = some canonical ∧
    ArtifactManifest.parse canonical = .ok m ∧ args.Spells sha256 m

end Args

/-- What the tool signs is accepted by Recovery, as a manifest with the values of the arguments, exactly
if the arguments fit. -/
theorem accepted_iff (sha256 : Sha256) (args : Args) {bytes : List UInt8}
    (hbytes : args.canonicalManifest sha256 = .ok bytes) :
    Args.Accepted sha256 args bytes ↔ args.Fit := by
  constructor
  · rintro ⟨canonical, m, -, hparse, hspells⟩
    exact hspells.fit (ArtifactManifest.shape_of_validateShape (ArtifactManifest.parse_ok hparse).1)
  · intro h
    refine ⟨_, manifestOf sha256 args, ?_, ArtifactManifest.parse_canonicalText h.validateShape, h.spells⟩
    rw [h.canonicalManifest_eq hbytes, fromUTF8?_utf8]

/-- A hash function, to run the tool with. -/
def noHash : Sha256 := fun _ => ⟨List.replicate 32 0, rfl⟩

def radioDriver : Args where
  artifactType := .driver
  artifactId := "lora"
  version := "v1.0.10"
  securityVersion := 10
  arch := "esp32s3"
  arch_mem := by decide
  compatibleBoards := ["tdeck-pro", "tdeck", "tdeck-pro"]
  url := "https://h/lora"
  payload := [1, 2, 3]

theorem radioDriver_accepted :
    ∃ bytes, radioDriver.canonicalManifest noHash = .ok bytes ∧
      Args.Accepted noHash radioDriver bytes := by
  have hbytes : ∃ bytes, radioDriver.canonicalManifest noHash = .ok bytes := by
    rw [Args.canonicalManifest, if_neg (by decide +kernel), if_neg (by decide +kernel)]
    exact ⟨_, rfl⟩
  have hfit : radioDriver.Fit :=
    ⟨by decide, by decide, by decide, by decide, by decide, by decide, by decide⟩
  obtain ⟨bytes, hbytes⟩ := hbytes
  exact ⟨bytes, hbytes, (accepted_iff noHash radioDriver hbytes).mpr hfit⟩

/-- Firmware for all boards, as the help text of the tool offers it. -/
def anyBoard : Args where
  artifactType := .firmware
  artifactId := "thistle-os"
  version := "v0.5.1"
  securityVersion := 12
  arch := "esp32s3"
  arch_mem := by decide
  compatibleBoards := []
  url := "https://h/thistle-os.bin"
  payload := [1, 2, 3]

theorem anyBoard_not_accepted :
    ∃ bytes, anyBoard.canonicalManifest noHash = .ok bytes ∧ ¬ Args.Accepted noHash anyBoard bytes := by
  rw [Args.canonicalManifest, if_neg (by decide +kernel), if_neg (by decide +kernel)]
  refine ⟨_, rfl, ?_⟩
  rintro ⟨canonical, m, -, hparse, hspells⟩
  have hshape := ArtifactManifest.shape_of_validateShape (ArtifactManifest.parse_ok hparse).1
  exact (hspells.fit hshape).nonempty rfl

end ThistleOS.Sign
