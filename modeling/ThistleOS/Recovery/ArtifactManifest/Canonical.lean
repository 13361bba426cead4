import ThistleOS.Recovery.ArtifactManifest

/-!
# The canonical encoding is parsed back
-/

open Except (ok_bind bind_ok check_ok)

namespace ThistleOS

namespace ArtifactManifest

/-- What `validateShape` has checked. -/
structure Shape (m : ArtifactManifest) : Prop where
  id : validateIdentifier m.id "id" = .ok ()
  version : validateVersion m.version = .ok ()
  securityVersion : m.securityVersion ≠ 0
  arch : m.arch ∈ ["esp32", "esp32s2", "esp32s3", "esp32c3", "esp32c6"]
  nonempty : m.compatibleBoards.isEmpty = false
  boards : validateBoards none m.compatibleBoards = .ok ()
  destination : m.destination = expectedDestination m.artifactType m.id
  sha256 : isSha256Hex m.sha256 = true
  size : m.size ≠ 0
  url : ("https://".toList.isPrefixOf m.url.toList && !(utf8 m.url).any (· ≤ 32)) = true

variable {m : ArtifactManifest}

lemma shape_of_validateShape (h : m.validateShape = .ok ()) : Shape m := by
  unfold validateShape at h
  obtain ⟨_, hid, h⟩ := bind_ok h
  obtain ⟨_, hversion, h⟩ := bind_ok h
  obtain ⟨hsecurity, h⟩ := check_ok h
  obtain ⟨harch, h⟩ := check_ok h
  obtain ⟨hnonempty, h⟩ := check_ok h
  obtain ⟨_, hboards, h⟩ := bind_ok h
  obtain ⟨hdestination, h⟩ := check_ok h
  obtain ⟨hsha256, h⟩ := check_ok h
  obtain ⟨hsize, h⟩ := check_ok h
  refine ⟨hid, hversion, hsecurity, not_not.mp harch, Bool.eq_false_iff.mpr hnonempty, hboards,
    not_not.mp hdestination, by simpa using hsha256, hsize, ?_⟩
  dsimp only at h
  split_ifs at h with hurl
  simpa using hurl

lemma Shape.validateShape (h : Shape m) : m.validateShape = .ok () := by
  have hurl := h.url
  rw [Bool.and_eq_true, Bool.not_eq_true'] at hurl
  unfold ArtifactManifest.validateShape
  rw [h.id, ok_bind, h.version, ok_bind, if_neg h.securityVersion, if_neg (not_not.mpr h.arch),
    if_neg (by simp [h.nonempty]), h.boards, ok_bind, if_neg (not_not.mpr h.destination),
    if_neg (by simp [h.sha256]), if_neg h.size, hurl.1, hurl.2]
  rfl

/-! ### Lines -/

/-- A line with a field. -/
def fieldLine (name value : String) : List Char := (name ++ "=").toList ++ value.toList

def canonicalLines (m : ArtifactManifest) : List (List Char) :=
  [manifestHeader.toList,
    fieldLine "type" m.artifactType.asStr,
    fieldLine "id" m.id,
    fieldLine "version" m.version,
    fieldLine "security_version" (toString m.securityVersion),
    fieldLine "arch" m.arch,
    fieldLine "compatible_boards" (",".intercalate m.compatibleBoards),
    fieldLine "destination" m.destination,
    fieldLine "sha256" m.sha256,
    fieldLine "size" (toString m.size),
    fieldLine "url" m.url]

lemma toList_canonicalText (m : ArtifactManifest) :
    m.canonicalText.toList = ['\n'].intercalate (canonicalLines m) ++ ['\n'] := by
  simp only [canonicalText, canonicalLines, fieldLine, String.toList_append, List.intercalate_cons_cons,
    List.intercalate_singleton, List.append_assoc, toString]
  simp

/-- A field is read from its line. -/
lemma field_fieldLine {name value : String} (h : value.toList ≠ []) :
    field (fieldLine name value) name = .ok value := by
  obtain ⟨c, cs, hvalue⟩ := List.exists_cons_of_ne_nil h
  rw [field, fieldLine, List.dropPrefix?_append_of_beq _ (by simp), hvalue]
  simp only
  rw [← hvalue, String.ofList_toList]

/-! ### Characters of the values -/

/-- No line ends within the text. -/
structure Plain (s : String) : Prop where
  newline : '\n' ∉ s.toList
  ret : '\r' ∉ s.toList

lemma plain_of_bytes {s : String} {p : UInt8 → Bool} (h : (utf8 s).all p = true) (hnewline : p 10 = false)
    (hreturn : p 13 = false) : Plain s := by
  rw [List.all_eq_true] at h
  refine ⟨notMem_of_bytes (b := 10) (by decide) fun hmem => ?_,
    notMem_of_bytes (b := 13) (by decide) fun hmem => ?_⟩
  · exact absurd (h 10 hmem) (by simp [hnewline])
  · exact absurd (h 13 hmem) (by simp [hreturn])

lemma plain_append {s t : String} (hs : Plain s) (ht : Plain t) : Plain (s ++ t) := by
  refine ⟨?_, ?_⟩
  · rw [String.toList_append, List.mem_append]
    exact fun h => h.elim hs.newline ht.newline
  · rw [String.toList_append, List.mem_append]
    exact fun h => h.elim hs.ret ht.ret

/-- What an identifier is made of. -/
def isIdentifierByte (byte : UInt8) : Bool :=
  isAlphanumeric byte || byte == 45 || byte == 95 || byte == 46

lemma identifier_of_validate {value label : String} (h : validateIdentifier value label = .ok ()) :
    value.toList ≠ [] ∧ (utf8 value).all isIdentifierByte = true := by
  rw [validateIdentifier] at h
  split_ifs at h with hbad
  simp only [Bool.or_eq_true, not_or, Bool.not_eq_true', Bool.not_eq_false] at hbad
  refine ⟨fun hnil => hbad.1.1.1 ?_, hbad.2⟩
  rw [String.isEmpty_iff]
  exact String.toList_eq_nil_iff.mp hnil

lemma plain_identifier {value label : String} (h : validateIdentifier value label = .ok ()) :
    Plain value :=
  plain_of_bytes (identifier_of_validate h).2 (by decide) (by decide)

/-- A version consists of three numbers, perhaps after a letter. -/
lemma version_of_validate {version : String} (h : validateVersion version = .ok ()) :
    version.toList ≠ [] ∧ ∀ c ∈ version.toList, c = 'v' ∨ c = '.' ∨ c.isDigit = true := by
  rw [validateVersion] at h
  split_ifs at h with hbad
  simp only [not_or, List.any_eq_true, not_exists, not_and, Bool.or_eq_true,
    Bool.not_eq_true', Bool.not_eq_false] at hbad
  obtain ⟨hlen, hparts⟩ := hbad
  have hchars : ∀ c ∈ (version.toList.dropPrefix? ['v']).getD version.toList,
      c = '.' ∨ c.isDigit = true := fun c hc => by
    have hjoined : ['.'].intercalate (((version.toList.dropPrefix? ['v']).getD version.toList).splitOn '.')
        = (version.toList.dropPrefix? ['v']).getD version.toList := List.intercalate_splitOn '.'
    rw [← hjoined] at hc
    rcases mem_intercalate hc with hc | ⟨part, hpart, hc⟩
    · exact .inl (List.mem_singleton.mp hc)
    · exact .inr (List.all_eq_true.mp (hparts part hpart).2 c hc)
  cases hdrop : version.toList.dropPrefix? ['v'] with
  | none =>
    rw [hdrop, Option.getD_none] at hlen hchars
    refine ⟨fun hnil => ?_, fun c hc => .inr (hchars c hc)⟩
    rw [hnil] at hlen
    exact absurd hlen (by decide)
  | some rest =>
    rw [hdrop, Option.getD_some] at hchars
    obtain ⟨pre, hversion, hpre⟩ := List.dropPrefix?_eq_some_iff.mp hdrop
    rw [eq_of_beq hpre] at hversion
    rw [hversion]
    refine ⟨by simp, fun c hc => ?_⟩
    rcases List.mem_append.mp hc with hc | hc
    · exact .inl (List.mem_singleton.mp hc)
    · exact .inr (hchars c hc)

lemma plain_of_chars {s : String} {p : Char → Prop} (h : ∀ c ∈ s.toList, p c) (hnewline : ¬ p '\n')
    (hreturn : ¬ p '\r') : Plain s :=
  ⟨fun hmem => hnewline (h _ hmem), fun hmem => hreturn (h _ hmem)⟩

lemma toList_toString (n : UInt32) : (toString n).toList = Nat.toDigits 10 n.toNat := by
  change (Nat.repr n.toNat).toList = _
  rw [Nat.repr, String.toList_ofList]

lemma digits_toString (n : UInt32) : ∀ c ∈ (toString n).toList, c.isDigit = true := by
  rw [toList_toString]
  exact fun c hc => Nat.isDigit_of_mem_toDigits (by decide) (by decide) hc

lemma toString_ne_nil (n : UInt32) : (toString n).toList ≠ [] := by
  rw [toList_toString]
  exact Nat.toDigits_ne_nil

/-- A number is read back. -/
lemma parseDecimal_toString (n : UInt32) : parseDecimal 0x100000000 (toString n) = some n.toNat := by
  have hplus : (toString n).toList.dropPrefix? ['+'] = none := by
    rw [Option.eq_none_iff_forall_ne_some]
    intro rest hdrop
    obtain ⟨pre, hn, hpre⟩ := List.dropPrefix?_eq_some_iff.mp hdrop
    rw [eq_of_beq hpre] at hn
    have hdigit := digits_toString n '+' (by rw [hn]; exact List.mem_cons_self)
    exact absurd hdigit (by decide)
  have hall : (toString n).toList.all Char.isDigit = true := List.all_eq_true.mpr (digits_toString n)
  have hempty : (toString n).toList.isEmpty = false := by simpa using toString_ne_nil n
  have hvalue : (toString n).toList.foldl (fun k c => 10 * k + (c.toNat - 48)) 0 = n.toNat := by
    rw [toList_toString]
    exact Nat.ofDigitChars_toDigits (by decide) (by decide)
  rw [parseDecimal]
  simp only [hplus, Option.getD_none, hall, hempty, hvalue]
  exact if_pos n.toNat_lt

/-! ### The values of a well-formed manifest -/

lemma plain_destination (t : ArtifactType) {id : String} (h : Plain id) :
    (expectedDestination t id).toList ≠ [] ∧ Plain (expectedDestination t id) := by
  have hplain : ∀ pre post : String, Plain pre → Plain post → Plain (pre ++ id ++ post) :=
    fun pre post hpre hpost => plain_append (plain_append hpre h) hpost
  cases t with
  | firmware =>
    exact ⟨show "ota_1".toList ≠ [] by decide, show '\n' ∉ "ota_1".toList by decide,
      show '\r' ∉ "ota_1".toList by decide⟩
  | board =>
    exact ⟨by simp [expectedDestination, toString],
      hplain "config/boards/" ".json" ⟨by decide, by decide⟩ ⟨by decide, by decide⟩⟩
  | driver =>
    exact ⟨by simp [expectedDestination, toString],
      hplain "drivers/" ".drv.elf" ⟨by decide, by decide⟩ ⟨by decide, by decide⟩⟩
  | windowManager =>
    exact ⟨by simp [expectedDestination, toString],
      hplain "wm/" ".wm.elf" ⟨by decide, by decide⟩ ⟨by decide, by decide⟩⟩

lemma plain_asStr (t : ArtifactType) : t.asStr.toList ≠ [] ∧ Plain t.asStr := by
  cases t
  · exact ⟨by decide, by decide, by decide⟩
  · exact ⟨by decide, by decide, by decide⟩
  · exact ⟨by decide, by decide, by decide⟩
  · exact ⟨by decide, by decide, by decide⟩

lemma parse_asStr (t : ArtifactType) : ArtifactType.parse t.asStr = .ok t := by
  cases t
  · rfl
  · rfl
  · rfl
  · rfl

/-- Every board that has been checked is an identifier. -/
lemma boards_of_validate {previous : Option String} {boards : List String}
    (h : validateBoards previous boards = .ok ()) :
    ∀ board ∈ boards, validateIdentifier board "compatible board" = .ok () := by
  induction boards generalizing previous with
  | nil => exact fun _ hmem => absurd hmem List.not_mem_nil
  | cons board boards ih =>
    rw [validateBoards] at h
    obtain ⟨_, hboard, h⟩ := bind_ok h
    obtain ⟨-, h⟩ := check_ok h
    intro board' hmem
    rcases List.mem_cons.mp hmem with rfl | hmem
    · exact hboard
    · exact ih h board' hmem

lemma comma_notMem {value label : String} (h : validateIdentifier value label = .ok ()) :
    ',' ∉ value.toList := by
  have hbytes := List.all_eq_true.mp (identifier_of_validate h).2
  exact notMem_of_bytes (b := 44) (by decide) fun hmem => absurd (hbytes 44 hmem) (by decide)

lemma toList_boards (boards : List String) :
    (",".intercalate boards).toList = [','].intercalate (boards.map String.toList) := by
  rw [String.toList_intercalate]
  rfl

lemma Shape.board (h : Shape m) {board : String} (hmem : board ∈ m.compatibleBoards) :
    validateIdentifier board "compatible board" = .ok () :=
  boards_of_validate h.boards board hmem

lemma Shape.plain_boards (h : Shape m) :
    (",".intercalate m.compatibleBoards).toList ≠ [] ∧ Plain (",".intercalate m.compatibleBoards) := by
  have hchars : ∀ c ∈ (",".intercalate m.compatibleBoards).toList,
      c = ',' ∨ ∃ board ∈ m.compatibleBoards, c ∈ board.toList := fun c hc => by
    rw [toList_boards] at hc
    rcases mem_intercalate hc with hc | ⟨part, hpart, hc⟩
    · exact .inl (List.mem_singleton.mp hc)
    · obtain ⟨board, hboard, rfl⟩ := List.mem_map.mp hpart
      exact .inr ⟨board, hboard, hc⟩
  have hplain : ∀ c : Char, c ≠ ',' → (∀ s, Plain s → c ∉ s.toList) →
      c ∉ (",".intercalate m.compatibleBoards).toList := fun c hne hc hmem => by
    rcases hchars c hmem with hcomma | ⟨board, hboard, hin⟩
    · exact hne hcomma
    · exact hc board (plain_identifier (h.board hboard)) hin
  refine ⟨fun hnil => ?_, hplain '\n' (by decide) fun s hs => hs.newline,
    hplain '\r' (by decide) fun s hs => hs.ret⟩
  cases hboards : m.compatibleBoards with
  | nil => exact absurd h.nonempty (by simp [hboards])
  | cons board boards =>
    have hboard := (identifier_of_validate (h.board (hboards ▸ List.mem_cons_self))).1
    rw [toList_boards, hboards, List.map_cons] at hnil
    cases boards with
    | nil => exact hboard (by simpa using hnil)
    | cons board' boards => simp at hnil

lemma Shape.split_boards (h : Shape m) :
    ((",".intercalate m.compatibleBoards).toList.splitOn ',').map String.ofList =
      m.compatibleBoards := by
  rw [toList_boards, List.splitOn_intercalate]
  · simp [List.map_map, Function.comp_def]
  · intro part hpart
    obtain ⟨board, hboard, rfl⟩ := List.mem_map.mp hpart
    exact comma_notMem (h.board hboard)
  · intro hnil
    exact absurd h.nonempty (by simp [List.map_eq_nil_iff.mp hnil])

lemma Shape.plain_url (h : Shape m) : m.url.toList ≠ [] ∧ Plain m.url := by
  have hurl := h.url
  rw [Bool.and_eq_true, Bool.not_eq_true', List.any_eq_false] at hurl
  refine ⟨fun hnil => ?_, notMem_of_bytes (b := 10) (by decide) fun hmem => hurl.2 10 hmem (by decide),
    notMem_of_bytes (b := 13) (by decide) fun hmem => hurl.2 13 hmem (by decide)⟩
  rw [hnil] at hurl
  exact absurd hurl.1 (by decide)

lemma Shape.plain_arch (h : Shape m) : m.arch.toList ≠ [] ∧ Plain m.arch := by
  have harch := h.arch
  simp only [List.mem_cons, List.not_mem_nil, or_false] at harch
  rcases harch with harch | harch | harch | harch | harch
  all_goals
    rw [harch]
    exact ⟨by decide, by decide, by decide⟩

lemma Shape.plain_sha256 (h : Shape m) : m.sha256.toList ≠ [] ∧ Plain m.sha256 := by
  have hsha := h.sha256
  rw [isSha256Hex, Bool.and_eq_true, beq_iff_eq] at hsha
  refine ⟨fun hnil => ?_, plain_of_bytes hsha.2 (by decide) (by decide)⟩
  rw [String.toList_eq_nil_iff.mp hnil] at hsha
  exact absurd hsha.1 (by decide)

/-! ### The round trip -/

lemma notMem_fieldLine {c : Char} {name value : String} (hname : c ∉ (name ++ "=").toList)
    (hvalue : c ∉ value.toList) : c ∉ fieldLine name value := by
  rw [fieldLine, List.mem_append]
  exact fun h => h.elim hname hvalue

/-- No line of the encoding contains a character that no value contains. -/
lemma Shape.notMem_lines (h : Shape m) {c : Char} (hc : ∀ s, Plain s → c ∉ s.toList)
    (hnames : ∀ name ∈ ["type", "id", "version", "security_version", "arch", "compatible_boards",
      "destination", "sha256", "size", "url"], c ∉ (name ++ "=").toList)
    (hheader : c ∉ manifestHeader.toList) : ∀ l ∈ canonicalLines m, c ∉ l := by
  have hnumber : ∀ n : UInt32, Plain (toString n) := fun n =>
    plain_of_chars (digits_toString n) (by decide) (by decide)
  have hversion : Plain m.version := plain_of_chars (version_of_validate h.version).2 (by decide)
    (by decide)
  have hdestination : Plain m.destination := by
    rw [h.destination]
    exact (plain_destination m.artifactType (plain_identifier h.id)).2
  simp only [List.forall_mem_cons, List.not_mem_nil, false_imp_iff, implies_true, and_true] at hnames
  obtain ⟨htype, hid, hver, hsec, harch, hboards, hdest, hsha, hsize, hurl⟩ := hnames
  simp only [canonicalLines, List.forall_mem_cons, List.not_mem_nil, false_imp_iff, implies_true,
    and_true]
  exact ⟨hheader, notMem_fieldLine htype (hc _ (plain_asStr m.artifactType).2),
    notMem_fieldLine hid (hc _ (plain_identifier h.id)),
    notMem_fieldLine hver (hc _ hversion),
    notMem_fieldLine hsec (hc _ (hnumber m.securityVersion)),
    notMem_fieldLine harch (hc _ h.plain_arch.2),
    notMem_fieldLine hboards (hc _ h.plain_boards.2),
    notMem_fieldLine hdest (hc _ hdestination),
    notMem_fieldLine hsha (hc _ h.plain_sha256.2),
    notMem_fieldLine hsize (hc _ (hnumber m.size)),
    notMem_fieldLine hurl (hc _ h.plain_url.2)⟩

/-- The lines of the encoding are read back. -/
lemma Shape.parseLines_canonicalText (h : Shape m) : parseLines m.canonicalText = .ok m := by
  have hnewline : ∀ l ∈ canonicalLines m, '\n' ∉ l :=
    h.notMem_lines (fun _ hs => hs.newline) (by decide) (by decide)
  have hreturn : ∀ l ∈ canonicalLines m, '\r' ∉ l :=
    h.notMem_lines (fun _ hs => hs.ret) (by decide) (by decide)
  have hlast : m.canonicalText.toList.getLast? = some '\n' := by
    rw [toList_canonicalText, List.getLast?_concat]
  have hcontains : m.canonicalText.toList.contains '\r' = false := by
    rw [List.contains_eq_mem, decide_eq_false_iff_not, toList_canonicalText, List.mem_append]
    rintro (hmem | hmem)
    · rcases mem_intercalate hmem with hmem | ⟨l, hl, hmem⟩
      · exact absurd hmem (by decide)
      · exact hreturn l hl hmem
    · exact absurd hmem (by decide)
  have hsplit : m.canonicalText.toList.dropLast.splitOn '\n' = canonicalLines m := by
    rw [toList_canonicalText, List.dropLast_concat]
    exact List.splitOn_intercalate '\n' hnewline (List.cons_ne_nil _ _)
  have hdestination : m.destination.toList ≠ [] := by
    rw [h.destination]
    exact (plain_destination m.artifactType (plain_identifier h.id)).1
  rw [parseLines, hlast, hcontains, hsplit]
  simp only [canonicalLines, field_fieldLine (plain_asStr m.artifactType).1,
    field_fieldLine (identifier_of_validate h.id).1, field_fieldLine (version_of_validate h.version).1,
    field_fieldLine (toString_ne_nil m.securityVersion), field_fieldLine h.plain_arch.1,
    field_fieldLine h.plain_boards.1, field_fieldLine hdestination, field_fieldLine h.plain_sha256.1,
    field_fieldLine (toString_ne_nil m.size), field_fieldLine h.plain_url.1, ok_bind, parse_asStr,
    parseDecimal_toString, h.split_boards, UInt32.ofNat_toNat]
  rfl

lemma parse_canonicalText (h : m.validateShape = .ok ()) : parse m.canonicalText = .ok m := by
  rw [parse, (shape_of_validateShape h).parseLines_canonicalText, ok_bind, h, ok_bind]
  exact if_neg (not_not.mpr rfl)

/-- The encoding of a manifest that passes the checks is parsed to that manifest. What is parsed is the
encoding of its manifest. So two manifests that pass the checks and have the same signed bytes are
equal, and a manifest is parsed from no other bytes. -/
theorem canonical_encoding :
    (∀ m : ArtifactManifest, m.validateShape = .ok () → parse m.canonicalText = .ok m) ∧
    (∀ s m, parse s = .ok m → m.canonicalBytes = utf8 s) ∧
    (∀ m m' : ArtifactManifest, m.validateShape = .ok () → m'.validateShape = .ok () →
      m.canonicalBytes = m'.canonicalBytes → m = m') ∧
    ∀ s s' m, parse s = .ok m → parse s' = .ok m → s = s' := by
  refine ⟨fun m h => parse_canonicalText h, fun s m h => congrArg utf8 (parse_ok h).2,
    fun m m' h h' hbytes => ?_, fun _ _ _ h h' => parse_injective h h'⟩
  have hsame := parse_canonicalText h
  rw [utf8_injective hbytes, parse_canonicalText h'] at hsame
  exact (Except.ok.inj hsame).symm

def sampleManifest : ArtifactManifest where
  artifactType := .driver
  id := "lora"
  version := "v1.0.10"
  securityVersion := 10
  arch := "esp32s3"
  compatibleBoards := ["tdeck", "tdeck-pro"]
  destination := "drivers/lora.drv.elf"
  sha256 := String.ofList (List.replicate 64 'a')
  size := 4096
  url := "https://h/lora"

theorem sample_canonical_encoding : parse sampleManifest.canonicalText = .ok sampleManifest :=
  canonical_encoding.1 sampleManifest (by decide +kernel)

end ArtifactManifest

end ThistleOS
