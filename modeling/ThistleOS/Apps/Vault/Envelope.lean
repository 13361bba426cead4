import ThistleOS.Apps.Vault.Moments
import ThistleOS.Apps.Vault.Reread

/-!
# The envelope of a saved vault

A file of the current version is accepted exactly if its parameters are the supported ones and its tag is the one of
everything before it. What a save has written is such a file, and a load with the same password gets the text of the
entries from it.
-/

open PowerLoss FileTree

namespace ThistleOS.Vault

/-! ### Padding -/

/-- The length of the padding: at least one byte, also behind full blocks. -/
def padLen (text : List UInt8) : ℕ := (text.length / 16 + 1) * 16 - text.length

lemma padLen_bounds (text : List UInt8) : 1 ≤ padLen text ∧ padLen text ≤ 16 := by
  rw [padLen]
  omega

lemma pkcs7Pad_eq (text : List UInt8) :
    pkcs7Pad text = text ++ List.replicate (padLen text) (UInt8.ofNat (padLen text)) := rfl

lemma length_pkcs7Pad (text : List UInt8) : (pkcs7Pad text).length = (text.length / 16 + 1) * 16 := by
  rw [pkcs7Pad_eq, List.length_append, List.length_replicate, padLen]
  omega

lemma length_pkcs7Pad_mod (text : List UInt8) : (pkcs7Pad text).length % 16 = 0 := by
  rw [length_pkcs7Pad, Nat.mul_mod_left]

/-- The padding is taken off again, whatever the text ends in. -/
lemma pkcs7Unpad_pkcs7Pad (text : List UInt8) : pkcs7Unpad (pkcs7Pad text) = text.length := by
  obtain ⟨hpos, hmax⟩ := padLen_bounds text
  have hlength : (pkcs7Pad text).length = text.length + padLen text := by
    rw [pkcs7Pad_eq, List.length_append, List.length_replicate]
  have hmod := length_pkcs7Pad_mod text
  have hpad : (UInt8.ofNat (padLen text)).toNat = padLen text :=
      UInt8.toNat_ofNat_of_lt' (Nat.lt_of_le_of_lt hmax (by decide))
  have hlast : (pkcs7Pad text).getLast?.getD 0 = UInt8.ofNat (padLen text) := by
    obtain ⟨n, hn⟩ : ∃ n, padLen text = n + 1 := ⟨padLen text - 1, by omega⟩
    rw [pkcs7Pad_eq, hn, List.replicate_succ', ← List.append_assoc, List.getLast?_concat, Option.getD_some]
  have hne : ¬ (UInt8.ofNat (padLen text) = 0 ∨ 16 < UInt8.ofNat (padLen text)) := by
    rw [← UInt8.toNat_inj, UInt8.lt_iff_toNat_lt, hpad]
    show ¬ (padLen text = 0 ∨ 16 < padLen text)
    omega
  have hdrop : (pkcs7Pad text).drop text.length = List.replicate (padLen text) (UInt8.ofNat (padLen text)) := by
    rw [pkcs7Pad_eq, List.drop_left]
  have hstart : (pkcs7Pad text).length - padLen text = text.length := by omega
  rw [pkcs7Unpad, if_neg (by omega)]
  simp only [hlast]
  rw [if_neg hne, hpad, hstart, hdrop, if_pos (by simp)]

lemma take_pkcs7Unpad (text : List UInt8) : (pkcs7Pad text).take (pkcs7Unpad (pkcs7Pad text)) = text := by
  rw [pkcs7Unpad_pkcs7Pad, pkcs7Pad_eq, List.take_left]

/-! ### Slices of a file -/

lemma bytes_ofSlice_take {n : ℕ} {l : List UInt8} (h : n ≤ l.length) : (Arr.ofSlice l : Arr n).bytes = l.take n := by
  have hslice : (Arr.ofSlice l : Arr n) = .ofSlice (l.take n) := by
    funext i
    rw [Arr.ofSlice, Arr.ofSlice, List.getD_eq_getElem?_getD, List.getD_eq_getElem?_getD,
      List.getElem?_take_of_lt i.isLt]
  rw [hslice, Arr.bytes_ofSlice (List.length_take_of_le h)]

/-- The bytes of a file of the current version before its tag. -/
def bodyOf (salt iv : Arr 16) (ciphertext : List UInt8) : List UInt8 :=
    v2Parameters ++ salt.bytes ++ iv.bytes ++ ciphertext

lemma length_bodyOf (salt iv : Arr 16) (ciphertext : List UInt8) :
    (bodyOf salt iv ciphertext).length = v2HeaderLen + ciphertext.length := by
  have hparameters : v2Parameters.length = 20 := by decide
  rw [bodyOf, List.length_append, List.length_append, List.length_append, Arr.length_bytes, Arr.length_bytes,
    hparameters]
  rfl

/-- A file of the current version that a password opens: with the supported parameters, and with the tag of all the
bytes from which the salt, the vector and the ciphertext are taken. -/
structure Authentic (env : Env) (masterPw : CStr) (filebuf : List UInt8) (opened : Opened) : Prop where
  isV2 : opened.isV2 = true
  key : deriveKeyV2 env masterPw opened.fileSalt = some opened.candidateKey
  sealed : ∃ (iv : Arr 16) (ciphertext : List UInt8) (mac : Arr 32) (padded : List UInt8),
    filebuf = bodyOf opened.fileSalt iv ciphertext ++ mac.bytes ∧
    0 < ciphertext.length ∧ ciphertext.length % 16 = 0 ∧
    env.hmacSha256 opened.candidateKey (bodyOf opened.fileSalt iv ciphertext) = some mac ∧
    env.aes256CbcDecrypt opened.candidateKey iv ciphertext = some padded ∧
    0 < pkcs7Unpad padded ∧ opened.plaintext = .ofBuffer (padded.take (pkcs7Unpad padded))

variable {env : Env} {masterPw : CStr} {filebuf : List UInt8} {opened : Opened}

lemma validV2Header_bodyOf (salt iv : Arr 16) (ciphertext tail : List UInt8) :
    validV2Header (bodyOf salt iv ciphertext ++ tail) = true := by
  have hlength := length_bodyOf salt iv ciphertext
  rw [validV2Header, Bool.and_eq_true, decide_eq_true_eq, List.isPrefixOf_iff_prefix, List.length_append]
  refine ⟨by omega, ?_⟩
  simp only [bodyOf, List.append_assoc]
  exact List.prefix_append _ _

lemma magic_bodyOf (salt iv : Arr 16) (ciphertext tail : List UInt8) :
    vaultMagic.isPrefixOf (bodyOf salt iv ciphertext ++ tail) = true := by
  rw [List.isPrefixOf_iff_prefix]
  simp only [bodyOf, v2Parameters, List.append_assoc]
  exact List.prefix_append _ _

/-- The parts of a file, cut at the offsets of the header. -/
lemma slices_bodyOf (salt iv : Arr 16) (ciphertext : List UInt8) (mac : Arr 32) :
    (Arr.ofSlice ((bodyOf salt iv ciphertext ++ mac.bytes).drop v2SaltOffset) : Arr 16) = salt ∧
    (Arr.ofSlice ((bodyOf salt iv ciphertext ++ mac.bytes).drop v2IvOffset) : Arr 16) = iv ∧
    (bodyOf salt iv ciphertext).drop v2HeaderLen = ciphertext := by
  have hparameters : v2SaltOffset = v2Parameters.length := by decide
  have hsalt : v2IvOffset = (v2Parameters ++ salt.bytes).length := by
    rw [List.length_append, Arr.length_bytes, ← hparameters]
    rfl
  have hiv : v2HeaderLen = (v2Parameters ++ salt.bytes ++ iv.bytes).length := by
    rw [List.length_append, Arr.length_bytes, ← hsalt]
    rfl
  refine ⟨?_, ?_, ?_⟩
  · rw [hparameters, bodyOf, List.append_assoc, List.append_assoc, List.append_assoc, List.drop_left,
      Arr.ofSlice_append]
  · rw [hsalt, bodyOf, List.append_assoc, List.append_assoc, List.drop_left, Arr.ofSlice_append]
  · rw [hiv, bodyOf, List.drop_left]

/-- Three cuts leave no gap. -/
lemma append_slices (l : List UInt8) (a m n : ℕ) :
    l = l.take a ++ (l.drop a).take m ++ (l.drop (a + m)).take n ++ l.drop (a + m + n) := by
  rw [← List.drop_drop (i := n), List.append_assoc, List.take_append_drop, ← List.drop_drop (i := m), List.append_assoc,
    List.take_append_drop, List.take_append_drop]

lemma bytes_slice_take {n a m : ℕ} {l : List UInt8} (hm : a + n ≤ m) (hl : m ≤ l.length) :
    (Arr.ofSlice (l.drop a) : Arr n).bytes = ((l.take m).drop a).take n := by
  rw [bytes_ofSlice_take (by rw [List.length_drop]; omega), List.drop_take, List.take_take, Nat.min_eq_left (by omega)]

/-- A file of the current version is cut up at the offsets of its header without a gap. -/
lemma eq_bodyOf (hvalid : validV2Header filebuf = true) (hlength : v2HeaderLen + 16 + hmacLen ≤ filebuf.length) :
    filebuf.take (filebuf.length - hmacLen) = bodyOf (.ofSlice (filebuf.drop v2SaltOffset))
      (.ofSlice (filebuf.drop v2IvOffset)) ((filebuf.take (filebuf.length - hmacLen)).drop v2HeaderLen) := by
  have hheader : v2HeaderLen = 52 := rfl
  have hmac : hmacLen = 32 := rfl
  have hsalt : v2SaltOffset = 20 := rfl
  have hiv : v2IvOffset = 36 := rfl
  have hparameters : (filebuf.take (filebuf.length - hmacLen)).take 20 = v2Parameters := by
    have hwithin := List.isPrefixOf_iff_prefix.mp (Bool.and_eq_true _ _ ▸ hvalid).2
    have h20 : v2Parameters.length = 20 := by decide
    rw [List.take_take, Nat.min_eq_left (by omega), ← h20]
    exact (List.prefix_iff_eq_take.mp hwithin).symm
  have hle : filebuf.length - hmacLen ≤ filebuf.length := Nat.sub_le _ _
  rw [bodyOf, bytes_slice_take (by omega) hle, bytes_slice_take (by omega) hle, ← hparameters]
  exact append_slices _ 20 16 16

/-- What is opened says by its magic of which version it is. -/
lemma isV2_of_openFile (h : openFile env masterPw filebuf = .ok opened) :
    opened.isV2 = vaultMagic.isPrefixOf filebuf := by
  unfold openFile at h
  generalize vaultMagic.isPrefixOf filebuf = isV2 at h ⊢
  simp only [] at h
  generalize (if isV2 = true then deriveKeyV2 env masterPw _ else deriveKeyLegacy env masterPw _) = key at h
  cases key with
  | none =>
    split_ifs at h
  | some candidateKey =>
    simp only [] at h
    generalize env.aes256CbcDecrypt candidateKey _ _ = plaintext at h
    cases plaintext with
    | none => split_ifs at h
    | some plaintext =>
      simp only [] at h
      split_ifs at h
      all_goals exact congrArg Opened.isV2 (Except.ok.inj h).symm

lemma eq_bytes_of_hmacVerify {key : Arr 32} {data expected : List UInt8} (h : env.hmacVerify key data expected = true) :
    ∃ mac, env.hmacSha256 key data = some mac ∧ expected = mac.bytes := by
  rw [Env.hmacVerify] at h
  cases hmac : env.hmacSha256 key data with
  | none =>
    rw [hmac] at h
    cases h
  | some mac =>
    rw [hmac] at h
    exact ⟨mac, rfl, (beq_iff_eq.mp h).symm⟩

lemma authentic_of_openFile (h : openFile env masterPw filebuf = .ok opened) (hv2 : opened.isV2 = true) :
    Authentic env masterPw filebuf opened := by
  have hmagic : vaultMagic.isPrefixOf filebuf = true := (isV2_of_openFile h).symm.trans hv2
  rw [openFile, hmagic] at h
  simp only [Bool.true_and, if_true] at h
  cases hkey : deriveKeyV2 env masterPw (.ofSlice (filebuf.drop v2SaltOffset)) with
  | none =>
    rw [hkey] at h
    split_ifs at h
  | some candidateKey =>
    rw [hkey] at h
    simp only [] at h
    cases hplain : env.aes256CbcDecrypt candidateKey (.ofSlice (filebuf.drop v2IvOffset))
      ((filebuf.take (filebuf.length - hmacLen)).drop v2HeaderLen) with
    | none =>
      rw [hplain] at h
      split_ifs at h
    | some padded =>
      rw [hplain] at h
      simp only [] at h
      split_ifs at h with hvalid hlength hblocks hverify hmemory hunpad
      obtain rfl := Except.ok.inj h
      rw [Bool.not_eq_true', Bool.not_eq_false] at hvalid hverify
      obtain ⟨hnonempty, hmod⟩ := not_or.mp hblocks
      obtain ⟨mac, hmac, htag⟩ := eq_bytes_of_hmacVerify hverify
      have hbody := eq_bodyOf hvalid (Nat.le_of_not_lt hlength)
      refine ⟨rfl, hkey, _, _, mac, padded, ?_, Nat.pos_of_ne_zero hnonempty, not_not.mp hmod, ?_, hplain,
        Nat.pos_of_ne_zero hunpad, rfl⟩
      · rw [← hbody, ← htag, List.take_append_drop]
      · rw [← hbody, hmac]

/-- As long as there is memory, an authentic file is opened. -/
lemma openFile_of_authentic (h : Authentic env masterPw filebuf opened) (hmemory : env.malloc .plaintext = true) :
    openFile env masterPw filebuf = .ok opened := by
  obtain ⟨isV2, fileSalt, candidateKey, plaintext⟩ := opened
  obtain ⟨rfl, hkey, iv, ciphertext, mac, padded, rfl, hpos, hmod, hmac, hplain, hunpad, rfl⟩ := h
  obtain ⟨hsalt, hiv, hciphertext⟩ := slices_bodyOf fileSalt iv ciphertext mac
  have hlength := length_bodyOf fileSalt iv ciphertext
  have htotal : (bodyOf fileSalt iv ciphertext ++ mac.bytes).length =
      (bodyOf fileSalt iv ciphertext).length + hmacLen := by
    rw [List.length_append, Arr.length_bytes]
    rfl
  have hbody : (bodyOf fileSalt iv ciphertext).length + hmacLen - hmacLen = (bodyOf fileSalt iv ciphertext).length :=
    Nat.add_sub_cancel _ _
  have hroom : ¬ (bodyOf fileSalt iv ciphertext).length + hmacLen < v2HeaderLen + 16 + hmacLen := by omega
  have hblocks : ¬ (ciphertext.length = 0 ∨ ciphertext.length % 16 ≠ 0) := by omega
  have hverify : env.hmacVerify candidateKey (bodyOf fileSalt iv ciphertext) mac.bytes = true := by
    rw [Env.hmacVerify, hmac]
    exact beq_self_eq_true _
  rw [openFile, magic_bodyOf, htotal, hbody, List.take_left, List.drop_left]
  simp only [if_true, validV2Header_bodyOf, Bool.not_true, Bool.and_false, Bool.false_eq_true, if_false,
    if_neg hroom, hsalt, hiv, hciphertext, if_neg hblocks, hkey, hverify, hmemory, hplain, if_neg (Nat.ne_of_gt hunpad)]

/-! ### What a save has sealed -/

/-- The text of the entries. -/
def textOf (vault : SVault) : CStr := ⟨entriesToJson vault, noNul_entriesToJson vault⟩

lemma textOf_eq (vault : SVault) : textOf vault = .ofBuffer (entriesToJson vault) := by
  have hbytes := ofBuffer_of_noNul (noNul_entriesToJson vault)
  cases hbuffer : CStr.ofBuffer (entriesToJson vault) with
  | mk bytes noNul =>
    rw [hbuffer] at hbytes
    subst hbytes
    rfl

/-- The kernel of a load undoes what the kernel of a save has done: the cipher is undone under the same key and
vector, and keeps the length of whole blocks; the tags are the same. -/
structure Reopens (env env' : Env) : Prop where
  cipher : ∀ key iv text ciphertext, env.aes256CbcEncrypt key iv text = some ciphertext → text.length % 16 = 0 →
    ciphertext.length = text.length ∧ env'.aes256CbcDecrypt key iv ciphertext = some text
  mac : env'.hmacSha256 = env.hmacSha256

/-- The key of the vault is the one of the password. -/
def Unlocked (env : Env) (masterPw : CStr) (vault : SVault) : Prop :=
  deriveKeyV2 env masterPw vault.salt = some vault.derivedKey

lemma authentic_of_sealVault {env env' : Env} {vault : SVault} (hseal : sealVault env vault = .ok filebuf)
    (henv : Reopens env env') (hkey : Unlocked env' masterPw vault) :
    Authentic env' masterPw filebuf ⟨true, vault.salt, vault.derivedKey, textOf vault⟩ := by
  rw [sealVault] at hseal
  cases hiv : env.randomIv with
  | none =>
    rw [hiv] at hseal
    split_ifs at hseal
  | some iv =>
    rw [hiv] at hseal
    simp only [] at hseal
    cases hcipher : env.aes256CbcEncrypt vault.derivedKey iv (pkcs7Pad (entriesToJson vault)) with
    | none =>
      rw [hcipher] at hseal
      split_ifs at hseal
    | some ciphertext =>
      rw [hcipher] at hseal
      simp only [] at hseal
      cases hmac : env.hmacSha256 vault.derivedKey (v2Parameters ++ vault.salt.bytes ++ iv.bytes ++ ciphertext) with
      | none =>
        rw [hmac] at hseal
        split_ifs at hseal
      | some mac =>
        rw [hmac] at hseal
        simp only [] at hseal
        split_ifs at hseal
        obtain rfl := Except.ok.inj hseal
        obtain ⟨hlength, hplain⟩ := henv.cipher _ _ _ _ hcipher (length_pkcs7Pad_mod _)
        have hblocks := length_pkcs7Pad (entriesToJson vault)
        have htext : 0 < (entriesToJson vault).length := by
          rw [entriesToJson, List.length_append]
          exact Nat.lt_of_lt_of_le (by decide : 0 < (utf8 "]").length) (Nat.le_add_left _ _)
        refine ⟨rfl, hkey, iv, ciphertext, mac, _, rfl, by omega, by omega, ?_, hplain, ?_, ?_⟩
        · rw [henv.mac]
          exact hmac
        · rwa [pkcs7Unpad_pkcs7Pad]
        · rw [take_pkcs7Unpad]
          exact textOf_eq vault

/-! ### A save and the load after it -/

lemma ne_espOk_of_sealVault {vault : SVault} {rc : EspErr} (h : sealVault env vault = .error rc) : rc ≠ espOk := by
  rw [sealVault] at h
  generalize env.randomIv = iv at h
  cases iv with
  | none =>
    split_ifs at h <;> obtain rfl := Except.error.inj h <;> decide
  | some iv =>
    simp only [] at h
    generalize env.aes256CbcEncrypt _ iv _ = ciphertext at h
    cases ciphertext with
    | none => split_ifs at h <;> obtain rfl := Except.error.inj h <;> decide
    | some ciphertext =>
      simp only [] at h
      generalize env.hmacSha256 _ _ = mac at h
      cases mac with
      | none => split_ifs at h <;> obtain rfl := Except.error.inj h <;> decide
      | some mac => split_ifs at h <;> obtain rfl := Except.error.inj h <;> decide

/-- A save that reports success has put what it sealed under the name of the vault. -/
def Sealed (env : Env) (vault : SVault) (rc : EspErr) (s : State) : Prop :=
  rc = espOk → ∃ filebuf, sealVault env vault = .ok filebuf ∧ s.1.node vaultPath = some (.file filebuf)

lemma wp_report_sealed {vault : SVault} {h : History} {x : VaultProg EspErr} {s : State}
    (hseal : sealVault env vault = .ok filebuf) (hx : x.wp device (Stored h filebuf) Kept s) :
    (x >>= report filebuf).wp device (Sealed env vault) (fun _ => True) s := by
  rw [Prog.wp_bind]
  refine Prog.wp_mono ?_ (fun _ _ => trivial) hx
  rintro rc ⟨t, h'⟩ ⟨-, hstored⟩
  rw [report, Prog.wp_bind]
  apply wp_note trivial
  intro hrc
  rw [if_pos hrc] at hstored
  exact ⟨filebuf, hseal, hstored⟩

lemma wp_vaultSave_sealed (env : Env) (vault : SVault) (t : Tree) :
    (vaultSave env vault).wp device (Sealed env vault) (fun _ => True) (t, .empty) := by
  have hs : Installed (t, .empty) := installed_of_unsaved rfl rfl t
  cases hseal : sealVault env vault with
  | error rc =>
    rw [vaultSave, Prog.wp_bind]
    apply wp_ensureConfigDir (fun _ _ => trivial)
    intro t' ha
    rw [hseal]
    exact fun hrc => absurd hrc (ne_espOk_of_sealVault hseal)
  | ok filebuf =>
    rw [vaultSave_eq hseal, Prog.wp_bind]
    apply wp_prepare (fun _ _ => trivial) (fun _ _ => trivial)
    · intro rc t' hrc ha
      exact wp_report_sealed hseal (wp_storeTemp_failed (hs.aside ha).kept hrc)
    · intro t' ha htemp
      exact wp_report_sealed hseal (wp_storeTemp (hs.aside ha) htemp)

/-- The vault after a load has opened a file of the current version. -/
def SVault.reopen (vault : SVault) (opened : Opened) : SVault :=
  { vault.fill opened with salt := opened.fileSalt, derivedKey := opened.candidateKey }

section Load

variable {t : Tree} {h : History} {vault : SVault}

lemma perform_ensureConfigDir (t : Tree) (h : History) :
    ∃ t', Aside t t' ∧ ensureConfigDir.perform device (t, h) = ((), (t', h)) := by
  have hwp : ensureConfigDir.wp device (fun _ s => Aside t s.1 ∧ s.2 = h) (fun _ => True) (t, h) :=
    wp_ensureConfigDir (fun _ _ => trivial) fun t' ha => ⟨ha, rfl⟩
  obtain ⟨ha, hh⟩ := Prog.wp_perform hwp
  exact ⟨_, ha, Prod.ext rfl (Prod.ext rfl hh)⟩

lemma exists_of_node (hnode : t.node vaultPath = some (.file filebuf)) : t.exists? vaultPath = true := by
  rw [exists?, hnode]
  rfl

/-- A load that nothing disturbs comes to the file that lies under the name of the vault. -/
lemma perform_vaultLoad (hnode : t.node vaultPath = some (.file filebuf)) :
    ∃ t', t'.node vaultPath = some (.file filebuf) ∧
      (vaultLoad env masterPw vault).perform device (t, h) = (loadFile env masterPw vault).perform device (t', h) := by
  obtain ⟨t', ha, hperform⟩ := perform_ensureConfigDir t h
  have hnode' : t'.node vaultPath = some (.file filebuf) := ha.1.trans hnode
  have hstat : (stat vaultPath).perform device (t', h) = (true, (t', h)) :=
    Prod.ext (exists_of_node hnode') rfl
  refine ⟨t', hnode', ?_⟩
  rw [vaultLoad, Prog.perform_bind, hperform, Prog.perform_bind, recoverInterruptedVaultWrite, Prog.perform_bind, hstat]
  show (loadOrCreate env masterPw vault).perform device (t', h) = _
  rw [loadOrCreate, Prog.perform_bind, hstat]
  rfl

lemma perform_loadFile (hnode : t.node vaultPath = some (.file filebuf)) (hmemory : ∀ b, env.malloc b = true)
    (hlength : legacyHeaderLen + 16 + hmacLen ≤ filebuf.length) (hopen : openFile env masterPw filebuf = .ok opened)
    (hv2 : opened.isV2 = true) :
    (loadFile env masterPw vault).perform device (t, h) = ((espOk, vault.reopen opened), (t, h)) := by
  have hread : (fread vaultPath).perform device (t, h) = (some filebuf, (t, h)) := by
    refine Prod.ext ?_ rfl
    show Except.toOption ((machine String UInt8).perform (.read vaultPath) t).1 = some filebuf
    rw [perform_read_ok (readFile_of_file hnode)]
    rfl
  have hfile : (readFile env masterPw).perform device (t, h) = (.ok opened, (t, h)) := by
    rw [readFile, Prog.perform_bind, hread]
    simp only [if_neg (Nat.not_lt_of_le hlength), hmemory, Bool.not_true, Bool.false_eq_true, if_false,
      Prog.perform_bind, hread, hopen]
    rfl
  rw [loadFile, Prog.perform_bind, hfile]
  simp only [hv2, if_true]
  rfl

lemma wp_fread_of_node {Q : Option (List UInt8) → State → Prop} (hnode : t.node vaultPath = some (.file filebuf))
    (hnone : Q none (t, h)) (hsome : Q (some filebuf) (t, h)) :
    (fread vaultPath).wp device Q (fun _ => True) (t, h) := by
  apply Prog.wp_call_of trivial
  · show Q (Except.toOption ((machine String UInt8).perform (.read vaultPath) t).1) (t, h)
    rw [perform_read_ok (readFile_of_file hnode)]
    exact hsome
  · exact fun _ _ _ => trivial
  · rintro (f | f) r s' hd
    · obtain ⟨hr, rfl⟩ := Prod.mk.inj hd
      change (if f.cutsPower then none else some (.error (.ofKind .other))) = some r at hr
      split at hr <;> cases hr
      exact hnone
    · exact f.elim

lemma ne_espOk_of_openFile {rc : EspErr} (h : openFile env masterPw filebuf = .error rc) : rc ≠ espOk := by
  unfold openFile at h
  generalize vaultMagic.isPrefixOf filebuf = isV2 at h
  simp only [] at h
  generalize (if isV2 = true then deriveKeyV2 env masterPw _ else deriveKeyLegacy env masterPw _) = key at h
  cases key with
  | none => split_ifs at h <;> obtain rfl := Except.error.inj h <;> decide
  | some candidateKey =>
    simp only [] at h
    generalize env.aes256CbcDecrypt candidateKey _ _ = plaintext at h
    cases plaintext with
    | none => split_ifs at h <;> obtain rfl := Except.error.inj h <;> decide
    | some plaintext =>
      simp only [] at h
      split_ifs at h <;> obtain rfl := Except.error.inj h <;> decide

/-- A load that reports success with a file of the current version has opened it. -/
def Accepts (env : Env) (masterPw : CStr) (filebuf : List UInt8) (vault : SVault) (r : EspErr × SVault) : Prop :=
  r.1 = espOk → ∃ opened, Authentic env masterPw filebuf opened ∧ r.2 = vault.reopen opened

/-- Each operation of the load may fail. -/
lemma wp_loadFile_accepts (hnode : t.node vaultPath = some (.file filebuf))
    (hmagic : vaultMagic.isPrefixOf filebuf = true) :
    (loadFile env masterPw vault).wp device (fun r _ => Accepts env masterPw filebuf vault r) (fun _ => True)
        (t, h) := by
  have hrefused : ∀ rc : EspErr, rc ≠ espOk → Accepts env masterPw filebuf vault (rc, vault) :=
    fun rc hrc h => absurd h hrc
  rw [loadFile, Prog.wp_bind, readFile, Prog.wp_bind]
  apply wp_fread_of_node hnode (hrefused _ (by decide))
  dsimp only
  split
  · exact hrefused _ (by decide)
  · split
    · exact hrefused _ (by decide)
    · rw [Prog.wp_bind]
      apply wp_fread_of_node hnode (hrefused _ (by decide))
      simp only [Prog.pure_eq, Prog.wp_pure]
      cases hopen : openFile env masterPw filebuf with
      | error rc => exact hrefused rc (ne_espOk_of_openFile hopen)
      | ok opened =>
        have hv2 : opened.isV2 = true := (isV2_of_openFile hopen).trans hmagic
        simp only [hv2, if_true, Prog.wp_pure]
        exact fun _ => ⟨opened, authentic_of_openFile hopen hv2, rfl⟩

lemma wp_vaultLoad_accepts (hnode : t.node vaultPath = some (.file filebuf))
    (hmagic : vaultMagic.isPrefixOf filebuf = true) :
    (vaultLoad env masterPw vault).wp device (fun r _ => Accepts env masterPw filebuf vault r) (fun _ => True)
        (t, h) := by
  rw [vaultLoad, Prog.wp_bind]
  apply wp_ensureConfigDir (fun _ _ => trivial)
  intro t' ha
  have hnode' : t'.node vaultPath = some (.file filebuf) := ha.1.trans hnode
  rw [Prog.wp_bind, recoverInterruptedVaultWrite, Prog.wp_bind]
  apply wp_stat trivial
  rw [exists_of_node hnode']
  rw [if_pos rfl, Prog.pure_eq, Prog.wp_pure, loadOrCreate, Prog.wp_bind]
  apply wp_stat trivial
  rw [exists_of_node hnode', if_pos rfl]
  exact wp_loadFile_accepts hnode' hmagic

/-- What follows a program holds if it holds wherever the program may end. -/
lemma wp_bind_any {α β : Type} {x : VaultProg α} {f : α → VaultProg β} {Q : β → State → Prop}
    (hf : ∀ a s, (f a).wp device Q (fun _ => True) s) (s : State) : (x >>= f).wp device Q (fun _ => True) s := by
  rw [Prog.wp_bind]
  exact Prog.wp_mono (fun a s' _ => hf a s') (fun _ _ => trivial) (Prog.wp_trivial (M := device))

/-- What a load that reports success leaves in memory is unlocked with its password. -/
def Leaves (env : Env) (masterPw : CStr) (r : EspErr × SVault) : Prop := r.1 = espOk → Unlocked env masterPw r.2

lemma leaves_of_ne {rc : EspErr} (hrc : rc ≠ espOk) (vault : SVault) : Leaves env masterPw (rc, vault) :=
  fun h => absurd h hrc

lemma wp_firstUse_leaves (s : State) :
    (firstUse env masterPw vault).wp device (fun r _ => Leaves env masterPw r) (fun _ => True) s := by
  apply wp_bind_any
  intro _ s'
  cases env.randomSalt with
  | none => exact leaves_of_ne (by decide) _
  | some salt =>
    simp only []
    cases hkey : deriveKeyV2 env masterPw salt with
    | none => exact leaves_of_ne (by decide) _
    | some key =>
      apply wp_bind_any
      intro rc s''
      split_ifs with hrc
      · exact fun _ => hkey
      · exact leaves_of_ne hrc _

lemma wp_migrate_leaves (vault : SVault) (s : State) :
    (migrate env masterPw vault).wp device (fun r _ => Leaves env masterPw r) (fun _ => True) s := by
  rw [migrate]
  cases env.randomSalt with
  | none => exact leaves_of_ne (by decide) _
  | some salt =>
    simp only []
    cases hkey : deriveKeyV2 env masterPw salt with
    | none => exact leaves_of_ne (by decide) _
    | some key =>
      apply wp_bind_any
      intro rc s''
      split_ifs with hrc
      · exact fun _ => hkey
      · exact leaves_of_ne (by decide) _

/-- What a reading comes to. -/
def ReadFrom (env : Env) (masterPw : CStr) (r : Except EspErr Opened) : Prop :=
  (∃ rc, r = .error rc ∧ rc ≠ espOk) ∨ ∃ filebuf opened, r = .ok opened ∧ openFile env masterPw filebuf = .ok opened

lemma wp_readFile_readFrom (s : State) :
    (readFile env masterPw).wp device (fun r _ => ReadFrom env masterPw r) (fun _ => True) s := by
  apply wp_bind_any
  intro sized s₁
  cases sized with
  | none => exact .inl ⟨_, rfl, by decide⟩
  | some sized =>
    simp only []
    split_ifs
    · exact .inl ⟨_, rfl, by decide⟩
    · exact .inl ⟨_, rfl, by decide⟩
    · apply wp_bind_any
      intro r s₂
      cases r with
      | none => exact .inl ⟨_, rfl, by decide⟩
      | some filebuf =>
        show ReadFrom env masterPw (openFile env masterPw filebuf)
        cases hopen : openFile env masterPw filebuf with
        | error rc => exact .inl ⟨rc, rfl, ne_espOk_of_openFile hopen⟩
        | ok opened => exact .inr ⟨filebuf, opened, rfl, hopen⟩

lemma wp_loadFile_leaves (s : State) :
    (loadFile env masterPw vault).wp device (fun r _ => Leaves env masterPw r) (fun _ => True) s := by
  rw [loadFile, Prog.wp_bind]
  refine Prog.wp_mono ?_ (fun _ _ => trivial) (wp_readFile_readFrom s)
  rintro r s' (⟨rc, rfl, hrc⟩ | ⟨filebuf, opened, rfl, hopen⟩)
  · exact leaves_of_ne hrc _
  · simp only []
    split_ifs with hv2
    · exact fun _ => (authentic_of_openFile hopen hv2).key
    · exact wp_migrate_leaves _ s'

/-- A load that reports success leaves the key of its password, under the salt of the vault. -/
lemma wp_vaultLoad_leaves (s : State) :
    (vaultLoad env masterPw vault).wp device (fun r _ => Leaves env masterPw r) (fun _ => True) s := by
  apply wp_bind_any
  intro _ s₁
  apply wp_bind_any
  intro _ s₂
  apply wp_bind_any
  intro there s₃
  cases there with
  | false => exact wp_firstUse_leaves s₃
  | true => exact wp_loadFile_leaves s₃

end Load

lemma Authentic.length_le (h : Authentic env masterPw filebuf opened) :
    legacyHeaderLen + 16 + hmacLen ≤ filebuf.length := by
  obtain ⟨iv, ciphertext, mac, padded, rfl, hpos, hmod, -⟩ := h.sealed
  have hbody := length_bodyOf opened.fileSalt iv ciphertext
  have hheaders : legacyHeaderLen + 20 = v2HeaderLen := rfl
  have hmac : hmacLen = 32 := rfl
  rw [List.length_append, Arr.length_bytes]
  omega

/-- A load that reports success leaves a vault whose key is the one of the password. -/
def Unlocks (env : Env) : Prop :=
  ∀ masterPw vault₀ cs s vault rest s',
    (vaultLoad env masterPw vault₀).run device cs s = (.done (espOk, vault) rest, s') → Unlocked env masterPw vault

/-- Where a save of such a vault has reported success, whatever happened to its operations, the file under the name
of the vault opens with the text of the entries, and the next load makes its entries from this text. -/
def ReadsBack (env env' : Env) : Prop :=
  ∀ masterPw vault, Unlocked env' masterPw vault → ∀ t cs rest s vault₀,
    (vaultSave env vault).run device cs (t, .empty) = (.done espOk rest, s) →
      ∃ filebuf, s.1.node vaultPath = some (.file filebuf) ∧
        openFile env' masterPw filebuf = .ok ⟨true, vault.salt, vault.derivedKey, textOf vault⟩ ∧
        ((vaultLoad env' masterPw vault₀).perform device s).1 =
          (espOk, vault₀.reopen ⟨true, vault.salt, vault.derivedKey, textOf vault⟩)

/-- A load reports success with a file of the current version only if it is authentic, whatever happens to its
operations. -/
def OnlyAuthentic (env : Env) : Prop :=
  ∀ masterPw t h filebuf vault₀ cs vault rest s, t.node vaultPath = some (.file filebuf) →
    vaultMagic.isPrefixOf filebuf = true →
    (vaultLoad env masterPw vault₀).run device cs (t, h) = (.done (espOk, vault) rest, s) →
    ∃ opened, Authentic env masterPw filebuf opened ∧ vault = vault₀.reopen opened

/-- The envelope is read back through the path of the current version, and nothing else passes for one. -/
theorem envelope_roundTrip {env env' : Env} (henv : Reopens env env') (hmemory : ∀ b, env'.malloc b = true) :
    Unlocks env' ∧ ReadsBack env env' ∧ OnlyAuthentic env' := by
  refine ⟨?_, ?_, ?_⟩
  · intro masterPw vault₀ cs s vault rest s' hrun
    exact Prog.wp_run_done (wp_vaultLoad_leaves s) hrun rfl
  · rintro masterPw vault hkey t cs rest ⟨t', h'⟩ vault₀ hrun
    obtain ⟨filebuf, hseal, hnode⟩ := Prog.wp_run_done (wp_vaultSave_sealed env vault t) hrun rfl
    have hauthentic := authentic_of_sealVault hseal henv hkey
    have hopen := openFile_of_authentic hauthentic (hmemory _)
    refine ⟨filebuf, hnode, hopen, ?_⟩
    obtain ⟨t'', hnode'', hload⟩ := @perform_vaultLoad env' masterPw filebuf t' h' vault₀ hnode
    rw [hload, perform_loadFile hnode'' hmemory hauthentic.length_le hopen rfl]
  · intro masterPw t h filebuf vault₀ cs vault rest s hnode hmagic hrun
    exact Prog.wp_run_done (wp_vaultLoad_accepts hnode hmagic) hrun rfl

theorem envelope_roundTrip_sample : Unlocks sampleEnv ∧ ReadsBack sampleEnv sampleEnv ∧ OnlyAuthentic sampleEnv := by
  have henv : Reopens sampleEnv sampleEnv := by
    refine ⟨fun key iv text ciphertext h _ => ?_, rfl⟩
    obtain rfl := Option.some.inj h
    exact ⟨rfl, rfl⟩
  exact envelope_roundTrip henv fun _ => rfl

end ThistleOS.Vault
