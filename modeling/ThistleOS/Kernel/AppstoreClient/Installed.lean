import ThistleOS.Kernel.AppstoreClient.Install

/-!
# What an installation leaves

However an installation ends, the destination holds the old pair or the new one. Only a payload that
comes without a signature can end up beside the signature of another one.
-/

open PowerLoss FileTree

namespace ThistleOS.AppstoreClient

/-! ### Ways to end -/

section Ends

variable {ε ε' α γ : Type}

/-- Whatever fails from the tree `t` on, the action returns with `Q` or throws with `E`. -/
def Ends (x : Act ε ((fsSig String UInt8).sum Sig.none) α) (Q : α → Tree → Prop) (E : Tree → Prop)
    (t : Tree) : Prop :=
  ∀ b, Act.wp storeWorld x (fun a s => Q a s.1.1) (fun _ s => E s.1.1) (fun _ => True) ((t, ()), b)

variable {x : Act ε ((fsSig String UInt8).sum Sig.none) α} {Q Q' : α → Tree → Prop}
  {E E' : Tree → Prop} {t : Tree}

lemma ends_pure {a : α} (h : Q a t) :
    Ends (pure a : Act ε ((fsSig String UInt8).sum Sig.none) α) Q E t := fun _ => h

lemma ends_throw {e : ε} (h : E t) :
    Ends (throw e : Act ε ((fsSig String UInt8).sum Sig.none) α) Q E t := fun _ => h

lemma Ends.mono (h : Ends x Q E t) (hQ : ∀ a t', Q a t' → Q' a t') (hE : ∀ t', E t' → E' t') :
    Ends x Q' E' t := fun b =>
  Act.wp_mono (fun a (s : (Tree × Unit) × Bool) => hQ a s.1.1) (fun _ s => hE s.1.1) (fun _ h => h)
    (h b)

lemma Ends.bind {f : α → Act ε ((fsSig String UInt8).sum Sig.none) γ} {Q' : γ → Tree → Prop}
    (h : Ends x Q E t) (hf : ∀ a t', Q a t' → Ends (f a) Q' E t') : Ends (x >>= f) Q' E t := by
  intro b
  rw [Act.wp_bind]
  exact Act.wp_mono (fun a s hQ => hf a s.1.1 hQ s.2) (fun _ _ h => h) (fun _ h => h) (h b)

lemma ends_attempt {Q : Except ε α → Tree → Prop}
    (h : Ends x (fun a => Q (.ok a)) (fun t' => ∀ e, Q (.error e) t') t) :
    Ends x.attempt Q E t := by
  intro b
  rw [Act.wp_attempt]
  exact Act.wp_mono (fun _ _ h => h) (fun e _ h => h e) (fun _ h => h) (h b)

lemma ends_liftM {r : Except ε α} (hok : ∀ a, r = .ok a → Q a t) (herr : ∀ e, r = .error e → E t) :
    Ends (liftM r : Act ε ((fsSig String UInt8).sum Sig.none) α) Q E t := by
  cases r with
  | ok a => exact fun _ => hok a rfl
  | error e => exact fun _ => herr e rfl

lemma ends_orCode {code : EspErr} {x : StoreAct α} (h : Ends x Q E t) : Ends (orCode code x) Q E t :=
  fun b => Act.wp_mapError.mpr (h b)

lemma ends_orEspError {r : Except StreamValidationError α} (hok : ∀ a, r = .ok a → Q a t) (herr : E t) :
    Ends (orEspError r) Q E t :=
  ends_liftM (fun a h => hok a (Except.mapError_ok h)) fun _ _ => herr

lemma ends_update {u : FsUpdate String UInt8} {Q : Unit → Tree → Prop}
    (hok : ∀ t', t.effect u = .ok t' → Q () t') (herr : ∀ t', t.Left u t' → E t') :
    Ends (update u : StoreAct Unit) Q E t := fun _ =>
  wp_update (fun _ _ => trivial) hok (fun _ _ => herr t (.refl t u)) fun _ t' hl => herr t' hl

lemma ends_fileExists {p : Path} {Q : Bool → Tree → Prop} (h : Q (t.exists? p) t) :
    Ends (fileExists p : StoreAct Bool) Q E t := fun _ => wp_fileExists trivial h

lemma ends_read {p : Path} {Q : List UInt8 → Tree → Prop}
    (hok : ∀ d, t.node p = some (.file d) → Q d t) (herr : E t) :
    Ends (read p : StoreAct (List UInt8)) Q E t := fun _ =>
  wp_read trivial (fun d hd => hok d (readFile_ok hd)) (fun _ _ => herr) fun _ => herr

end Ends

/-! ### Staged files -/

section Staged

variable {t t' t₀ : Tree} {p q destination staged : Path} {d : List UInt8}

/-- Nothing but the file at `p` has changed. -/
def Elsewhere (p : Path) (t t' : Tree) : Prop := ∀ q, q ≠ p → t'.node q = t.node q

lemma Elsewhere.refl (p : Path) (t : Tree) : Elsewhere p t t := fun _ _ => rfl

lemma Elsewhere.trans {t'' : Tree} (h : Elsewhere p t t') (h' : Elsewhere p t' t'') :
    Elsewhere p t t'' := fun q hq => (h' q hq).trans (h q hq)

/-- Nothing is gone. -/
def Grows (t t' : Tree) : Prop := ∀ q, t'.node q = none → t.node q = none

lemma Grows.trans {t'' : Tree} (h : Grows t t') (h' : Grows t' t'') : Grows t t'' :=
  fun q hq => h q (h' q hq)

lemma Elsewhere.grows (h : Elsewhere p t t') (hfile : t'.node p ≠ none) : Grows t t' := by
  intro q hq
  rw [← h q, hq]
  rintro rfl
  exact hfile hq

lemma elsewhere_of_left {u : FsUpdate String UInt8} (h : t.Left u t') (hu : ∀ q, u.Touches q → q = p) :
    Elsewhere p t t' := fun q hq => h.frame fun htouch => hq (hu q htouch)

lemma elsewhere_of_effect {u : FsUpdate String UInt8} (h : t.effect u = .ok t')
    (hu : ∀ q, u.Touches q → q = p) : Elsewhere p t t' :=
  fun q hq => effect_frame h fun htouch => hq (hu q htouch)

lemma elsewhere_removeFile (h : t.removeFile p = .ok t') : Elsewhere p t t' := fun q hq => by
  rw [(removeFile_file_ok h q).2, if_neg hq]

lemma grows_createNew (h : t.createNew p = .ok t') : Grows t t' := by
  intro q hq
  rw [(createNew_ok h).2] at hq
  split_ifs at hq
  exact hq

lemma ends_createNew :
    Ends (update (.createNew p) : StoreAct Unit)
      (fun _ t' => Elsewhere p t t' ∧ t.node p = none ∧ t'.node p = some (.file []))
      (fun t' => Elsewhere p t t' ∧ Grows t t') t := by
  apply ends_update
  · intro t' h
    refine ⟨elsewhere_of_effect h fun _ h => h, (createNew_ok h).1, ?_⟩
    rw [(createNew_ok h).2, if_pos rfl]
  · intro t' h
    refine ⟨elsewhere_of_left h fun _ h => h, ?_⟩
    rcases h with rfl | ⟨f, rfl⟩
    · exact fun _ h => h
    · rw [part]
      split_ifs
      · exact fun _ h => h
      · rcases toOption_getD_eq (x := t.createNew p) rfl with h | h
        · exact h ▸ fun _ h => h
        · exact grows_createNew h

lemma writeAll_ok {old : List UInt8} (ht : t.node p = some (.file old))
    (h : t.effect (.writeAll p d) = .ok t') :
    Elsewhere p t t' ∧ t'.node p = some (.file (old ++ d)) := by
  refine ⟨elsewhere_of_effect h fun _ h => h, ?_⟩
  obtain ⟨old', hold, hnode⟩ := append_ok h
  rw [hnode, if_pos rfl]
  rw [ht] at hold
  cases hold
  rfl

lemma ends_writeAll {old : List UInt8} (ht : t.node p = some (.file old)) :
    Ends (update (.writeAll p d) : StoreAct Unit)
      (fun _ t' => Elsewhere p t t' ∧ t'.node p = some (.file (old ++ d))) (Elsewhere p t) t :=
  ends_update (fun _ h => writeAll_ok ht h) fun _ h => elsewhere_of_left h fun _ h => h

/-- The bytes of a stream. -/
def body : List (Option Chunk) → List UInt8
  | some chunk :: reads => if chunk.val = [] then [] else chunk.val ++ body reads
  | _ => []

lemma observeRead_more {v v' : StreamValidator} {n : ℕ} {more : Bool}
    (h : v.observeRead n = .ok (more, v')) :
    (more = true ↔ n ≠ 0) ∧ v'.expectedSize = v.expectedSize ∧ v'.received = v.received + n ∧
      (n = 0 → ∀ size, v.expectedSize = some size → v.received = size) := by
  rw [StreamValidator.observeRead, if_neg (by omega)] at h
  by_cases hn : n = 0
  · rw [if_pos (by omega)] at h
    split_ifs at h with hend
    cases h
    rw [Bool.or_eq_true, not_or] at hend
    refine ⟨by simp [hn], rfl, by simp [hn], fun _ size hsize => ?_⟩
    simpa [hsize] using hend.2
  · rw [if_neg (by omega)] at h
    dsimp only at h
    split_ifs at h
    cases h
    simp [hn]

/-- What is hashed is what the staged file holds, and of the size that is expected. -/
lemma ends_receive {reports : Bool} (reads : List (Option Chunk)) (v : StreamValidator)
    (hashed : List UInt8) (ht : t.node staged = some (.file hashed))
    (hv : v.received = hashed.length) :
    Ends (receive staged reports reads v hashed)
      (fun data t' => data = hashed ++ body reads ∧ Elsewhere staged t t' ∧
        t'.node staged = some (.file data) ∧ ∀ size, v.expectedSize = some size → data.length = size)
      (Elsewhere staged t) t := by
  have hsame : Elsewhere staged t t := .refl staged t
  induction reads generalizing t v hashed with
  | nil =>
    apply (ends_orEspError
      (Q := fun _ t' => t' = t ∧ ∀ size, v.expectedSize = some size → hashed.length = size) ?_ hsame).bind
    · rintro _ _ ⟨rfl, hsize⟩
      exact ends_pure ⟨(List.append_nil hashed).symm, hsame, ht, hsize⟩
    · rintro ⟨more, v'⟩ hread
      obtain ⟨-, -, -, hsize⟩ := observeRead_more (n := 0) hread
      exact ⟨rfl, hv ▸ hsize rfl⟩
  | cons read reads ih =>
    cases read with
    | none =>
      -- a read that fails ends the download
      apply (ends_orEspError (Q := fun _ _ => False) (fun _ hread => ?_) hsame).bind
      · exact fun _ _ => False.elim
      · simp [StreamValidator.observeRead] at hread
    | some chunk =>
      apply (ends_orEspError
        (Q := fun r t' => v.observeRead chunk.val.length = .ok r ∧ t' = t) ?_ hsame).bind
      · rintro ⟨more, v'⟩ _ ⟨hread, rfl⟩
        obtain ⟨hmore, hexpected, hreceived, hsize⟩ := observeRead_more hread
        cases more with
        | false =>
          have hend : chunk.val = [] := by simpa using hmore
          have hlen : chunk.val.length = 0 := by rw [hend]; rfl
          exact ends_pure ⟨by simp [body, hend], hsame, ht, hv ▸ hsize hlen⟩
        | true =>
          have hchunk : chunk.val ≠ [] := by simpa using hmore
          apply (ends_orCode (ends_writeAll ht)).bind
          rintro _ t' ⟨helse, hnode⟩
          dsimp only
          split_ifs
          · exact ends_throw helse
          · have hv' : v'.received = (hashed ++ chunk.val).length := by
              rw [hreceived, hv, List.length_append]
            apply (ih v' _ hnode hv' (.refl staged t')).mono
            · rintro data t'' ⟨rfl, helse', hdata, hsize'⟩
              exact ⟨by simp [body, hchunk], helse.trans helse', hdata, hexpected ▸ hsize'⟩
            · exact fun t'' helse' => helse.trans helse'
      · exact fun r hread => ⟨hread, rfl⟩

lemma openDownload_ok {client : Option HttpSession} {expectedSize : Option ℕ} {maxSize : ℕ}
    {session : HttpSession} {v : StreamValidator}
    (h : openDownload client expectedSize maxSize = .ok (session, v)) :
    client = some session ∧ v.received = 0 ∧ v.expectedSize = expectedSize := by
  cases client with
  | none => cases h
  | some session' =>
    rw [openDownload] at h
    dsimp only at h
    split_ifs at h
    · cases h
    · obtain ⟨v', hv', h⟩ := Except.bind_ok h
      have hnew := Except.mapError_ok hv'
      rw [StreamValidator.new] at hnew
      split_ifs at h
      · cases h
      · cases h
        split_ifs at hnew
        cases hnew
        exact ⟨rfl, rfl, rfl⟩

/-- What a download asks of the bytes it is given. -/
def Fits (sha256Hex : List UInt8 → String) (expectedHash : Option String) (expectedSize : Option ℕ)
    (data : List UInt8) : Prop :=
  (∀ value, expectedHash = some value → eqIgnoreAsciiCase (sha256Hex data) value = true) ∧
    ∀ size, expectedSize = some size → data.length = size

/-- A download that succeeds leaves the bytes of the stream in the staged file. -/
lemma ends_downloadIntoStaged {sha256Hex : List UInt8 → String} {client : Option HttpSession}
    {expectedSha256Hex : Option String} {expectedSize : Option ℕ} {maxSize : ℕ} {reports : Bool}
    (ht : t.node staged = some (.file [])) :
    Ends (downloadIntoStaged sha256Hex client expectedSha256Hex expectedSize maxSize reports staged)
      (fun _ t' => Elsewhere staged t t' ∧
        ∃ session, client = some session ∧ t'.node staged = some (.file (body session.reads)) ∧
          ∃ expectedHash, parseExpectedHash expectedSha256Hex = .ok expectedHash ∧
            Fits sha256Hex expectedHash expectedSize (body session.reads))
      (Elsewhere staged t) t := by
  have hsame : Elsewhere staged t t := .refl staged t
  apply (ends_liftM (Q := fun r t' => parseExpectedHash expectedSha256Hex = .ok r ∧ t' = t)
    (fun _ h => ⟨h, rfl⟩) fun _ _ => hsame).bind
  rintro expectedHash t ⟨hexpected, rfl⟩
  apply (ends_liftM (Q := fun r t' => openDownload client expectedSize maxSize = .ok r ∧ t' = t)
    (fun _ h => ⟨h, rfl⟩) fun _ _ => hsame).bind
  rintro ⟨session, validator⟩ t ⟨hopen, rfl⟩
  obtain ⟨hclient, hreceived, hsize⟩ := openDownload_ok hopen
  apply (ends_receive session.reads validator [] ht hreceived).bind
  rintro data t' ⟨rfl, helse, hnode, hlen⟩
  rw [List.nil_append] at hnode hlen ⊢
  dsimp only
  split_ifs with hhash
  · exact ends_throw helse
  · apply ends_orCode
    apply ends_update
    · intro t'' h
      cases h
      refine ⟨helse, session, hclient, hnode, expectedHash, hexpected, ?_, hsize ▸ hlen⟩
      rintro value rfl
      simpa using hhash
    · intro t'' h
      exact helse.trans (elsewhere_of_left h fun _ h => h.elim)

lemma ends_readFile {code : EspErr} :
    Ends (orCode code (read p)) (fun d t' => t' = t ∧ t.node p = some (.file d)) (fun t' => t' = t) t :=
  ends_orCode (ends_read (fun _ h => ⟨rfl, h⟩) rfl)

lemma ends_signingVerifyFile {verify : List UInt8 → List UInt8 → Bool} :
    Ends (signingVerifyFile verify p)
      (fun _ t' => t' = t ∧ ∃ bytes signature, t.node p = some (.file bytes) ∧
        t.node (signaturePath p) = some (.file signature) ∧ verify bytes signature = true)
      (fun t' => t' = t) t := by
  apply ends_readFile.bind
  rintro bytes t ⟨rfl, hbytes⟩
  dsimp only
  split_ifs
  · exact ends_throw rfl
  · apply ends_readFile.bind
    rintro signature t ⟨rfl, hsignature⟩
    split_ifs with hbad
    · exact ends_throw rfl
    · rw [Bool.or_eq_true, not_or] at hbad
      exact ends_pure ⟨rfl, bytes, signature, hbytes, hsignature, by simpa using hbad.2⟩

/-! ### Replacing a payload alone -/

lemma Vacant.of_eq (h : Vacant t p) (heq : t'.node p = t.node p) : Vacant t' p := by
  rwa [Vacant, heq]

/-- The paths that a replacement uses. -/
def Uses (staged destination q : Path) : Prop :=
  q = staged ∨ q = destination ∨ ∃ sequence, q = backupPath destination sequence

/-- The destination holds what it held, and so do the paths that are not used. -/
def Unreplaced (staged destination : Path) (t t' : Tree) : Prop :=
  ∀ q, q = destination ∨ ¬ Uses staged destination q → t'.node q = t.node q

/-- The destination holds what was staged. -/
def ReplacedAlone (staged destination : Path) (t t' : Tree) : Prop :=
  t'.node destination = t.node staged ∧
    ∀ q, ¬ Uses staged destination q → t'.node q = t.node q

lemma ReplacedAlone.removeFile {sequence : UInt32} (h : ReplacedAlone staged destination t t')
    (hne : destination ≠ backupPath destination sequence) {t'' : Tree}
    (ht'' : t'.removeFile (backupPath destination sequence) = .ok t'') :
    ReplacedAlone staged destination t t'' := by
  refine ⟨?_, fun q hq => ?_⟩
  · rw [(removeFile_file_ok ht'' _).2, if_neg hne, h.1]
  · rw [(removeFile_file_ok ht'' _).2, if_neg, h.2 q hq]
    exact fun heq => hq (.inr (.inr ⟨sequence, heq⟩))

/-- A replacement has found a name for the backup, if it needed one. -/
def BackupFree (destination : Path) (t : Tree) : Prop :=
  t.node destination = none ∨ ∃ sequence, t.node (backupPath destination sequence) = none

lemma ends_atomicReplaceWith {tries : ℕ} {sequence : UInt32} (hstaged : t.node staged = some (.file d))
    (hvacant : Vacant t destination) (hne : staged ≠ destination) :
    Ends (atomicReplaceWith staged destination tries sequence)
      (fun _ t' => ReplacedAlone staged destination t t' ∧ BackupFree destination t)
      (Unreplaced staged destination t) t := by
  have hsame : Unreplaced staged destination t t := fun _ _ => rfl
  intro b
  unfold atomicReplaceWith
  rw [Act.wp_bind]
  apply wp_fileExists trivial
  split_ifs with hexists
  · refine wp_update (fun _ _ => trivial) (fun t' h => ?_) (fun _ _ => hsame) fun _ t' h => ?_
    · have hmoved := moved_of_rename h hstaged
      refine ⟨⟨hmoved.at_dst, fun q hq => ?_⟩, .inl hmoved.free⟩
      exact hmoved.off (fun h => hq (.inl h)) fun h => hq (.inr (.inl h))
    · rw [h.eq_of_rename]
      exact hsame
  · have hsome : t.node destination ≠ none := by
      simpa [exists?, Option.isSome_iff_ne_none] using hexists
    obtain ⟨d₀, hd₀⟩ := hvacant.resolve_left hsome
    rw [Act.wp_bind]
    refine wp_unusedBackupPath tries sequence trivial (fun _ => hsame) fun k _ hfree => ?_
    rw [Act.wp_bind]
    refine wp_update (fun _ _ => trivial) (fun t₁ h => ?_) (fun _ _ => hsame) fun _ t' h => ?_
    · have hmoved := moved_of_rename h hd₀
      have hne' : destination ≠ backupPath destination k := hmoved.ne
      have hbackup : t₁.node (backupPath destination k) = some (.file d₀) := by
        rw [hmoved.at_dst, hd₀]
      have hstaged₁ : t₁.node staged = t.node staged := hmoved.keeps hne (by simp [hstaged])
      have hdir : t₁.node destination.dropLast = some .dir := hmoved.dir (t.dir_dropLast hsome)
      have hother {q : Path} (hq : ¬ Uses staged destination q) : t₁.node q = t.node q :=
        hmoved.off (fun h => hq (.inr (.inl h))) fun h => hq (.inr (.inr ⟨k, h⟩))
      -- nothing fails any more once the second renaming has failed
      have hrestore : ∀ commitError, Act.wp storeWorld
          (restoreAlone (backupPath destination k) destination commitError)
          (fun _ s => ReplacedAlone staged destination t s.1.1 ∧ BackupFree destination t)
          (fun _ s => Unreplaced staged destination t s.1.1) (fun _ => True) ((t₁, ()), false) := by
        intro commitError
        unfold restoreAlone
        rw [Act.wp_bind]
        refine wp_moveBack ⟨d₀, hbackup⟩ hmoved.at_src hdir trivial fun t₂ hmoved₂ => ?_
        rintro q (rfl | hq)
        · exact hmoved₂.at_dst.trans (hbackup.trans hd₀.symm)
        · exact (hmoved₂.off (fun h => hq (.inr (.inr ⟨k, h⟩))) fun h => hq (.inr (.inl h))).trans
            (hother hq)
      rw [Act.wp_bind, Act.wp_attempt]
      refine wp_update (fun _ _ => trivial) (fun t₂ h₂ => ?_) (fun kind _ => hrestore _)
        fun _ t' hl => ?_
      · have hmoved₂ := moved_of_rename h₂ (hstaged₁.trans hstaged)
        have hreplaced : ReplacedAlone staged destination t t₂ := by
          refine ⟨hmoved₂.at_dst.trans hstaged₁, fun q hq => ?_⟩
          rw [hmoved₂.off (fun h => hq (.inl h)) fun h => hq (.inr (.inl h)), hother hq]
        exact (Act.wp_bind _ _ _).mpr (wp_removeBackup hreplaced
          (fun t' ht' => hreplaced.removeFile hne' ht') (fun _ _ => trivial)
          fun _ _ _ h => ⟨h, .inr ⟨k, hfree⟩⟩)
      · rw [hl.eq_of_rename]
        exact hrestore _
    · rw [h.eq_of_rename]
      exact hsame

end Staged

/-! ### Names -/

section Names

variable (dir : Path) (name : String) (k k' : UInt32)

lemma stagedPath_concat :
    stagedPath (dir ++ [name]) k = (downloadPaths dir name k).stagedPayload := by
  simp [stagedPath, downloadPaths]

lemma signaturePath_concat :
    signaturePath (dir ++ [name]) = (downloadPaths dir name k).signatureDestination := by
  simp [signaturePath, downloadPaths]

lemma signaturePath_stagedPath :
    signaturePath (stagedPath (dir ++ [name]) k) = (downloadPaths dir name k).stagedSignature := by
  rw [stagedPath_concat]
  simp [signaturePath, downloadPaths]
  rfl

lemma stagedPath_ne : stagedPath (dir ++ [name]) k ≠ dir ++ [name] := by
  rw [stagedPath_concat]
  exact concat_ne (by rw [length_staged]; omega)

lemma stagedPath_ne_signature : stagedPath (dir ++ [name]) k ≠ signaturePath (dir ++ [name]) := by
  rw [stagedPath_concat, signaturePath_concat dir name k]
  exact concat_ne (by rw [length_staged, length_signature]; omega)

lemma stagedSignature_ne : signaturePath (stagedPath (dir ++ [name]) k) ≠ dir ++ [name] := by
  rw [signaturePath_stagedPath]
  exact concat_ne (by rw [length_stagedSignature]; omega)

lemma stagedSignature_ne_signature :
    signaturePath (stagedPath (dir ++ [name]) k) ≠ signaturePath (dir ++ [name]) := by
  rw [signaturePath_stagedPath, signaturePath_concat dir name k]
  exact concat_ne (by rw [length_stagedSignature, length_signature]; omega)

lemma stagedSignature_ne_staged :
    signaturePath (stagedPath (dir ++ [name]) k) ≠ stagedPath (dir ++ [name]) k := by
  rw [signaturePath_stagedPath, stagedPath_concat]
  exact concat_ne (by rw [length_stagedSignature, length_staged]; omega)

lemma signature_ne : signaturePath (dir ++ [name]) ≠ dir ++ [name] := by
  rw [signaturePath_concat dir name 0]
  exact concat_ne (by rw [length_signature]; omega)

lemma signature_ne_backupPath :
    signaturePath (dir ++ [name]) ≠ backupPath (dir ++ [name]) k' := by
  rw [signaturePath_concat dir name 0, backupPath_concat]
  exact concat_ne (by rw [length_backup, length_signature]; omega)

lemma pairPaths_eq :
    (⟨stagedPath (dir ++ [name]) k, dir ++ [name], signaturePath (stagedPath (dir ++ [name]) k),
      signaturePath (dir ++ [name])⟩ : PairPaths) = downloadPaths dir name k := by
  rw [signaturePath_stagedPath, signaturePath_concat dir name k, stagedPath_concat]
  rfl

/-- The signature's place is none that the replacement of a payload uses. -/
lemma not_uses_signature :
    ¬ Uses (stagedPath (dir ++ [name]) k) (dir ++ [name]) (signaturePath (dir ++ [name])) := by
  rintro (h | h | ⟨k', h⟩)
  · exact stagedPath_ne_signature dir name k h.symm
  · exact signature_ne dir name h
  · exact signature_ne_backupPath dir name k' h

end Names

/-! ### The installation -/

section Install

variable {crypto : Crypto} {site : Site} {reports : Bool} {tries : ℕ} {entry : CatalogEntry}
  {dir : Path} {name : String} {t t' t₀ : Tree} {payload : List UInt8} {k sequence : UInt32}

/-- The pair at a destination is what it was. -/
def Kept (destination : Path) (t t' : Tree) : Prop :=
  t'.node destination = t.node destination ∧
    t'.node (signaturePath destination) = t.node (signaturePath destination)

lemma Kept.refl (destination : Path) (t : Tree) : Kept destination t t := ⟨rfl, rfl⟩

lemma Kept.trans {destination : Path} {t'' : Tree} (h : Kept destination t t')
    (h' : Kept destination t' t'') : Kept destination t t'' := ⟨h'.1.trans h.1, h'.2.trans h.2⟩

lemma Elsewhere.kept {p destination : Path} (h : Elsewhere p t t') (hne : p ≠ destination)
    (hne' : p ≠ signaturePath destination) : Kept destination t t' :=
  ⟨h _ hne.symm, h _ hne'.symm⟩

/-- The payload is in place, with the signature that was downloaded and verified for it; without one
the signature's place is as it was. -/
def Committed (crypto : Crypto) (site : Site) (entry : CatalogEntry) (payload : List UInt8)
    (destination : Path) (t t' : Tree) : Prop :=
  t'.node destination = some (.file payload) ∧
    if entry.sigUrlFirst ≠ 0 then
      ∃ session, site.signature = some session ∧
        t'.node (signaturePath destination) = some (.file (body session.reads)) ∧
        crypto.verify payload (body session.reads) = true
    else t'.node (signaturePath destination) = t.node (signaturePath destination)

lemma Committed.of_kept {destination : Path} {t'' : Tree} (h : Kept destination t' t'')
    (hc : Committed crypto site entry payload destination t t') :
    Committed crypto site entry payload destination t t'' := by
  rw [Committed, h.1, h.2]
  exact hc

lemma Kept.committed {destination : Path} {t'' : Tree} (h : Kept destination t t')
    (hc : Committed crypto site entry payload destination t' t'') :
    Committed crypto site entry payload destination t t'' := by
  rw [Committed, ← h.2]
  exact hc

lemma ends_andDrop {α : Type} {x : InstallAct α} {staged : Path} {Q : α → Tree → Prop}
    {E : Tree → Prop} (hQ : ∀ a t' t'', Elsewhere staged t' t'' → Q a t' → Q a t'')
    (hE : ∀ t' t'', Elsewhere staged t' t'' → E t' → E t'') (h : Ends x Q E t) :
    Ends (andDrop staged x) Q E t := by
  have hdrop (t' : Tree) : Ends (orCode espFail (update (.removeFile staged)))
      (fun _ => Elsewhere staged t') (Elsewhere staged t') t' := by
    apply ends_orCode
    apply ends_update
    · exact fun _ => elsewhere_removeFile
    · intro t'' hl
      rw [hl.eq_of_removeFile]
      exact .refl staged t'
  apply (ends_attempt (Q := fun r t' => (∀ a, r = .ok a → Q a t') ∧ ∀ e, r = .error e → E t') ?_).bind
  · rintro r t' ⟨hok, herr⟩
    apply (ends_attempt (E := E) (Q := fun _ => Elsewhere staged t')
      ((hdrop t').mono (fun _ _ h => h) fun _ h _ => h)).bind
    intro _ t'' helse
    exact ends_liftM (fun a ha => hQ a t' t'' helse (hok a ha))
      fun e he => hE t' t'' helse (herr e he)
  · apply h.mono
    · rintro a t' hQa
      exact ⟨fun a' ha => Except.ok.inj ha ▸ hQa, nofun⟩
    · exact fun t' hEt e => ⟨nofun, fun _ _ => hEt⟩

lemma ends_createFor (tries : ℕ) (sequence : UInt32) (ht : Kept (dir ++ [name]) t₀ t)
    (hgrows : Grows t₀ t) :
    Ends (createFor (dir ++ [name]) tries sequence)
      (fun r t' => (∃ k, r.1 = stagedPath (dir ++ [name]) k ∧ t₀.node r.1 = none) ∧
        t'.node r.1 = some (.file []) ∧ Kept (dir ++ [name]) t₀ t' ∧ Grows t₀ t')
      (Kept (dir ++ [name]) t₀) t := by
  induction tries generalizing t sequence with
  | zero => exact ends_throw ht
  | succ tries ih =>
    have hkept {t' : Tree} (h : Elsewhere (stagedPath (dir ++ [name]) sequence) t t') :
        Kept (dir ++ [name]) t₀ t' :=
      ht.trans (h.kept (stagedPath_ne _ _ _) (stagedPath_ne_signature _ _ _))
    apply (ends_attempt (Q := fun r t' => (Kept (dir ++ [name]) t₀ t' ∧ Grows t₀ t') ∧
      ∀ u, r = .ok u → t₀.node (stagedPath (dir ++ [name]) sequence) = none ∧
        t'.node (stagedPath (dir ++ [name]) sequence) = some (.file [])) ?_).bind
    · rintro (e | ⟨⟩) t' ⟨⟨hk, hgrows'⟩, hfile⟩
      · dsimp only
        split_ifs
        · exact ih _ hk hgrows'
        · exact ends_throw hk
      · obtain ⟨hfree, hfile⟩ := hfile () rfl
        exact ends_pure ⟨⟨sequence, rfl, hfree⟩, hfile, hk, hgrows'⟩
    · apply ends_createNew.mono
      · rintro _ t' ⟨helse, hfree, hfile⟩
        have hgrows' := hgrows.trans (helse.grows (by simp [hfile]))
        exact ⟨⟨hkept helse, hgrows'⟩, fun _ _ => ⟨hgrows _ hfree, hfile⟩⟩
      · exact fun t' h e => ⟨⟨hkept h.1, hgrows.trans h.2⟩, nofun⟩

lemma ends_commitEntry (hstaged : t.node (stagedPath (dir ++ [name]) k) = some (.file payload))
    (hvacant : Vacant t (dir ++ [name])) (hvacant' : Vacant t (signaturePath (dir ++ [name]))) :
    Ends (commitEntry crypto site tries entry (dir ++ [name]) (stagedPath (dir ++ [name]) k) sequence)
      (fun _ t' => Committed crypto site entry payload (dir ++ [name]) t t' ∧
        (entry.sigUrlFirst = 0 → BackupFree (dir ++ [name]) t)) (Kept (dir ++ [name]) t) t := by
  by_cases hsig : entry.sigUrlFirst ≠ 0
  · rw [commitEntry, if_pos hsig]
    dsimp only
    have hne := stagedSignature_ne dir name k
    have hne' := stagedSignature_ne_signature dir name k
    have hkept {t' : Tree} (h : Elsewhere (signaturePath (stagedPath (dir ++ [name]) k)) t t') :
        Kept (dir ++ [name]) t t' := h.kept hne hne'
    apply ((ends_orCode ends_createNew).mono (fun _ _ h => h) fun _ h => hkept h.1).bind
    rintro _ t₁ ⟨helse₁, -, hfile₁⟩
    apply ends_andDrop
    · exact fun _ _ _ h hc => ⟨hc.1.of_kept (h.kept hne hne'), hc.2⟩
    · exact fun _ _ h hk => hk.trans (h.kept hne hne')
    · apply ((ends_downloadIntoStaged hfile₁).mono (fun _ _ h => h)
        fun _ h => hkept (helse₁.trans h)).bind
      rintro _ t₂ ⟨helse₂, session, hsession, hfile₂, -⟩
      have helse := helse₁.trans helse₂
      have hstaged₂ : t₂.node (stagedPath (dir ++ [name]) k) = some (.file payload) :=
        (helse _ (stagedSignature_ne_staged dir name k).symm).trans hstaged
      apply (ends_signingVerifyFile.mono (fun _ _ h => h) ?_).bind
      · rintro _ t₂ ⟨rfl, bytes, signature, hbytes, hsignature, hverify⟩
        obtain rfl : payload = bytes := by
          rw [hstaged₂] at hbytes
          cases hbytes
          rfl
        obtain rfl : body session.reads = signature := by
          rw [hfile₂] at hsignature
          cases hsignature
          rfl
        have hpair : Pair t₂ ⟨stagedPath (dir ++ [name]) k, dir ++ [name],
            signaturePath (stagedPath (dir ++ [name]) k), signaturePath (dir ++ [name])⟩ := by
          rw [pairPaths_eq]
          apply pair_downloadPaths
          · exact ⟨payload, stagedPath_concat dir name k ▸ hstaged₂⟩
          · exact ⟨body session.reads, signaturePath_stagedPath dir name k ▸ hfile₂⟩
          · exact hvacant.of_eq (helse _ hne.symm)
          · exact signaturePath_concat dir name k ▸ hvacant'.of_eq (helse _ hne'.symm)
        apply ends_orCode
        intro b
        refine Act.wp_mono ?_ ?_ (fun _ _ => trivial) (wp_atomicReplacePairWith hpair tries sequence)
        · rintro _ s ⟨hpayload, hsig'⟩
          refine ⟨⟨hpayload.trans hstaged₂, ?_⟩, fun h => absurd h hsig⟩
          rw [if_pos hsig]
          exact ⟨session, hsession, hsig'.trans hfile₂, hverify⟩
        · rintro _ s hold
          exact (hkept helse).trans hold
      · rintro _ rfl
        exact hkept helse
  · rw [commitEntry, if_neg hsig]
    apply (ends_orCode (ends_atomicReplaceWith hstaged hvacant (stagedPath_ne dir name k))).mono
    · rintro _ t' ⟨⟨hdest, hother⟩, hbackup⟩
      refine ⟨⟨hdest.trans hstaged, ?_⟩, fun _ => hbackup⟩
      rw [if_neg hsig]
      exact hother _ (not_uses_signature dir name k)
    · exact fun t' h => ⟨h _ (.inl rfl), h _ (.inr (not_uses_signature dir name k))⟩

/-- Directories on the way to the destination do not change what is there. -/
lemma ends_createDirAll :
    Ends (orCode espFail (update (.createDirAll dir)))
      (fun _ t' => Kept (dir ++ [name]) t t' ∧ Grows t t')
      (fun t' => Kept (dir ++ [name]) t t' ∧ Grows t t') t := by
  have hpaves {t' : Tree} (h : ∀ last, Paves (dir ++ [last]) t t') :
      Kept (dir ++ [name]) t t' ∧ Grows t t' := by
    refine ⟨⟨(h name).node_self, ?_⟩, fun q hq => ?_⟩
    · rw [signaturePath_concat dir name 0]
      exact (h _).node_self
    · rcases h name q with heq | ⟨hnone, -⟩
      · rw [← heq, hq]
      · exact hnone
  apply ends_orCode
  apply ends_update
  · intro t' h
    exact hpaves fun last => createDirAll_paves (by simp) (by simp) h
  · intro t' hl
    refine hpaves fun last => Left.paves (by simp) ?_
    rwa [List.dropLast_concat]

/-- What an installation has found when it has put a payload in place. -/
structure Found (crypto : Crypto) (entry : CatalogEntry) (expectedHash : String) (payload : List UInt8)
    (destination : Path) (t : Tree) : Prop where
  hash : ∃ hash, parseExpectedHash (some expectedHash) = .ok hash ∧
    Fits crypto.sha256Hex hash (some entry.sizeBytes.toNat) payload
  staged : ∃ sequence, t.node (stagedPath destination sequence) = none
  backup : entry.sigUrlFirst = 0 → BackupFree destination t

/-- An installation replaces the payload and with it the signature, or nothing. -/
theorem ends_installChecked {expectedHash : String} (hvacant : Vacant t (dir ++ [name]))
    (hvacant' : Vacant t (signaturePath (dir ++ [name]))) :
    Ends (installChecked crypto site reports tries entry expectedHash (dir ++ [name]) sequence)
      (fun _ t' => ∃ session, site.payload = some session ∧
        Committed crypto site entry (body session.reads) (dir ++ [name]) t t' ∧
        Found crypto entry expectedHash (body session.reads) (dir ++ [name]) t)
      (Kept (dir ++ [name]) t) t := by
  rw [installChecked, List.dropLast_concat]
  apply (ends_attempt (E := Kept (dir ++ [name]) t)
    (Q := fun _ t' => Kept (dir ++ [name]) t t' ∧ Grows t t')
    (ends_createDirAll.mono (fun _ _ h => h) fun _ h _ => h)).bind
  rintro _ t₁ ⟨hk₁, hgrows₁⟩
  apply (ends_orCode (ends_fileExists (Q := fun _ t' => t' = t₁) (E := Kept (dir ++ [name]) t) rfl)).bind
  rintro found t₁ rfl
  dsimp only
  split_ifs
  · exact ends_throw hk₁
  · apply (ends_orCode (ends_createFor stagedTries sequence hk₁ hgrows₁)).bind
    rintro ⟨staged, sequence⟩ t₂ ⟨⟨k, hk, hfree⟩, hfile, hk₂, hgrows₂⟩
    dsimp only at hk hfree hfile
    subst hk
    have hne := stagedPath_ne dir name k
    have hne' := stagedPath_ne_signature dir name k
    apply ends_andDrop
    · rintro _ t' t'' helse ⟨session, hsession, hc, hfound⟩
      exact ⟨session, hsession, hc.of_kept (helse.kept hne hne'), hfound⟩
    · exact fun t' t'' helse hk => hk.trans (helse.kept hne hne')
    · apply ((ends_downloadIntoStaged hfile).mono (fun _ _ h => h)
        fun _ h => hk₂.trans (h.kept hne hne')).bind
      rintro _ t₃ ⟨helse, session, hsession, hfile₃, hash⟩
      have hk₃ := hk₂.trans (helse.kept hne hne')
      have hgrows₃ := hgrows₂.trans (helse.grows (by simp [hfile₃]))
      apply (ends_commitEntry hfile₃ (hvacant.of_eq hk₃.1) (hvacant'.of_eq hk₃.2)).mono
      · rintro _ t' ⟨hc, hbackup⟩
        refine ⟨session, hsession, hk₃.committed hc, hash, ⟨k, hfree⟩, fun hsig => ?_⟩
        rcases hbackup hsig with hnone | ⟨sequence, hnone⟩
        · exact .inl (hgrows₃ _ hnone)
        · exact .inr ⟨sequence, hgrows₃ _ hnone⟩
      · exact fun t' hk => hk₃.trans hk

end Install

end ThistleOS.AppstoreClient
