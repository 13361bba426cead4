import ThistleOS.Kernel.AppstoreClient.Installed

/-!
# Stale signatures

An installation is to leave a payload with its own signature or none, or what was there before. It
does so exactly if it does not put a payload without a signature beside a signature that is there.
-/

open PowerLoss FileTree

namespace ThistleOS.AppstoreClient

/-! ### What an installation is to leave -/

/-- The destination holds the downloaded payload, and a signature file beside it is the one that was
downloaded and verified for it. -/
def Installed (crypto : Crypto) (site : Site) (entry : CatalogEntry) (destination : Path) (t : Tree) :
    Prop :=
  ∃ session, site.payload = some session ∧
    t.node destination = some (.file (body session.reads)) ∧
    ∀ d, t.node (signaturePath destination) = some (.file d) →
      entry.sigUrlFirst ≠ 0 ∧ (∃ session', site.signature = some session' ∧ d = body session'.reads) ∧
        crypto.verify (body session.reads) d = true

/-- How a run may end. -/
def Consistent (crypto : Crypto) (site : Site) (entry : CatalogEntry) (t₀ : Tree) :
    PowerLoss.Outcome (Except EspErr Unit) (Option storeWorld.Fault) → Tree → Prop
  | .done (.ok ()) _, t =>
    ∃ destination, entryDestination entry = .ok destination ∧ Installed crypto site entry destination t
  | .done (.error _) _, t =>
    ∀ destination, entryDestination entry = .ok destination → Kept destination t₀ t
  | .lost, _ => True

/-- The law of an entry on a card: it holds of every download, of every failure and of every value of
the counter. -/
def Lawful (crypto : Crypto) (entry : CatalogEntry) (t₀ : Tree) : Prop :=
  ∀ installTapEntry site reports tries sequence cs,
    Consistent crypto site entry t₀
      (Act.run storeWorld (appstoreInstallEntry crypto site reports tries installTapEntry entry sequence)
        cs ((t₀, ()), true)).1
      (Act.run storeWorld (appstoreInstallEntry crypto site reports tries installTapEntry entry sequence)
        cs ((t₀, ()), true)).2.1.1

/-- An entry without a signature that can be installed beside a signature that is there: it passes the
checks, a payload fits it, and names for the staged file and for a backup are left. -/
structure StaleAt (crypto : Crypto) (entry : CatalogEntry) (t₀ : Tree) (hash : String)
    (destination : Path) : Prop where
  checked : checkEntry entry = .ok (hash, destination)
  unsigned : entry.sigUrlFirst = 0
  signature : ∃ d, t₀.node (signaturePath destination) = some (.file d)
  payload : ∃ payload : List UInt8, payload.length = entry.sizeBytes.toNat ∧
    eqIgnoreAsciiCase (crypto.sha256Hex payload) hash = true
  staged : ∃ sequence, t₀.node (stagedPath destination sequence) = none
  backup : BackupFree destination t₀

def Stale (crypto : Crypto) (entry : CatalogEntry) (t₀ : Tree) : Prop :=
  ∃ hash destination, StaleAt crypto entry t₀ hash destination

/-! ### Checks -/

variable {crypto : Crypto} {site : Site} {entry : CatalogEntry} {t t' t₀ : Tree} {hash : String}
  {destination : Path}

lemma exists_concat_of_installDestination {entryType : UInt32} {id : String}
    (h : installDestination entryType id = .ok destination) :
    ∃ dir name, destination = dir ++ [name] := by
  rw [installDestination] at h
  split_ifs at h <;> cases h
  · exact ⟨["sdcard", "update"], _, rfl⟩
  · exact ⟨["sdcard", "drivers"], _, rfl⟩
  · exact ⟨["sdcard", "wm"], _, rfl⟩

lemma exists_concat (h : entryDestination entry = .ok destination) :
    ∃ dir name, destination = dir ++ [name] := by
  obtain ⟨id, -, h⟩ := Except.bind_ok h
  exact exists_concat_of_installDestination h

lemma catalogHash_ok (h : catalogHash entry = .ok hash) : validSha256Hex hash = true := by
  rw [catalogHash] at h
  split at h
  · split_ifs at h with hvalid
    cases h
    exact hvalid
  · cases h

lemma checkEntry_ok (h : checkEntry entry = .ok (hash, destination)) :
    validSha256Hex hash = true ∧ entry.sizeBytes.toNat ≤ maxDownloadForType entry.entryType ∧
      entryDestination entry = .ok destination := by
  rw [checkEntry] at h
  by_cases hurl : entry.url[0] = 0
  · rw [if_pos hurl] at h
    cases h
  rw [if_neg hurl] at h
  obtain ⟨hash', hhash, h⟩ := Except.bind_ok h
  by_cases hsize : entry.sizeBytes = 0 ∨
      maxDownloadForType entry.entryType < entry.sizeBytes.toNat
  · rw [if_pos hsize] at h
    cases h
  rw [if_neg hsize] at h
  obtain ⟨destination', hdestination, h⟩ := Except.bind_ok h
  cases h
  exact ⟨catalogHash_ok hhash, not_lt.mp fun h => hsize (.inr h), hdestination⟩

/-- A hash of the right form is compared with. -/
lemma parseExpectedHash_of_valid (h : validSha256Hex hash = true) :
    parseExpectedHash (some hash) = .ok (some hash) := by
  have hne : hash.isEmpty = false := by
    rw [Bool.eq_false_iff]
    intro hempty
    rw [String.isEmpty_iff] at hempty
    rw [hempty] at h
    exact absurd h (by decide)
  rw [parseExpectedHash, if_neg (by simp [hne]), if_pos h]

/-! ### Every run -/

/-- However the installation ends, a payload that is in place was found to fit, and it is beside the
signature of this download or beside what was there. -/
lemma ends_appstoreInstallEntry {installTapEntry : CatalogEntry → InstallAct Unit} {reports : Bool}
    {tries : ℕ} {sequence : UInt32} (htype : entry.entryType ≠ catalogTypeApp)
    (hvacant : ∀ destination, entryDestination entry = .ok destination →
      Vacant t destination ∧ Vacant t (signaturePath destination)) :
    Ends (appstoreInstallEntry crypto site reports tries installTapEntry entry sequence)
      (fun _ t' => ∃ hash destination session, checkEntry entry = .ok (hash, destination) ∧
        site.payload = some session ∧
        Committed crypto site entry (body session.reads) destination t t' ∧
        Found crypto entry hash (body session.reads) destination t)
      (fun t' => ∀ destination, entryDestination entry = .ok destination → Kept destination t t') t := by
  rw [appstoreInstallEntry, if_neg htype]
  apply (ends_liftM (Q := fun r t' => checkEntry entry = .ok r ∧ t' = t) (fun _ h => ⟨h, rfl⟩)
    fun _ _ _ _ => .refl _ t).bind
  rintro ⟨hash, destination⟩ t ⟨hcheck, rfl⟩
  obtain ⟨-, -, hdestination⟩ := checkEntry_ok hcheck
  obtain ⟨dir, name, rfl⟩ := exists_concat hdestination
  obtain ⟨hv, hv'⟩ := hvacant _ hdestination
  apply (ends_installChecked hv hv').mono
  · rintro _ t' ⟨session, hsession, hc, hfound⟩
    exact ⟨hash, _, session, hcheck, hsession, hc, hfound⟩
  · rintro t' hk destination hdestination'
    obtain rfl := Except.ok.inj (hdestination.symm.trans hdestination')
    exact hk

/-- Where no stale signature can stay, what is beside the payload is its own signature. -/
lemma Committed.installed {session : HttpSession} (hsession : site.payload = some session)
    (hcheck : checkEntry entry = .ok (hash, destination))
    (hfound : Found crypto entry hash (body session.reads) destination t)
    (hstale : ¬ Stale crypto entry t)
    (h : Committed crypto site entry (body session.reads) destination t t') :
    Installed crypto site entry destination t' := by
  obtain ⟨hpayload, hsig⟩ := h
  refine ⟨session, hsession, hpayload, fun d hd => ?_⟩
  by_cases hsigned : entry.sigUrlFirst ≠ 0
  · rw [if_pos hsigned] at hsig
    obtain ⟨session', hsession', hfile, hverify⟩ := hsig
    rw [hfile] at hd
    cases hd
    exact ⟨hsigned, ⟨session', hsession', rfl⟩, hverify⟩
  · rw [if_neg hsigned] at hsig
    have hunsigned := not_not.mp hsigned
    obtain ⟨hash', hhash', hhash, hlen⟩ := hfound.hash
    rw [parseExpectedHash_of_valid (checkEntry_ok hcheck).1] at hhash'
    cases hhash'
    exact absurd ⟨hash, destination, hcheck, hunsigned, ⟨d, hsig.symm.trans hd⟩,
      ⟨body session.reads, hlen _ rfl, hhash _ rfl⟩, hfound.staged, hfound.backup hunsigned⟩ hstale

/-! ### An undisturbed run -/

section Succeeds

variable {ε α γ : Type}

/-- Undisturbed, the action returns with `Q`. -/
def Succeeds (x : Act ε ((fsSig String UInt8).sum Sig.none) α) (Q : α → Tree → Prop) (t : Tree) :
    Prop :=
  ∀ b, ∃ a s, Act.perform storeWorld x ((t, ()), b) = (.ok a, s) ∧ Q a s.1.1

variable {x : Act ε ((fsSig String UInt8).sum Sig.none) α} {Q Q' : α → Tree → Prop}

lemma Succeeds.mono (h : Succeeds x Q t) (hQ : ∀ a t', Q a t' → Q' a t') : Succeeds x Q' t := by
  intro b
  obtain ⟨a, s, hperform, ha⟩ := h b
  exact ⟨a, s, hperform, hQ a s.1.1 ha⟩

lemma succeeds_pure {a : α} (h : Q a t) :
    Succeeds (pure a : Act ε ((fsSig String UInt8).sum Sig.none) α) Q t := fun _ => ⟨a, _, rfl, h⟩

lemma Succeeds.bind {f : α → Act ε ((fsSig String UInt8).sum Sig.none) γ} {Q' : γ → Tree → Prop}
    (h : Succeeds x Q t) (hf : ∀ a t', Q a t' → Succeeds (f a) Q' t') : Succeeds (x >>= f) Q' t := by
  intro b
  obtain ⟨a, s, hperform, ha⟩ := h b
  obtain ⟨a', s', hperform', ha'⟩ := hf a s.1.1 ha s.2
  exact ⟨a', s', (Act.perform_bind_ok hperform).trans hperform', ha'⟩

lemma Succeeds.attempt (h : Succeeds x Q t) :
    Succeeds x.attempt (fun r t' => ∃ a, r = .ok a ∧ Q a t') t := by
  intro b
  obtain ⟨a, s, hperform, ha⟩ := h b
  exact ⟨.ok a, s, Act.perform_attempt hperform, a, rfl, ha⟩

/-- An attempt succeeds, whatever comes of the action. -/
lemma succeeds_attempt : Succeeds x.attempt (fun _ _ => True) t := fun _ =>
  ⟨_, _, Act.perform_attempt rfl, trivial⟩

lemma succeeds_liftM {r : Except ε α} {a : α} (hr : r = .ok a) (h : Q a t) :
    Succeeds (liftM r : Act ε ((fsSig String UInt8).sum Sig.none) α) Q t := by
  subst hr
  exact succeeds_pure h

lemma Succeeds.orCode {code : EspErr} {x : StoreAct α} (h : Succeeds x Q t) :
    Succeeds (orCode code x) Q t := by
  intro b
  obtain ⟨a, s, hperform, ha⟩ := h b
  refine ⟨a, s, ?_, ha⟩
  unfold Act.perform AppstoreClient.orCode Act.mapError at *
  rw [ExceptT.run_mk, Prog.perform_bind, hperform]
  rfl

lemma succeeds_update {u : FsUpdate String UInt8} {Q : Unit → Tree → Prop} (hu : t.effect u = .ok t')
    (h : Q () t') : Succeeds (update u : StoreAct Unit) Q t := by
  intro b
  have hperform : Act.perform storeWorld (update u : StoreAct Unit) ((t, ()), b) =
      (((machine String UInt8).perform (.update u) t).1,
        ((((machine String UInt8).perform (.update u) t).2, ()),
          b && !fsFailed (.update u) ((machine String UInt8).perform (.update u) t).1)) := rfl
  rw [perform_update_ok hu] at hperform
  exact ⟨(), _, hperform, h⟩

lemma succeeds_fileExists {p : Path} {Q : Bool → Tree → Prop} (h : Q (t.exists? p) t) :
    Succeeds (fileExists p : StoreAct Bool) Q t := fun _ => ⟨_, _, rfl, h⟩

lemma succeeds_andDrop {y : InstallAct α} {staged : Path} (h : Succeeds y (fun _ _ => True) t) :
    Succeeds (andDrop staged y) (fun _ _ => True) t := by
  apply h.attempt.bind
  rintro _ t' ⟨a, rfl, -⟩
  apply succeeds_attempt.bind
  intro _ t'' _
  exact succeeds_pure trivial

end Succeeds

/-! ### Installing beside a stale signature -/

/-- The payload one byte at a time. -/
def byteReads (payload : List UInt8) : List (Option Chunk) :=
  payload.map fun byte => some ⟨[byte], by simp [downloadBufSize]⟩

lemma succeeds_receive {staged : Path} (hne : staged ≠ []) (payload : List UInt8) (v : StreamValidator)
    (hashed : List UInt8) (ht : t.node staged = some (.file hashed)) (hv : v.received = hashed.length)
    (hlen : v.contentLength = hashed.length + payload.length)
    (hsize : v.expectedSize = some v.contentLength) (hmax : v.contentLength ≤ v.maxSize)
    (hlt : v.contentLength < 2 ^ 64) :
    Succeeds (receive staged false (byteReads payload) v hashed)
      (fun data t' => data = hashed ++ payload ∧ Elsewhere staged t t' ∧
        t'.node staged = some (.file data)) t := by
  induction payload generalizing t v hashed with
  | nil =>
    have hend : v.observeRead 0 = .ok (false, v) := by
      have hall : v.received = v.contentLength := by rw [hv, hlen, List.length_nil, Nat.add_zero]
      simp [StreamValidator.observeRead, hall, hsize]
    apply (succeeds_liftM (Q := fun _ t' => t' = t) (Except.mapError_of_ok hend) rfl).bind
    rintro _ t rfl
    exact succeeds_pure ⟨(List.append_nil hashed).symm, .refl staged t, ht⟩
  | cons byte payload ih =>
    rw [List.length_cons] at hlen
    have hstep : v.observeRead 1 = .ok (true, { v with received := v.received + 1 }) := by
      have hcount : ¬ 2 ^ 64 ≤ v.received + 1 := by omega
      have hmax' : ¬ v.maxSize < v.received + 1 := by omega
      have hle : ¬ v.contentLength < v.received + 1 := by omega
      rw [StreamValidator.observeRead, if_neg (by decide), if_neg (by decide)]
      change (if 2 ^ 64 ≤ v.received + 1 then _ else _) = _
      rw [if_neg hcount, Int.toNat_one, if_neg hmax', hsize, Option.any_some, decide_eq_false hle]
      rfl
    apply (succeeds_liftM (Q := fun r t' => r = (true, { v with received := v.received + 1 }) ∧ t' = t)
      (Except.mapError_of_ok hstep) ⟨rfl, rfl⟩).bind
    rintro _ t ⟨rfl, rfl⟩
    obtain ⟨t', ht'⟩ := append_succeeds hne ht [byte]
    obtain ⟨helse, hnode⟩ := writeAll_ok ht ht'
    have hwrite : t.effect (.writeAll staged [byte]) = .ok t' := ht'
    apply (succeeds_update (Q := fun _ t'' => t'' = t') hwrite rfl).orCode.bind
    rintro _ t' rfl
    apply (ih { v with received := v.received + 1 } (hashed ++ [byte]) hnode ?_ ?_ hsize hmax hlt).mono
    · rintro data t'' ⟨rfl, helse', hdata⟩
      exact ⟨by simp, helse.trans helse', hdata⟩
    · simp [hv]
    · simp only [List.length_append, List.length_singleton]
      omega

/-- The session that sends a payload. -/
def sessionOf (payload : List UInt8) : HttpSession where
  openError := espOk
  contentLength := payload.length
  status := 200
  reads := byteReads payload

lemma succeeds_downloadIntoStaged {staged : Path} (hne : staged ≠ []) {payload : List UInt8}
    {maxSize : ℕ} (ht : t.node staged = some (.file [])) (hvalid : validSha256Hex hash = true)
    (hhash : eqIgnoreAsciiCase (crypto.sha256Hex payload) hash = true)
    (hmax : payload.length ≤ maxSize) (hlt : payload.length < 2 ^ 32) :
    Succeeds (downloadIntoStaged crypto.sha256Hex (some (sessionOf payload)) (some hash)
        (some payload.length) maxSize false staged)
      (fun _ t' => Elsewhere staged t t' ∧ t'.node staged = some (.file payload)) t := by
  have hopen : openDownload (some (sessionOf payload)) (some payload.length) maxSize =
      .ok (sessionOf payload, ⟨payload.length, some payload.length, maxSize, 0⟩) := by
    have hmax' : ¬ maxSize < payload.length := by omega
    have hlt' : ¬ 2 ^ 32 ≤ payload.length := by omega
    have hnew : StreamValidator.new 200 payload.length (some payload.length) maxSize =
        .ok ⟨payload.length, some payload.length, maxSize, 0⟩ := by
      simp [StreamValidator.new, hmax']
    rw [openDownload]
    simp only [sessionOf, hnew]
    rw [if_neg (not_not.mpr rfl)]
    exact if_neg hlt'
  apply (succeeds_liftM (Q := fun r t' => r = some hash ∧ t' = t)
    (parseExpectedHash_of_valid hvalid) ⟨rfl, rfl⟩).bind
  rintro _ t ⟨rfl, rfl⟩
  apply (succeeds_liftM (Q := fun r t' => r = _ ∧ t' = t) hopen ⟨rfl, rfl⟩).bind
  rintro _ t ⟨rfl, rfl⟩
  apply (succeeds_receive hne payload _ [] ht rfl ?_ rfl hmax ?_).bind
  · rintro data t' ⟨rfl, helse, hnode⟩
    dsimp only
    rw [if_neg (by simp [hhash])]
    have hsync : t'.effect (.syncAll staged) = .ok t' := rfl
    exact (succeeds_update hsync ⟨helse, hnode⟩).orCode
  · simp
  · dsimp only
    omega

lemma succeeds_unusedBackupPath (n : ℕ) (sequence : UInt32)
    (h : t.node (backupPath destination (sequence + .ofNat n)) = none) :
    Succeeds (unusedBackupPath destination (n + 1) sequence)
      (fun r t' => t' = t ∧ t.node r.1 = none ∧ ∃ k, r.1 = backupPath destination k) t := by
  induction n generalizing sequence with
  | zero =>
    have hfree : t.exists? (backupPath destination sequence) = false := by
      simpa [exists?] using h
    apply (succeeds_fileExists (Q := fun r t' => r = false ∧ t' = t) ⟨hfree, rfl⟩).bind
    rintro _ t ⟨rfl, rfl⟩
    exact succeeds_pure ⟨rfl, by simpa using h, sequence, rfl⟩
  | succ n ih =>
    apply (succeeds_fileExists (Q := fun r t' => r = t.exists? (backupPath destination sequence) ∧ t' = t)
      ⟨rfl, rfl⟩).bind
    rintro _ t ⟨rfl, rfl⟩
    split_ifs with hexists
    · apply ih
      have hnext : sequence + 1 + UInt32.ofNat n = sequence + UInt32.ofNat (n + 1) := by
        rw [UInt32.ofNat_add, UInt32.add_assoc, UInt32.add_comm 1]
        rfl
      rwa [hnext]
    · refine succeeds_pure ⟨rfl, ?_, sequence, rfl⟩
      simpa [exists?] using hexists

lemma succeeds_rename {src dst : Path} {d : List UInt8} (hfile : t.node src = some (.file d))
    (hfree : t.node dst = none) (hdir : t.node dst.dropLast = some .dir) :
    Succeeds (update (.rename src dst) : StoreAct Unit) (fun _ => Moved src dst t) t := by
  obtain ⟨t', ht'⟩ := exists_moved hfile hfree hdir
  exact succeeds_update ht' (moved_of_rename ht' hfile)

/-- With enough tries the payload is replaced. -/
lemma succeeds_atomicReplaceWith {staged : Path} {d : List UInt8} {n : ℕ} {sequence : UInt32}
    (hstaged : t.node staged = some (.file d)) (hvacant : Vacant t destination)
    (hne : staged ≠ destination) (hdir : t.node destination.dropLast = some .dir)
    (hbackup : t.node destination = none ∨
      t.node (backupPath destination (sequence + .ofNat n)) = none) :
    Succeeds (atomicReplaceWith staged destination (n + 1) sequence) (fun _ _ => True) t := by
  by_cases hnone : t.node destination = none
  · have hexists : t.exists? destination = false := by simp [exists?, hnone]
    apply (succeeds_fileExists (Q := fun r t' => r = false ∧ t' = t) ⟨hexists, rfl⟩).bind
    rintro _ t ⟨rfl, rfl⟩
    exact (succeeds_rename hstaged hnone hdir).mono fun _ _ _ => trivial
  · obtain ⟨d₀, hd₀⟩ := hvacant.resolve_left hnone
    have hexists : t.exists? destination = true := by simp [exists?, hd₀]
    apply (succeeds_fileExists (Q := fun r t' => r = true ∧ t' = t) ⟨hexists, rfl⟩).bind
    rintro _ t ⟨rfl, rfl⟩
    apply (succeeds_unusedBackupPath n sequence (hbackup.resolve_left hnone)).bind
    rintro ⟨backup, _⟩ t ⟨rfl, hfree, k, rfl⟩
    have hbackupDir : t.node (backupPath destination k).dropLast = some .dir := by
      rwa [backupPath, List.dropLast_concat]
    apply (succeeds_rename hd₀ hfree hbackupDir).bind
    rintro _ t₁ hmoved
    have hstaged₁ : t₁.node staged = some (.file d) := by
      rw [hmoved.keeps hne (by simp [hstaged]), hstaged]
    apply (succeeds_rename hstaged₁ hmoved.at_src (hmoved.dir hdir)).attempt.bind
    rintro _ t₂ ⟨_, rfl, -⟩
    apply succeeds_attempt.bind
    intro _ _ _
    exact succeeds_pure trivial

/-- A backup is never called like a staged file. -/
lemma backupPath_ne_stagedPath (dir : Path) (name : String) (k n : UInt32) :
    backupPath (dir ++ [name]) n ≠ stagedPath (dir ++ [name]) k := by
  rw [backupPath_concat, stagedPath_concat, downloadPaths]
  intro h
  have hname : s!".{name}.thistle-backup-{n}" = s!".{name}.thistle-tmp-{k}" := by simpa using h
  have hlist := congrArg String.toList hname
  simp [String.toList_append, toString_string] at hlist

lemma createDirAll_of_dir {dir : Path} (h : t.node dir = some .dir) : t.createDirAll dir = .ok t := by
  have hnone {q : Path} (hq : q <+: dir) : t.node q ≠ none :=
    node_ne_none_above hq (by simp [h])
  obtain ⟨t', ht'⟩ := createDirAll_succeeds (t := t) (p := dir) fun q d hq hfile => by
    by_cases heq : q = dir
    · rw [← heq, hfile] at h
      cases h
    · have := t.dir_above hq heq (by simp [h])
      rw [hfile] at this
      cases this
  obtain rfl : t' = t := by
    apply FileTree.ext
    funext q
    rw [createDirAll_ok ht' q, if_neg fun hq => hnone hq.1 hq.2]
  exact ht'

/-- The staged file is made with its number at the first try. -/
lemma succeeds_createFor {dir : Path} {name : String} {k : UInt32} (hdir : t.node dir = some .dir)
    (hfree : t.node (stagedPath (dir ++ [name]) k) = none) :
    Succeeds (createFor (dir ++ [name]) stagedTries k)
      (fun r t' => r = (stagedPath (dir ++ [name]) k, k + 1) ∧
        Elsewhere (stagedPath (dir ++ [name]) k) t t' ∧
        t'.node (stagedPath (dir ++ [name]) k) = some (.file [])) t := by
  have hstagedDir : t.node (stagedPath (dir ++ [name]) k).dropLast = some .dir := by
    rwa [stagedPath, List.dropLast_concat, List.dropLast_concat]
  have hne : stagedPath (dir ++ [name]) k ≠ [] := by simp [stagedPath]
  obtain ⟨t', ht'⟩ := createNew_succeeds hne hstagedDir hfree
  have hcreate : t.effect (.createNew (stagedPath (dir ++ [name]) k)) = .ok t' := ht'
  have helse : Elsewhere (stagedPath (dir ++ [name]) k) t t' :=
    elsewhere_of_effect hcreate fun _ h => h
  have hfile : t'.node (stagedPath (dir ++ [name]) k) = some (.file []) := by
    rw [(createNew_ok ht').2, if_pos rfl]
  apply (succeeds_update (Q := fun _ t'' => t'' = t') hcreate rfl).attempt.bind
  rintro _ t'' ⟨⟨⟩, rfl, rfl⟩
  exact succeeds_pure ⟨rfl, helse, hfile⟩

/-- The installation of an entry without a signature, once its directory is there. -/
lemma succeeds_installChecked {dir : Path} {name : String} {k : UInt32} {n : ℕ} {payload : List UInt8}
    (hdir : t.node dir = some .dir) (hfree : t.node (stagedPath (dir ++ [name]) k) = none)
    (hvacant : Vacant t (dir ++ [name])) (hunsigned : entry.sigUrlFirst = 0)
    (hbackup : t.node (dir ++ [name]) = none ∨
      t.node (backupPath (dir ++ [name]) (k + 1 + .ofNat n)) = none)
    (hvalid : validSha256Hex hash = true)
    (hhash : eqIgnoreAsciiCase (crypto.sha256Hex payload) hash = true)
    (hlen : payload.length = entry.sizeBytes.toNat)
    (hmax : payload.length ≤ maxDownloadForType entry.entryType) :
    Succeeds (installChecked crypto ⟨some (sessionOf payload), none⟩ false (n + 1) entry hash
      (dir ++ [name]) k) (fun _ _ => True) t := by
  have hne : stagedPath (dir ++ [name]) k ≠ [] := by simp [stagedPath]
  have hlt : payload.length < 2 ^ 32 := by
    rw [hlen]
    exact entry.sizeBytes.toNat_lt
  rw [installChecked, List.dropLast_concat, ← hlen]
  have hmkdir : t.effect (.createDirAll dir) = .ok t := createDirAll_of_dir hdir
  apply (succeeds_update (Q := fun _ t' => t' = t) hmkdir rfl).orCode.attempt.bind
  rintro _ t ⟨_, rfl, rfl⟩
  have hexists : t.exists? dir = true := by simp [exists?, hdir]
  apply (succeeds_fileExists (Q := fun r t' => r = true ∧ t' = t) ⟨hexists, rfl⟩).orCode.bind
  rintro _ t ⟨rfl, rfl⟩
  rw [if_neg (by simp)]
  apply (succeeds_createFor hdir hfree).orCode.bind
  rintro _ t₁ ⟨rfl, helse₁, hfile₁⟩
  apply succeeds_andDrop
  have hdownload := succeeds_downloadIntoStaged hne hfile₁ hvalid hhash hmax hlt
  apply hdownload.bind
  rintro _ t₂ ⟨helse₂, hfile₂⟩
  have helse := helse₁.trans helse₂
  have hdest : t₂.node (dir ++ [name]) = t.node (dir ++ [name]) :=
    helse _ (stagedPath_ne dir name k).symm
  rw [commitEntry, if_neg (not_not.mpr hunsigned)]
  apply Succeeds.orCode
  apply succeeds_atomicReplaceWith hfile₂ (hvacant.of_eq hdest) (stagedPath_ne dir name k)
  · have hne' : dir ≠ stagedPath (dir ++ [name]) k := by simp [stagedPath]
    rw [List.dropLast_concat, helse _ hne', hdir]
  · rwa [hdest, helse _ (backupPath_ne_stagedPath dir name k _)]

/-- An entry without a signature can be installed beside a stale one. -/
theorem StaleAt.exists_succeeds (h : StaleAt crypto entry t hash destination)
    (htype : entry.entryType ≠ catalogTypeApp) (hvacant : Vacant t destination)
    (installTapEntry : CatalogEntry → InstallAct Unit) :
    ∃ site tries sequence, Succeeds
      (appstoreInstallEntry crypto site false tries installTapEntry entry sequence)
      (fun _ _ => True) t := by
  obtain ⟨hvalid, hmax, hdestination⟩ := checkEntry_ok h.checked
  obtain ⟨dir, name, rfl⟩ := exists_concat hdestination
  obtain ⟨payload, hlen, hhash⟩ := h.payload
  obtain ⟨k, hk⟩ := h.staged
  obtain ⟨d, hd⟩ := h.signature
  have hdir : t.node dir = some .dir := by
    rw [signaturePath_concat dir name 0] at hd
    have hdir := t.dir_dropLast (p := (downloadPaths dir name 0).signatureDestination) (by simp [hd])
    rwa [downloadPaths, List.dropLast_concat] at hdir
  obtain ⟨n, hn⟩ : ∃ n : ℕ, t.node (dir ++ [name]) = none ∨
      t.node (backupPath (dir ++ [name]) (k + 1 + .ofNat n)) = none := by
    rcases h.backup with hnone | ⟨k', hk'⟩
    · exact ⟨0, .inl hnone⟩
    · refine ⟨(k' - (k + 1)).toNat, .inr ?_⟩
      rwa [UInt32.ofNat_toNat, UInt32.add_comm, UInt32.sub_add_cancel]
  refine ⟨⟨some (sessionOf payload), none⟩, n + 1, k, ?_⟩
  rw [appstoreInstallEntry, if_neg htype]
  apply (succeeds_liftM (Q := fun r t' => r = (hash, dir ++ [name]) ∧ t' = t) h.checked ⟨rfl, rfl⟩).bind
  rintro _ t ⟨rfl, rfl⟩
  exact succeeds_installChecked hdir hk hvacant h.unsigned hn hvalid hhash hlen (hlen ▸ hmax)

/-- Beside a stale signature the law fails: the installation succeeds, and the signature that was there
is there still. -/
lemma Stale.not_lawful (h : Stale crypto entry t₀) (htype : entry.entryType ≠ catalogTypeApp)
    (hvacant : ∀ destination, entryDestination entry = .ok destination →
      Vacant t₀ destination ∧ Vacant t₀ (signaturePath destination)) :
    ¬ Lawful crypto entry t₀ := by
  obtain ⟨hash, destination, h⟩ := h
  intro hlaw
  obtain ⟨-, -, hdestination⟩ := checkEntry_ok h.checked
  obtain ⟨site, tries, sequence, hsucceeds⟩ :=
    h.exists_succeeds htype (hvacant _ hdestination).1 fun _ => throw espFail
  obtain ⟨_, s, hperform, -⟩ := hsucceeds true
  obtain ⟨n, hrun⟩ := Act.exists_run_of_perform hperform
  have hconsistent := hlaw (fun _ => throw espFail) site false tries sequence (List.replicate n none)
  rw [hrun] at hconsistent
  obtain ⟨destination', hdestination', session, -, -, hsigned⟩ := hconsistent
  obtain rfl := Except.ok.inj (hdestination.symm.trans hdestination')
  have hends := Act.wp_run_ok (ends_appstoreInstallEntry htype hvacant true) hrun
  obtain ⟨hash', destination', session', hcheck, -, ⟨-, hkept⟩, -⟩ := hends
  obtain ⟨-, rfl⟩ := Prod.mk.inj (Except.ok.inj (h.checked.symm.trans hcheck))
  rw [if_neg (not_not.mpr h.unsigned)] at hkept
  obtain ⟨d, hd⟩ := h.signature
  exact (hsigned d (hkept.trans hd)).1 h.unsigned

lemma lawful_of_not_stale (hstale : ¬ Stale crypto entry t₀) (htype : entry.entryType ≠ catalogTypeApp)
    (hvacant : ∀ destination, entryDestination entry = .ok destination →
      Vacant t₀ destination ∧ Vacant t₀ (signaturePath destination)) :
    Lawful crypto entry t₀ := by
  intro installTapEntry site reports tries sequence cs
  have hends : Ends (appstoreInstallEntry crypto site reports tries installTapEntry entry sequence)
      _ _ t₀ := ends_appstoreInstallEntry htype hvacant
  cases hrun : Act.run storeWorld
      (appstoreInstallEntry crypto site reports tries installTapEntry entry sequence) cs
      ((t₀, ()), true) with
  | mk r s =>
    rcases r with ⟨e | ⟨⟩, rest⟩ | _
    · have hkept := Act.wp_run_error (hends true) hrun
      exact hkept
    · have hdone := Act.wp_run_ok (hends true) hrun
      obtain ⟨hash, destination, session, hcheck, hsession, hcommitted, hfound⟩ := hdone
      exact ⟨destination, (checkEntry_ok hcheck).2.2,
        hcommitted.installed hsession hcheck hfound hstale⟩
    · trivial

/-- The law holds of an entry exactly if it cannot be installed beside a stale signature. -/
theorem lawful_iff (htype : entry.entryType ≠ catalogTypeApp)
    (hvacant : ∀ destination, entryDestination entry = .ok destination →
      Vacant t₀ destination ∧ Vacant t₀ (signaturePath destination)) :
    Lawful crypto entry t₀ ↔ ¬ Stale crypto entry t₀ :=
  ⟨fun hlaw hstale => hstale.not_lawful htype hvacant hlaw,
    fun hstale => lawful_of_not_stale hstale htype hvacant⟩

/-! ### Two cards -/

/-- A buffer of `n` bytes with a text and zeros behind it. -/
def bufferOf (n : ℕ) (text : String) (h : (utf8 text).length < n) : Vector UInt8 n :=
  ⟨(utf8 text ++ 0 :: List.replicate (n - (utf8 text).length - 1) 0).toArray, by simp; omega⟩

lemma fixedCstr_bufferOf {n : ℕ} {text : String} (h : (utf8 text).length < n)
    (hzero : (utf8 text).all (· != 0) = true) : fixedCstr (bufferOf n text h).toList = some text := by
  have hlist : (bufferOf n text h).toList =
      utf8 text ++ 0 :: List.replicate (n - (utf8 text).length - 1) 0 := rfl
  have hnone : (utf8 text).findIdx? (· = 0) = none := by
    simpa [List.findIdx?_eq_none_iff] using hzero
  have hfind : (bufferOf n text h).toList.findIdx? (· = 0) = some (utf8 text).length := by
    rw [hlist, List.findIdx?_append, hnone]
    simp [List.findIdx?_cons]
  rw [fixedCstr, hfind, hlist]
  dsimp only
  rw [List.take_left]
  exact fromUTF8?_utf8 text

def sampleHash : String := "ca978112ca1bbdcafac231b39a23dc4da786eff8147c4e72b9807785afee48bb"

/-- The hash of the payload of one byte, the letter `a`, and no signature that verifies. -/
def sampleCrypto : Crypto where
  sha256Hex _ := sampleHash
  verify _ _ := false

/-- A firmware without a signature. -/
def sampleEntry : CatalogEntry where
  id := bufferOf 64 "os" (by decide)
  url := bufferOf 256 "https://host/os.bin" (by decide)
  sigUrl := bufferOf 256 "" (by decide)
  sha256Hex := bufferOf 65 sampleHash (by decide)
  sizeBytes := 1
  entryType := catalogTypeFirmware

def sampleDestination : Path := ["sdcard", "update", "thistle_os.bin"]

lemma entryDestination_sampleEntry : entryDestination sampleEntry = .ok sampleDestination := by
  have hid : fixedCstr sampleEntry.id.toList = some "os" :=
    fixedCstr_bufferOf (by decide) (by decide)
  rw [entryDestination, validatedCatalogId, hid]
  decide

lemma checkEntry_sampleEntry : checkEntry sampleEntry = .ok (sampleHash, sampleDestination) := by
  have hhash : fixedCstr sampleEntry.sha256Hex.toList = some sampleHash :=
    fixedCstr_bufferOf (by decide) (by decide)
  have hvalid : validSha256Hex sampleHash = true := by decide
  have hurl : ¬ sampleEntry.url[0] = 0 := by decide
  have hsize : ¬ (sampleEntry.sizeBytes = 0 ∨
      maxDownloadForType sampleEntry.entryType < sampleEntry.sizeBytes.toNat) := by decide
  rw [checkEntry, if_neg hurl, catalogHash, hhash, entryDestination_sampleEntry]
  simp only [hvalid, if_true]
  rw [Except.ok_bind]
  rw [if_neg hsize]
  rfl

/-- A card with an update of one byte, and perhaps its signature. -/
def sampleUpdate (files : List (String × UInt8)) : Tree :=
  ((FileTree.empty.createDirAll ["sdcard", "update"]) >>= fun t =>
    files.foldlM (fun (t : Tree) file => t.writeFile ["sdcard", "update", file.1] [file.2]) t).toOption.getD
      FileTree.empty

def signedCard : Tree := sampleUpdate [("thistle_os.bin", 1), ("thistle_os.bin.sig", 2)]

def unsignedCard : Tree := sampleUpdate [("thistle_os.bin", 1)]

lemma stale_signedCard : Stale sampleCrypto sampleEntry signedCard := by
  refine ⟨sampleHash, sampleDestination, checkEntry_sampleEntry, by decide, ⟨[2], by rfl⟩, ⟨[97], rfl, by decide⟩,
    ⟨0, by rfl⟩, .inr ⟨0, by rfl⟩⟩

lemma vacant_sample {files : List (String × UInt8)}
    (h : Vacant (sampleUpdate files) sampleDestination ∧
      Vacant (sampleUpdate files) (signaturePath sampleDestination)) :
    ∀ destination, entryDestination sampleEntry = .ok destination →
      Vacant (sampleUpdate files) destination ∧
        Vacant (sampleUpdate files) (signaturePath destination) := by
  intro destination hdestination
  obtain rfl := Except.ok.inj (entryDestination_sampleEntry.symm.trans hdestination)
  exact h

/-- A payload without a signature may be put where there is none. -/
theorem sampleEntry_lawful : Lawful sampleCrypto sampleEntry unsignedCard := by
  apply (lawful_iff (by decide) (vacant_sample ⟨.inr ⟨[1], by rfl⟩, .inl (by rfl)⟩)).mpr
  rintro ⟨hash, destination, h⟩
  obtain ⟨-, rfl⟩ := Prod.mk.inj (Except.ok.inj (checkEntry_sampleEntry.symm.trans h.checked))
  obtain ⟨d, hd⟩ := h.signature
  have hnone : unsignedCard.node (signaturePath sampleDestination) = none := by rfl
  have hboth := hnone.symm.trans hd
  cases hboth

/-- A payload without a signature is put beside the signature of the payload before it. -/
theorem sampleEntry_not_lawful : ¬ Lawful sampleCrypto sampleEntry signedCard := by
  apply stale_signedCard.not_lawful (by decide)
  exact vacant_sample ⟨.inr ⟨[1], by rfl⟩, .inr ⟨[2], by rfl⟩⟩

end ThistleOS.AppstoreClient
