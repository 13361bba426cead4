import ThistleOS.Apps.Vault.Moments

/-!
# The screens of the vault

The lock screen asks for the password, the list shows the entries, and the detail screen edits one of
them. Every edit changes the entries in memory first and is saved then; what a failed save leaves in
memory stays there, and so do the entries that a lock leaves.
-/

open PowerLoss FileTree

namespace ThistleOS.Vault

inductive Screen
  | lock
  | list
  | detail
  deriving DecidableEq

abbrev Choices := List (Option device.Fault)

structure App where
  vault : SVault
  screen : Screen
  selectedIdx : ℤ
  store : State

/-- `vault_ui_create` clears the memory. A device that is switched on again starts here as well. -/
def App.create (store : State) : App := ⟨.zero, .lock, -1, store⟩

/-- What the user does, with the outside that a load or a save meets. -/
inductive Event
  | create
  | unlock (env : Env) (masterPw : CStr) (choices : Choices)
  | selectEntry (idx : ℕ)
  | newEntry
  | back
  | saveEntry (env : Env) (name user pass notes : CStr) (choices : Choices)
  | deleteEntry (env : Env) (choices : Choices)
  | lock

/-! ### The callbacks -/

variable (env : Env) (choices : Choices)

def unlockBtn (masterPw : CStr) (app : App) : Option EspErr × App :=
  if masterPw.bytes = [] then (none, app)
  else
    match (vaultLoad env masterPw app.vault).run device choices app.store with
    | (.lost, store) => (none, .create store)
    | (.done (rc, vault) _, store) =>
      if rc = espOk then
        (some rc,
          { app with vault := { vault with unlocked := true }, screen := .list, store := store })
      else (some rc, { app with vault := vault, store := store })

/-- The memory is edited, and the save follows; `onFailure` is the screen after one that fails. -/
def saveEdited (vault : SVault) (onFailure : Screen) (app : App) : Option EspErr × App :=
  match (vaultSave env vault).run device choices app.store with
  | (.lost, store) => (none, .create store)
  | (.done rc _, store) =>
    (some rc,
      { app with vault := vault, screen := if rc = espOk then .list else onFailure, store := store })

def typedEntry (name user pass notes : CStr) : VaultEntry :=
  ⟨copyField name, copyField user, copyField pass, copyField notes⟩

def SVault.appendEntry (vault : SVault) (entry : VaultEntry) : SVault :=
  { vault with
    entries := setEntry vault.entries vault.entryCount entry, entryCount := vault.entryCount + 1 }

def SVault.editEntry (vault : SVault) (idx : ℕ) (entry : VaultEntry) : SVault :=
  { vault with entries := setEntry vault.entries idx entry }

/-- The entries behind `idx` move up, and the last one is cleared. -/
def SVault.removeEntry (vault : SVault) (idx : ℕ) : SVault :=
  { vault with
    entries := fun k =>
      if h : k.val + 1 < maxEntries ∧ idx ≤ k.val ∧ k.val + 1 < vault.entryCount then
        vault.entries ⟨k.val + 1, h.1⟩
      else if k.val = vault.entryCount - 1 then .zero
      else vault.entries k
    entryCount := vault.entryCount - 1 }

def saveEntryBtn (entry : VaultEntry) (app : App) : Option EspErr × App :=
  if app.selectedIdx < 0 then
    if maxEntries ≤ app.vault.entryCount then (none, app)
    else saveEdited env choices (app.vault.appendEntry entry) .detail app
  else saveEdited env choices (app.vault.editEntry app.selectedIdx.toNat entry) .detail app

def deleteEntryBtn (app : App) : Option EspErr × App :=
  if app.selectedIdx < 0 ∨ (app.vault.entryCount : ℤ) ≤ app.selectedIdx then
    (none, { app with screen := .list })
  else saveEdited env choices (app.vault.removeEntry app.selectedIdx.toNat) .list app

omit env choices

def vaultUiLock (app : App) : App :=
  if !app.vault.unlocked then app
  else
    { app with
      vault := { app.vault with derivedKey := .zero, unlocked := false, entryCount := 0 }
      screen := .lock }

/-- A screen that is hidden gets no events. The app is locked before all of it is hidden. -/
def vaultApp : Component Event (fun _ => Option EspErr) App where
  step
    | .create, app => (none, .create app.store)
    | .unlock env masterPw choices, app =>
      if app.screen = .lock then unlockBtn env choices masterPw app else (none, app)
    | .selectEntry idx, app =>
      if app.screen = .list ∧ idx < app.vault.entryCount then
        (none, { app with screen := .detail, selectedIdx := idx })
      else (none, app)
    | .newEntry, app =>
      if app.screen = .list ∧ app.vault.entryCount < maxEntries then
        (none, { app with screen := .detail, selectedIdx := -1 })
      else (none, app)
    | .back, app => (none, if app.screen = .detail then { app with screen := .list } else app)
    | .saveEntry env name user pass notes choices, app =>
      if app.screen = .detail then
        saveEntryBtn env choices (typedEntry name user pass notes) app
      else (none, app)
    | .deleteEntry env choices, app =>
      if app.screen = .detail then deleteEntryBtn env choices app else (none, app)
    | .lock, app => (none, vaultUiLock app)

/-! ### What is asked of every action -/

/-- The same entries are listed. -/
def SameList (vault vault' : SVault) : Prop :=
  vault'.entryCount = vault.entryCount ∧
    ∀ k : Fin maxEntries, k.val < vault.entryCount → vault'.entries k = vault.entries k

def Event.edits : Event → Bool
  | .saveEntry .. => true
  | .deleteEntry .. => true
  | _ => false

/-- A save or a delete that fails leaves the list as it was. -/
def Atomic (event : Event) (app : App) : Prop :=
  event.edits = true → ∀ rc, vaultApp.reply event app = some rc → rc ≠ espOk →
    SameList app.vault (vaultApp.next event app).vault

/-- Unless the vault is unlocked, nothing is in the array of entries. -/
def Erased (app : App) : Prop := app.vault.unlocked = false → app.vault.entries = fun _ => .zero

/-- The first half of a load: the file is repaired, looked for, read and decrypted. -/
def readVault (env : Env) (masterPw : CStr) : VaultProg (Option (Except EspErr Opened)) := do
  ensureConfigDir
  let _ ← recoverInterruptedVaultWrite env
  if ← stat vaultPath then
    let r ← readFile env masterPw
    pure (some r)
  else pure none

/-- A load fails although it has decrypted a file of the first version with entries. -/
def MigrationFails (env : Env) (masterPw : CStr) (choices : Choices) (app : App) : Prop :=
  (∃ opened rest store,
    (readVault env masterPw).run device choices app.store = (.done (some (.ok opened)) rest, store) ∧
      opened.isV2 = false ∧ (app.vault.fill opened).entries ≠ fun _ => .zero) ∧
    ∃ rc vault rest store,
      (vaultLoad env masterPw app.vault).run device choices app.store = (.done (rc, vault) rest, store) ∧
        rc ≠ espOk

/-- The entry that is edited holds already what has been typed. -/
def Rewrites (entry : VaultEntry) (app : App) : Prop :=
  0 ≤ app.selectedIdx ∧ ∀ k : Fin maxEntries, k.val = app.selectedIdx.toNat →
    k.val < app.vault.entryCount → entry = app.vault.entries k

/-- No edit fails to be saved, save for one that changes nothing; no vault is locked with entries in
the array; and no file of the first version with entries fails to be saved again. -/
def Clean (event : Event) (app : App) : Prop :=
  match event with
  | .unlock env masterPw choices =>
    app.screen = .lock → masterPw.bytes ≠ [] → ¬ MigrationFails env masterPw choices app
  | .saveEntry _ name user pass notes _ =>
    ∀ rc, vaultApp.reply event app = some rc → rc ≠ espOk →
      Rewrites (typedEntry name user pass notes) app
  | .deleteEntry _ _ => ∀ rc, vaultApp.reply event app = some rc → rc = espOk
  | .lock => app.vault.unlocked = true → app.vault.entries = fun _ => .zero
  | _ => True

/-! ### Loads and the entries -/

section Loads

variable {env : Env} {masterPw : CStr} {vault : SVault} {s : State} {choices : Choices}

/-- The second half of a load. -/
def finishLoad (env : Env) (masterPw : CStr) (vault : SVault) :
    Option (Except EspErr Opened) → VaultProg (EspErr × SVault)
  | none => firstUse env masterPw vault
  | some (.error rc) => pure (rc, vault)
  | some (.ok opened) =>
    if opened.isV2 then
      pure (espOk,
        { vault.fill opened with salt := opened.fileSalt, derivedKey := opened.candidateKey })
    else migrate env masterPw (vault.fill opened)

lemma vaultLoad_eq (env : Env) (masterPw : CStr) (vault : SVault) :
    vaultLoad env masterPw vault = readVault env masterPw >>= finishLoad env masterPw vault := by
  rw [vaultLoad, readVault]
  simp only [bind_assoc]
  refine bind_congr fun _ => bind_congr fun _ => ?_
  rw [loadOrCreate]
  refine bind_congr fun there => ?_
  cases there with
  | false => rfl
  | true =>
    rw [if_pos rfl, if_pos rfl, loadFile, bind_assoc]
    refine bind_congr fun r => ?_
    cases r <;> rfl

/-- What a program returns keeps the entries of `vault`, and is as unlocked as `vault`. -/
def KeepsEntries (vault : SVault) (p : VaultProg (EspErr × SVault)) : Prop :=
  ∀ s, p.wp device (fun r _ => r.2.entries = vault.entries ∧ r.2.unlocked = vault.unlocked)
    (fun _ => True) s

lemma keepsEntries_pure {rc : EspErr} {vault' : SVault} (hentries : vault'.entries = vault.entries)
    (hunlocked : vault'.unlocked = vault.unlocked) :
    KeepsEntries vault (.pure (rc, vault')) := fun _ => ⟨hentries, hunlocked⟩

/-- The save in the middle of a load does not touch the memory. -/
lemma keepsEntries_bind {α : Type} {p : VaultProg α} {f : α → VaultProg (EspErr × SVault)}
    (hf : ∀ a, KeepsEntries vault (f a)) : KeepsEntries vault (p >>= f) := by
  intro s
  rw [Prog.wp_bind]
  exact Prog.wp_mono (fun a s' _ => hf a s') (fun _ h => h) Prog.wp_trivial

lemma keepsEntries_firstUse : KeepsEntries vault (firstUse env masterPw vault) := by
  rw [firstUse]
  apply keepsEntries_bind
  intro _
  split
  · exact keepsEntries_pure rfl rfl
  · dsimp only
    split
    · exact keepsEntries_pure rfl rfl
    · apply keepsEntries_bind
      intro rc
      split
      · exact keepsEntries_pure rfl rfl
      · exact keepsEntries_pure rfl rfl

lemma keepsEntries_migrate : KeepsEntries vault (migrate env masterPw vault) := by
  rw [migrate]
  split
  · exact keepsEntries_pure rfl rfl
  · split
    · exact keepsEntries_pure rfl rfl
    · apply keepsEntries_bind
      intro rc
      split
      · exact keepsEntries_pure rfl rfl
      · exact keepsEntries_pure rfl rfl

/-- A load that fails leaves the entries as they were, or as a file of the first version has them. -/
lemma load_failed {rc : EspErr} {vault' : SVault} {rest : Choices} {store : State}
    (hrun : (vaultLoad env masterPw vault).run device choices s = (.done (rc, vault') rest, store))
    (hrc : rc ≠ espOk) :
    vault'.unlocked = vault.unlocked ∧
      (((∀ opened rest store, (readVault env masterPw).run device choices s ≠
          (.done (some (.ok opened)) rest, store)) ∧ vault'.entries = vault.entries) ∨
        ∃ opened rest store, (readVault env masterPw).run device choices s =
          (.done (some (.ok opened)) rest, store) ∧ opened.isV2 = false ∧
            vault'.entries = (vault.fill opened).entries) := by
  rw [vaultLoad_eq, Prog.run_bind] at hrun
  rcases hread : (readVault env masterPw).run device choices s with ⟨⟨r, rest'⟩ | _, store'⟩
  · rw [hread] at hrun
    dsimp only at hrun
    rcases r with _ | rc' | opened
    · obtain ⟨hentries, hunlocked⟩ := Prog.wp_run_done (keepsEntries_firstUse store') hrun
      exact ⟨hunlocked, .inl ⟨by simp, hentries⟩⟩
    · obtain ⟨hdone, -⟩ := Prod.mk.inj ((Prog.run_pure _ _ _).symm.trans hrun)
      obtain ⟨hpair, -⟩ := Outcome.done.inj hdone
      obtain ⟨-, rfl⟩ := Prod.mk.inj hpair
      exact ⟨rfl, .inl ⟨by simp, rfl⟩⟩
    · rw [finishLoad] at hrun
      cases hv2 : opened.isV2 with
      | true =>
        rw [hv2, if_pos rfl] at hrun
        obtain ⟨hdone, -⟩ := Prod.mk.inj ((Prog.run_pure _ _ _).symm.trans hrun)
        obtain ⟨hpair, -⟩ := Outcome.done.inj hdone
        obtain ⟨rfl, -⟩ := Prod.mk.inj hpair
        exact absurd rfl hrc
      | false =>
        rw [hv2, if_neg Bool.false_ne_true] at hrun
        obtain ⟨hentries, hunlocked⟩ := Prog.wp_run_done (keepsEntries_migrate store') hrun
        exact ⟨hunlocked, .inr ⟨opened, rest', store', rfl, hv2, hentries⟩⟩
  · rw [hread] at hrun
    cases congrArg Prod.fst hrun

end Loads

/-! ### Every action -/

/-- The lock screen is shown exactly if the vault is not unlocked. -/
def Shown (app : App) : Prop := app.screen = .lock ↔ app.vault.unlocked = false

structure Tidy (app : App) : Prop where
  erased : Erased app
  shown : Shown app

section Actions

variable {env : Env} {choices : Choices} {masterPw : CStr} {app : App} {event : Event}

lemma tidy_create (store : State) : Tidy (.create store) := ⟨fun _ => rfl, iff_of_true rfl rfl⟩

lemma Shown.unlocked (h : Shown app) (hscreen : app.screen ≠ .lock) : app.vault.unlocked = true := by
  cases hunlocked : app.vault.unlocked
  · exact absurd (h.mpr hunlocked) hscreen
  · rfl

/-- An app that is unlocked and shows another screen is tidy. -/
lemma tidy_of_unlocked (hunlocked : app.vault.unlocked = true) (hscreen : app.screen ≠ .lock) :
    Tidy app := by
  refine ⟨fun hlocked => ?_, iff_of_false hscreen (by simp [hunlocked])⟩
  rw [hunlocked] at hlocked
  cases hlocked

lemma atomic_iff (hedits : event.edits = true) :
    Atomic event app ↔ ∀ rc, vaultApp.reply event app = some rc → rc ≠ espOk →
      SameList app.vault (vaultApp.next event app).vault :=
  ⟨fun h => h hedits, fun h _ => h⟩

lemma not_sameList_appendEntry (vault : SVault) (entry : VaultEntry) :
    ¬ SameList vault (vault.appendEntry entry) := fun h => Nat.succ_ne_self _ h.1

lemma not_sameList_removeEntry {vault : SVault} {idx : ℕ} (hidx : idx < vault.entryCount) :
    ¬ SameList vault (vault.removeEntry idx) := by
  intro h
  have hcount : vault.entryCount - 1 = vault.entryCount := h.1
  omega

lemma sameList_editEntry_iff {vault : SVault} {idx : ℕ} {entry : VaultEntry} :
    SameList vault (vault.editEntry idx entry) ↔
      ∀ k : Fin maxEntries, k.val = idx → k.val < vault.entryCount → entry = vault.entries k := by
  constructor
  · rintro ⟨-, h⟩ k hk hlt
    have hentry : (if k.val = idx then entry else vault.entries k) = vault.entries k := h k hlt
    rwa [if_pos hk] at hentry
  · intro h
    refine ⟨rfl, fun k hlt => ?_⟩
    change (if k.val = idx then entry else vault.entries k) = vault.entries k
    split
    · exact h k ‹_› hlt
    · rfl

/-- An edit is tidy in any case, and its reply is that of the save. -/
lemma saveEdited_cases (vault : SVault) (hunlocked : vault.unlocked = true) {onFailure : Screen}
    (hscreen : onFailure ≠ .lock) (app : App) :
    ((saveEdited env choices vault onFailure app).1 = none ∨
      (saveEdited env choices vault onFailure app).2.vault = vault) ∧
      Tidy (saveEdited env choices vault onFailure app).2 := by
  rw [saveEdited]
  split
  · exact ⟨.inl rfl, tidy_create _⟩
  · refine ⟨.inr rfl, tidy_of_unlocked hunlocked ?_⟩
    dsimp only
    split
    · simp
    · exact hscreen

/-- An action is atomic and leaves the app tidy exactly if it is clean: for an edit, whose save may
fail. -/
lemma edit_iff {reply : Option EspErr × App} {vault : SVault} {P : Prop}
    (hcases : (reply.1 = none ∨ reply.2.vault = vault) ∧ Tidy reply.2)
    (hP : SameList app.vault vault ↔ P) :
    ((∀ rc, reply.1 = some rc → rc ≠ espOk → SameList app.vault reply.2.vault) ∧ Tidy reply.2) ↔
      ∀ rc, reply.1 = some rc → rc ≠ espOk → P := by
  obtain ⟨hreply | hvault, htidy⟩ := hcases
  · simp [hreply, htidy]
  · rw [hvault]
    simp only [htidy, and_true, hP]

lemma unlock_iff (h : Tidy app) (hscreen : app.screen = .lock) (hpw : masterPw.bytes ≠ []) :
    Tidy (unlockBtn env choices masterPw app).2 ↔ ¬ MigrationFails env masterPw choices app := by
  have hlocked := h.shown.mp hscreen
  rw [unlockBtn, if_neg hpw]
  split
  · rename_i store hrun
    refine iff_of_true (tidy_create store) ?_
    rintro ⟨-, rc, vault, rest, store', hdone, -⟩
    cases congrArg Prod.fst (hrun.symm.trans hdone)
  · rename_i rc vault rest store hrun
    split
    · rename_i hrc
      refine iff_of_true (tidy_of_unlocked rfl (by simp)) ?_
      rintro ⟨-, rc', vault', rest', store', hdone, hrc'⟩
      obtain ⟨hout, -⟩ := Prod.mk.inj (hrun.symm.trans hdone)
      obtain ⟨hpair, -⟩ := Outcome.done.inj hout
      obtain ⟨rfl, -⟩ := Prod.mk.inj hpair
      exact hrc' hrc
    · rename_i hrc
      obtain ⟨hunlocked, hentries⟩ := load_failed hrun hrc
      have hempty := h.erased hlocked
      rw [hlocked] at hunlocked
      have htidy : Tidy { app with vault := vault, store := store } ↔
          vault.entries = fun _ => .zero :=
        ⟨fun ht => ht.erased hunlocked, fun he => ⟨fun _ => he, iff_of_true hscreen hunlocked⟩⟩
      rw [htidy]
      rcases hentries with ⟨hnone, hsame⟩ | ⟨opened, rest', store', hread, hv2, hsame⟩
      · refine iff_of_true (hsame.trans hempty) ?_
        rintro ⟨⟨opened, rest', store', hread, -⟩, -⟩
        exact hnone opened rest' store' hread
      · rw [hsame]
        constructor
        · rintro hzero ⟨⟨opened', rest'', store'', hread', -, hne⟩, -⟩
          obtain ⟨hout, -⟩ := Prod.mk.inj (hread.symm.trans hread')
          obtain ⟨hopened, -⟩ := Outcome.done.inj hout
          obtain rfl := Except.ok.inj (Option.some.inj hopened)
          exact hne hzero
        · intro hno
          by_contra hne
          exact hno ⟨⟨opened, rest', store', hread, hv2, hne⟩, rc, vault, rest, store, hrun, hrc⟩

lemma saveEntry_iff (h : Tidy app) (hscreen : app.screen ≠ .lock) (entry : VaultEntry) :
    ((∀ rc, (saveEntryBtn env choices entry app).1 = some rc → rc ≠ espOk →
        SameList app.vault (saveEntryBtn env choices entry app).2.vault) ∧
      Tidy (saveEntryBtn env choices entry app).2) ↔
      ∀ rc, (saveEntryBtn env choices entry app).1 = some rc → rc ≠ espOk → Rewrites entry app := by
  have hunlocked := h.shown.unlocked hscreen
  rw [saveEntryBtn]
  split
  · rename_i hnew
    have hrewrites : ¬ Rewrites entry app := fun hr => absurd hr.1 (not_le.mpr hnew)
    split
    · simp [h]
    · apply edit_iff (saveEdited_cases (app.vault.appendEntry entry) hunlocked (by simp) app)
      exact iff_of_false (not_sameList_appendEntry _ entry) hrewrites
  · rename_i hold
    apply edit_iff (saveEdited_cases (app.vault.editEntry _ entry) hunlocked (by simp) app)
    rw [sameList_editEntry_iff, Rewrites]
    exact (and_iff_right (not_lt.mp hold)).symm

lemma deleteEntry_iff (h : Tidy app) (hscreen : app.screen ≠ .lock) :
    ((∀ rc, (deleteEntryBtn env choices app).1 = some rc → rc ≠ espOk →
        SameList app.vault (deleteEntryBtn env choices app).2.vault) ∧
      Tidy (deleteEntryBtn env choices app).2) ↔
      ∀ rc, (deleteEntryBtn env choices app).1 = some rc → rc ≠ espOk → False := by
  have hunlocked := h.shown.unlocked hscreen
  rw [deleteEntryBtn]
  split
  · have htidy : Tidy { app with screen := .list } := tidy_of_unlocked hunlocked (by simp)
    simp [htidy]
  · rename_i hidx
    apply edit_iff (saveEdited_cases (app.vault.removeEntry _) hunlocked (by simp) app)
    exact iff_false_intro (not_sameList_removeEntry (by omega))

lemma lock_iff (h : Tidy app) :
    Tidy (vaultUiLock app) ↔
      (app.vault.unlocked = true → app.vault.entries = fun _ => .zero) := by
  rw [vaultUiLock]
  split
  · rename_i hlocked
    refine iff_of_true h fun hunlocked => ?_
    simp [hunlocked] at hlocked
  · rename_i hunlocked
    have hunlocked : app.vault.unlocked = true := by simpa using hunlocked
    exact ⟨fun ht _ => ht.erased rfl, fun he => ⟨fun _ => he hunlocked, iff_of_true rfl rfl⟩⟩

/-- One action is atomic and leaves the app tidy exactly if it is clean. -/
lemma action_iff (event : Event) (app : App) (h : Tidy app) :
    Atomic event app ∧ Tidy (vaultApp.next event app) ↔ Clean event app := by
  have hother (hedits : event.edits = false) : Atomic event app := by
    intro hedits'
    rw [hedits] at hedits'
    cases hedits'
  cases event with
  | create => exact iff_of_true ⟨hother rfl, tidy_create _⟩ trivial
  | unlock env masterPw choices =>
    rw [and_iff_right (hother rfl)]
    change Tidy (if app.screen = .lock then unlockBtn env choices masterPw app else (none, app)).2 ↔
      (app.screen = .lock → masterPw.bytes ≠ [] → ¬ MigrationFails env masterPw choices app)
    split
    · rename_i hscreen
      by_cases hpw : masterPw.bytes = []
      · rw [unlockBtn, if_pos hpw]
        exact iff_of_true h fun _ hne => absurd hpw hne
      · rw [unlock_iff h hscreen hpw]
        exact ⟨fun hno _ _ => hno, fun hno => hno hscreen hpw⟩
    · rename_i hscreen
      exact iff_of_true h fun hlock => absurd hlock hscreen
  | selectEntry idx =>
    refine iff_of_true ⟨hother rfl, ?_⟩ trivial
    change Tidy (if app.screen = .list ∧ idx < app.vault.entryCount then _ else (none, app)).2
    split
    · rename_i hlist
      exact tidy_of_unlocked (h.shown.unlocked (by simp [hlist.1])) (by simp)
    · exact h
  | newEntry =>
    refine iff_of_true ⟨hother rfl, ?_⟩ trivial
    change Tidy (if app.screen = .list ∧ app.vault.entryCount < maxEntries then _ else (none, app)).2
    split
    · rename_i hlist
      exact tidy_of_unlocked (h.shown.unlocked (by simp [hlist.1])) (by simp)
    · exact h
  | back =>
    refine iff_of_true ⟨hother rfl, ?_⟩ trivial
    change Tidy (if app.screen = .detail then _ else app)
    split
    · rename_i hdetail
      exact tidy_of_unlocked (h.shown.unlocked (by simp [hdetail])) (by simp)
    · exact h
  | saveEntry env name user pass notes choices =>
    rw [atomic_iff rfl]
    have hstep : vaultApp.step (.saveEntry env name user pass notes choices) app =
        if app.screen = .detail then saveEntryBtn env choices (typedEntry name user pass notes) app
        else (none, app) := rfl
    rw [Clean, Component.next, Component.reply, hstep]
    split
    · rename_i hdetail
      exact saveEntry_iff h (by simp [hdetail]) _
    · simp [h]
  | deleteEntry env choices =>
    rw [atomic_iff rfl]
    have hstep : vaultApp.step (.deleteEntry env choices) app =
        if app.screen = .detail then deleteEntryBtn env choices app else (none, app) := rfl
    rw [Clean, Component.next, Component.reply, hstep]
    split
    · rename_i hdetail
      rw [deleteEntry_iff h (by simp [hdetail])]
      exact forall₂_congr fun rc _ => not_not
    · simp [h]
  | lock =>
    rw [and_iff_right (hother rfl)]
    exact lock_iff h

lemma shown_saveEntry (h : Shown app) (hunlocked : app.vault.unlocked = true) (entry : VaultEntry) :
    Shown (saveEntryBtn env choices entry app).2 := by
  rw [saveEntryBtn]
  split
  · split
    · exact h
    · exact (saveEdited_cases (app.vault.appendEntry entry) hunlocked (by simp) app).2.shown
  · exact (saveEdited_cases (app.vault.editEntry app.selectedIdx.toNat entry) hunlocked (by simp)
      app).2.shown

lemma shown_deleteEntry (hunlocked : app.vault.unlocked = true) :
    Shown (deleteEntryBtn env choices app).2 := by
  rw [deleteEntryBtn]
  split
  · have htidy : Tidy { app with screen := .list } := tidy_of_unlocked hunlocked (by simp)
    exact htidy.shown
  · exact (saveEdited_cases (app.vault.removeEntry app.selectedIdx.toNat) hunlocked (by simp)
      app).2.shown

lemma shown_next (event : Event) (app : App) (h : Shown app) : Shown (vaultApp.next event app) := by
  have hopen {app' : App} (hscreen : app.screen ≠ .lock) (hvault : app'.vault = app.vault)
      (hscreen' : app'.screen ≠ .lock) : Shown app' :=
    (tidy_of_unlocked (hvault ▸ h.unlocked hscreen) hscreen').shown
  cases event with
  | create => exact (tidy_create _).shown
  | unlock env masterPw choices =>
    change Shown (if app.screen = .lock then unlockBtn env choices masterPw app else (none, app)).2
    split
    · rename_i hscreen
      rw [unlockBtn]
      split
      · exact h
      · split
        · exact (tidy_create _).shown
        · rename_i rc vault rest store hrun
          split
          · exact (tidy_of_unlocked rfl (by simp)).shown
          · rename_i hrc
            have hunlocked := (load_failed hrun hrc).1.trans (h.mp hscreen)
            exact iff_of_true hscreen hunlocked
    · exact h
  | selectEntry idx =>
    change Shown (if app.screen = .list ∧ idx < app.vault.entryCount then _ else (none, app)).2
    split
    · rename_i hlist
      exact hopen (by simp [hlist.1]) rfl (by simp)
    · exact h
  | newEntry =>
    change Shown (if app.screen = .list ∧ app.vault.entryCount < maxEntries then _ else (none, app)).2
    split
    · rename_i hlist
      exact hopen (by simp [hlist.1]) rfl (by simp)
    · exact h
  | back =>
    change Shown (if app.screen = .detail then _ else app)
    split
    · rename_i hdetail
      exact hopen (by simp [hdetail]) rfl (by simp)
    · exact h
  | saveEntry env name user pass notes choices =>
    change Shown (if app.screen = .detail then
      saveEntryBtn env choices (typedEntry name user pass notes) app else (none, app)).2
    split
    · rename_i hdetail
      have hunlocked := h.unlocked (by simp [hdetail])
      exact shown_saveEntry h hunlocked _
    · exact h
  | deleteEntry env choices =>
    change Shown (if app.screen = .detail then deleteEntryBtn env choices app else (none, app)).2
    split
    · rename_i hdetail
      have hunlocked := h.unlocked (by simp [hdetail])
      exact shown_deleteEntry hunlocked
    · exact h
  | lock =>
    change Shown (vaultUiLock app)
    rw [vaultUiLock]
    split
    · exact h
    · exact iff_of_true rfl rfl

end Actions

/-- The list survives every failure and the array is erased whenever the vault is not unlocked, in
all of a run, exactly if every action of the run is clean. -/
theorem vault_agrees_iff (events : List Event) (store : State) :
    vaultApp.Along (fun event app => Atomic event app ∧ Erased (vaultApp.next event app))
      (.create store) events ↔ vaultApp.Along Clean (.create store) events := by
  apply Component.along_iff (I := Tidy) _ _ (tidy_create store)
  · intro event app h
    rw [← action_iff event app h]
    exact and_congr_right fun _ => ⟨fun he => ⟨he, shown_next event app h.shown⟩, Tidy.erased⟩
  · exact fun event app h hclean => ((action_iff event app h).mpr hclean).2

/-- A new entry that cannot be saved. -/
def unsavedEntry : List Event :=
  [.unlock sampleEnv samplePw (List.replicate 16 none), .newEntry,
    .saveEntry sampleEnv samplePw samplePw samplePw samplePw [none, none, plainFault, none]]

/-- The entry stays in the list. -/
theorem unsavedEntry_stays :
    ¬ ∀ (events : List Event) (store : State),
      vaultApp.Along (fun event app => Atomic event app ∧ Erased (vaultApp.next event app))
        (.create store) events := by
  intro hall
  have hlast := (hall unsavedEntry (sampleCard, .empty) (unsavedEntry.take 2) _ [] rfl).1 rfl
    espErrNotFound (by decide +kernel) (by decide)
  have hcount : (vaultApp.run (.create (sampleCard, .empty)) unsavedEntry).vault.entryCount = 1 := by
    decide +kernel
  have hbefore : (vaultApp.run (.create (sampleCard, .empty))
      (unsavedEntry.take 2)).vault.entryCount = 0 := by decide +kernel
  have hsame := hcount.symm.trans (hlast.1.trans hbefore)
  exact absurd hsame (by decide)

end ThistleOS.Vault
