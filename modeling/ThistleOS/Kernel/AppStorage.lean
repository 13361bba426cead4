import ThistleOS.Recovery.ArtifactManifest
import ThistleOS.Recovery.BundleTransaction.Paths

/-!
# The storage of the apps

Every app has a directory of its own below the base directory of the storage. The paths that it asks
for are resolved below that directory.
-/

open ThistleOS.BundleTransaction

namespace ThistleOS.AppStorage

/-! ### Paths -/

def isIdByte (byte : UInt8) : Bool :=
  isAlphanumeric byte || byte == 46 || byte == 95 || byte == 45

def validAppStorageId (appId : String) : Bool :=
  match utf8 appId with
  | [] => false
  | first :: rest => isAlphanumeric first && rest.all isIdByte

/-- Push a path to another one, as the standard library does it. -/
def push (path component : String) : String :=
  if isAbsolute component then component
  else if path.toList.getLast?.any (· != '/') then path ++ "/" ++ component
  else path ++ component

/-- The loop over the components of a requested path, with the number of those that it has pushed. -/
def pushComponents (resolved : String) (count : Nat) : List Component → Option (String × Nat)
  | [] => some (resolved, count)
  | .normal value :: rest => pushComponents (push resolved value) (count + 1) rest
  | .rootDir :: _ => none
  | .curDir :: _ => none
  | .parentDir :: _ => none

def resolveAppStoragePath (appId requested base : String) : Option String :=
  if !validAppStorageId appId || requested.toList.isEmpty then none
  else if (requested.toList.splitOn '/').any
      fun component => component.isEmpty || component == ['.'] || component == ['.', '.'] then none
  else if isAbsolute requested then none
  else
    match pushComponents (push base appId) 0 (components requested) with
    | some (resolved, count) => if count ≠ 0 then some resolved else none
    | none => none

/-! ### Components of a pushed path -/

variable {path name appId requested base resolved : String} {count : Nat}

lemma push_plain (h : PlainName name) (path : String) :
    push path name = if path.toList.getLast?.any (· != '/') then path ++ "/" ++ name else path ++ name := by
  have hrelative : isAbsolute name = false := by
    rw [isAbsolute]
    cases hname : name.toList with
    | nil => rfl
    | cons c cs =>
      have hc : c ≠ '/' := fun heq => h.separator (by rw [hname, heq]; exact List.mem_cons_self)
      simpa using hc
  rw [push, hrelative, if_neg Bool.false_ne_true]

/-- The components that the pieces of a path make. -/
def ofPieces : List (List Char) → List Component
  | [] => []
  | [] :: [] => []
  | [] :: rest => .rootDir :: rest.flatMap piece
  | ['.'] :: rest => .curDir :: rest.flatMap piece
  | first :: rest => (first :: rest).flatMap piece

lemma components_eq (path : String) : components path = ofPieces (path.toList.splitOn '/') := rfl

/-- A piece more makes its components more. -/
lemma ofPieces_append {pieces : List (List Char)} (hne : pieces ≠ []) (hroot : pieces ≠ [[]])
    (last : List Char) : ofPieces (pieces ++ [last]) = ofPieces pieces ++ piece last := by
  cases pieces with
  | nil => exact absurd rfl hne
  | cons first rest =>
    by_cases hfirst : first = []
    · subst hfirst
      cases rest with
      | nil => exact absurd rfl hroot
      | cons second rest => simp [ofPieces]
    by_cases hdot : first = ['.']
    · subst hdot
      simp [ofPieces]
    · rw [List.cons_append, ofPieces.eq_5 _ _ (by simp [hfirst]) hfirst hdot,
        ofPieces.eq_5 _ _ (by simp [hfirst]) hfirst hdot]
      simp

lemma splitOn_plain (h : PlainName name) : name.toList.splitOn '/' = [name.toList] :=
  List.splitOn_eq_singleton h.separator

lemma components_plain (h : PlainName name) : components name = [.normal name] := by
  have heq := ofPieces.eq_5 name.toList [] (by simp [h.nonempty]) h.nonempty h.noCurDir
  rw [components_eq, splitOn_plain h, heq]
  simp [h.piece_eq]

/-- A name that is pushed is one component more. -/
lemma components_push (h : PlainName name) (path : String) :
    components (push path name) = components path ++ [.normal name] := by
  rw [push_plain h]
  rcases List.eq_nil_or_concat path.toList with hpath | ⟨front, c, hpath⟩
  · obtain rfl : path = "" := String.toList_inj.mp hpath
    rw [if_neg (by decide), String.empty_append, components_plain h]
    rfl
  rw [List.concat_eq_append] at hpath
  by_cases hc : c = '/'
  · subst hc
    have hlast : path.toList.getLast?.any (· != '/') = false := by simp [hpath]
    have hpieces : path.toList.splitOn '/' = front.splitOn '/' ++ [[]] := by
      rw [hpath, List.splitOn_append_cons_self]
      rfl
    rw [hlast, if_neg Bool.false_ne_true, components_eq, components_eq, String.toList_append, hpieces,
      hpath, List.append_assoc, List.singleton_append, List.splitOn_append_cons_self, splitOn_plain h]
    by_cases hroot : front.splitOn '/' = [[]]
    · have hpiece : piece [] = [] := rfl
      rw [hroot]
      simp [ofPieces, h.piece_eq, hpiece]
    · rw [ofPieces_append (List.splitOn_ne_nil _ _) hroot, ofPieces_append (List.splitOn_ne_nil _ _) hroot,
        h.piece_eq]
      simp [piece]
  · have hlast : path.toList.getLast?.any (· != '/') = true := by simp [hpath, hc]
    have hroot : path.toList.splitOn '/' ≠ [[]] := by
      intro hroot
      have hjoin : ['/'].intercalate (path.toList.splitOn '/') = path.toList :=
        List.intercalate_splitOn '/'
      rw [hroot] at hjoin
      simp [hpath] at hjoin
    have hsep : ("/" : String).toList = ['/'] := rfl
    rw [hlast, if_pos rfl, components_eq, components_eq, String.toList_append, String.toList_append, hsep,
      List.append_assoc, List.singleton_append, List.splitOn_append_cons_self, splitOn_plain h,
      ofPieces_append (List.splitOn_ne_nil _ _) hroot, h.piece_eq]

lemma notMem_of_mem_splitOn {α : Type} [DecidableEq α] {a : α} {xs l : List α}
    (h : l ∈ xs.splitOn a) : a ∉ l := by
  induction xs generalizing l with
  | nil =>
    rw [List.splitOn_nil, List.mem_singleton] at h
    simp [h]
  | cons x xs ih =>
    rw [List.splitOn_cons_eq_if_modifyHead] at h
    split_ifs at h with hx
    · rcases List.mem_cons.mp h with rfl | h
      · exact List.not_mem_nil
      · exact ih h
    · cases hsplit : xs.splitOn a with
      | nil => exact absurd hsplit (List.splitOn_ne_nil _ _)
      | cons first rest =>
        rw [hsplit, List.modifyHead_cons, List.mem_cons] at h
        rcases h with rfl | h
        · have hfirst : a ∉ first := ih (hsplit ▸ List.mem_cons_self)
          have hne : a ≠ x := fun heq => hx (by simp [heq])
          simp [hfirst, hne]
        · exact ih (hsplit ▸ List.mem_cons_of_mem first h)

/-- A name that a piece of a path makes is the piece. -/
lemma plainName_of_mem_piece {l : List Char} (hsep : '/' ∉ l) (h : .normal name ∈ piece l) :
    PlainName name := by
  unfold piece at h
  split at h
  · simp at h
  · simp at h
  · simp at h
  · rename_i hnonempty hcur hparent
    obtain rfl := Component.normal.inj (List.mem_singleton.mp h)
    constructor
    · simpa using hsep
    · simpa using hnonempty
    · simpa using hcur
    · simpa using hparent

/-- The names among the components of a path can stand between two separators. -/
lemma plainName_of_mem_components (h : .normal name ∈ components path) : PlainName name := by
  have hpiece : ∃ l ∈ path.toList.splitOn '/', .normal name ∈ piece l := by
    rw [components_eq] at h
    generalize path.toList.splitOn '/' = pieces at h
    unfold ofPieces at h
    split at h
    · simp at h
    · simp at h
    · obtain ⟨l, hl, h⟩ := List.mem_flatMap.mp ((List.mem_cons.mp h).resolve_left (by simp))
      exact ⟨l, List.mem_cons_of_mem _ hl, h⟩
    · obtain ⟨l, hl, h⟩ := List.mem_flatMap.mp ((List.mem_cons.mp h).resolve_left (by simp))
      exact ⟨l, List.mem_cons_of_mem _ hl, h⟩
    · obtain ⟨l, hl, h⟩ := List.mem_flatMap.mp h
      exact ⟨l, hl, h⟩
  obtain ⟨l, hl, h⟩ := hpiece
  exact plainName_of_mem_piece (notMem_of_mem_splitOn hl) h

/-- What has been pushed are names, and the components of the result end in them. -/
lemma pushComponents_some {comps : List Component} {n : Nat}
    (hplain : ∀ name, .normal name ∈ comps → PlainName name)
    (h : pushComponents path count comps = some (resolved, n)) :
    n = count + comps.length ∧ (∀ c ∈ comps, c.isNormal = true) ∧
      components resolved = components path ++ comps := by
  induction comps generalizing path count with
  | nil =>
    obtain ⟨rfl, rfl⟩ := Prod.mk.inj (Option.some.inj h)
    simp
  | cons c comps ih =>
    cases c with
    | normal value =>
      obtain ⟨hn, hnormal, hresolved⟩ := ih (fun name hname => hplain name (List.mem_cons_of_mem _ hname)) h
      refine ⟨?_, ?_, ?_⟩
      · rw [hn, List.length_cons]
        omega
      · intro c hc
        rcases List.mem_cons.mp hc with rfl | hc
        · rfl
        · exact hnormal c hc
      · rw [hresolved, components_push (hplain value List.mem_cons_self), List.append_assoc]
        rfl
    | rootDir => cases h
    | curDir => cases h
    | parentDir => cases h

/-! ### The directory of an app -/

lemma plainName_of_validId (h : validAppStorageId appId = true) : PlainName appId := by
  unfold validAppStorageId at h
  split at h
  · cases h
  · rename_i first rest hbytes
    obtain ⟨hfirst, hrest⟩ := Bool.and_eq_true_iff.mp h
    have hbyte : ∀ byte ∈ utf8 appId, isIdByte byte = true := by
      intro byte hmem
      rw [hbytes, List.mem_cons] at hmem
      rcases hmem with rfl | hmem
      · simp [isIdByte, hfirst]
      · exact List.all_eq_true.mp hrest byte hmem
    have hne : ∀ text : String, (utf8 text).head?.any isAlphanumeric = false → appId ≠ text := by
      rintro text htext rfl
      rw [hbytes] at htext
      simp [hfirst] at htext
    constructor
    · refine notMem_of_bytes (b := 47) (by decide) fun hmem => ?_
      exact absurd (hbyte 47 hmem) (by decide)
    · exact fun heq => hne "" (by decide) (String.toList_inj.mp heq)
    · exact fun heq => hne "." (by decide) (String.toList_inj.mp heq)
    · exact fun heq => hne ".." (by decide) (String.toList_inj.mp heq)

/-- A resolved path is that of the app's directory with the components of the request. -/
lemma components_resolved (h : resolveAppStoragePath appId requested base = some resolved) :
    PlainName appId ∧ components requested ≠ [] ∧ (∀ c ∈ components requested, c.isNormal = true) ∧
      components resolved = components (push base appId) ++ components requested := by
  unfold resolveAppStoragePath at h
  split_ifs at h with hguard
  split at h
  · rename_i resolved' count hpush
    obtain ⟨hcount, hnormal, hcomponents⟩ :=
      pushComponents_some (fun name => plainName_of_mem_components) hpush
    split_ifs at h with hne
    obtain rfl := Option.some.inj h
    have hid : validAppStorageId appId = true := by
      simp only [Bool.or_eq_true, Bool.not_eq_true', not_or] at hguard
      simpa using hguard.1
    refine ⟨plainName_of_validId hid, ?_, hnormal, hcomponents⟩
    intro hnil
    rw [hnil] at hcount
    exact hne hcount
  · cases h

/-- The path lies below the app's directory, and is not that directory. -/
def BelowApp (base appId resolved : String) : Prop :=
  ∃ below, components resolved = components base ++ .normal appId :: below ∧ below ≠ [] ∧
    ∀ c ∈ below, c.isNormal = true

lemma components_appDirectory (h : validAppStorageId appId = true) (base : String) :
    components (push base appId) = components base ++ [.normal appId] :=
  components_push (plainName_of_validId h) base

lemma belowApp_of_resolved (h : resolveAppStoragePath appId requested base = some resolved) :
    BelowApp base appId resolved := by
  obtain ⟨hplain, hne, hnormal, hcomponents⟩ := components_resolved h
  refine ⟨components requested, ?_, hne, hnormal⟩
  rw [hcomponents, components_push hplain, List.append_assoc, List.singleton_append]

/-- Every resolved path lies below the directory of its app, and no path of one app is one of another
app. -/
theorem storage_sandboxed (base : String) :
    (∀ appId requested resolved, resolveAppStoragePath appId requested base = some resolved →
      BelowApp base appId resolved) ∧
    ∀ appId appId', validAppStorageId appId = true → validAppStorageId appId' = true →
      appId ≠ appId' →
      (∀ requested requested' resolved resolved',
        resolveAppStoragePath appId requested base = some resolved →
        resolveAppStoragePath appId' requested' base = some resolved' →
        components resolved ≠ components resolved') ∧
      ¬ components (push base appId) <+: components (push base appId') := by
  refine ⟨fun appId requested resolved h => belowApp_of_resolved h, ?_⟩
  intro appId appId' hid hid' hne
  constructor
  · intro requested requested' resolved resolved' h h' heq
    obtain ⟨below, hbelow, -⟩ := belowApp_of_resolved h
    obtain ⟨below', hbelow', -⟩ := belowApp_of_resolved h'
    rw [hbelow, hbelow', List.append_cancel_left_eq] at heq
    exact hne (Component.normal.inj (List.cons.inj heq).1)
  · rw [components_appDirectory hid, components_appDirectory hid', List.prefix_append_right_inj]
    intro hle
    exact hne (Component.normal.inj (List.cons_prefix_cons.mp hle).1)

theorem storage_sandboxed_notes :
    BelowApp "/spiffs/data/apps" "notes" "/spiffs/data/apps/notes/a/b" ∧
      ¬ components (push "/spiffs/data/apps" "notes") <+: components (push "/spiffs/data/apps" "maps") := by
  have hresolved : resolveAppStoragePath "notes" "a/b" "/spiffs/data/apps" =
      some "/spiffs/data/apps/notes/a/b" := by decide +kernel
  exact ⟨(storage_sandboxed "/spiffs/data/apps").1 "notes" "a/b" _ hresolved,
    ((storage_sandboxed "/spiffs/data/apps").2 "notes" "maps" (by decide) (by decide) (by decide)).2⟩

end ThistleOS.AppStorage
