import ThistleOS.Component
import ThistleOS.EspErr
import ThistleOS.Slots
import ThistleOS.Text

/-!
# Permissions

The permission table of the kernel: sixteen slots, each with the bytes of an app id and the
permissions granted to it.
-/

namespace ThistleOS.Permissions

def maxApps : Nat := 16

/-- The bytes a slot keeps for an id, the terminating zero included. -/
def appIdLen : Nat := 64

structure AppPerms where
  id : List UInt8
  id_length : id.length = appIdLen
  perms : UInt32

namespace AppPerms

def empty : AppPerms := ⟨List.replicate appIdLen 0, List.length_replicate, 0⟩

def isFree (s : AppPerms) : Bool := s.id.head? == some 0

def matchesId (s : AppPerms) (appId : String) : Bool :=
  if s.isFree then false
  else
    match String.fromUTF8? ⟨s.id.toArray⟩ with
    | some stored => trimEndMatches '\x00' stored == appId
    | none => false

def setId (s : AppPerms) (appId : String) : AppPerms :=
  let len := min (utf8 appId).length (appIdLen - 1)
  { s with
    id := (utf8 appId).take len ++ List.replicate (appIdLen - len) 0
    id_length := by
      simp only [List.length_append, List.length_take, List.length_replicate, appIdLen, len]
      omega }

def setPerms (s : AppPerms) (perms : UInt32) : AppPerms := { s with perms := perms }

def grant (s : AppPerms) (perms : UInt32) : AppPerms := { s with perms := s.perms ||| perms }

def revoke (s : AppPerms) (perms : UInt32) : AppPerms := { s with perms := s.perms &&& ~~~perms }

end AppPerms

structure PermTable where
  slots : List AppPerms
  slots_length : slots.length = maxApps

namespace PermTable

def init : PermTable := ⟨List.replicate maxApps .empty, List.length_replicate⟩

/-- Change the first slot that satisfies `p`. -/
def updateFirst (p : AppPerms → Bool) (f : AppPerms → AppPerms) (t : PermTable) :
    Option PermTable :=
  (t.slots.findIdx? p).map fun i =>
    ⟨t.slots.modify i f, (List.length_modify f t.slots i).trans t.slots_length⟩

end PermTable

def grant (appId : String) (perms : UInt32) (t : PermTable) : EspErr × PermTable :=
  if appId.isEmpty then (espErrInvalidArg, t)
  else
    match t.updateFirst (·.matchesId appId) (·.grant perms) with
    | some t' => (espOk, t')
    | none =>
      match t.updateFirst AppPerms.isFree fun s => (s.setId appId).setPerms perms with
      | some t' => (espOk, t')
      | none => (espErrNoMem, t)

def revoke (appId : String) (perms : UInt32) (t : PermTable) : EspErr × PermTable :=
  if appId.isEmpty then (espErrInvalidArg, t)
  else
    match t.updateFirst (·.matchesId appId) (·.revoke perms) with
    | some t' => (espOk, t')
    | none => (espErrNotFound, t)

def check (appId : String) (perm : UInt32) (t : PermTable) : Bool :=
  if appId.isEmpty then false
  else ((t.slots.find? (·.matchesId appId)).map fun s => s.perms &&& perm == perm).getD false

def get (appId : String) (t : PermTable) : UInt32 :=
  if appId.isEmpty then 0 else ((t.slots.find? (·.matchesId appId)).map AppPerms.perms).getD 0

/-! ### The id of a slot -/

/-- The id that a slot is found under. -/
def AppPerms.appId (s : AppPerms) : Option String :=
  if s.isFree then none else (String.fromUTF8? ⟨s.id.toArray⟩).map (trimEndMatches '\x00')

/-- An id that a slot can keep. -/
structure Storable (appId : String) : Prop where
  short : (utf8 appId).length < appIdLen
  start : appId.toList.head? ≠ some '\x00'
  finish : appId.toList.getLast? ≠ some '\x00'

namespace AppPerms

lemma matchesId_iff {s : AppPerms} {id : String} : s.matchesId id = true ↔ s.appId = some id := by
  rw [matchesId, appId]
  split_ifs
  · simp
  · cases String.fromUTF8? ⟨s.id.toArray⟩ <;> simp

lemma matchesId_eq_false {s : AppPerms} {id : String} :
    s.matchesId id = false ↔ s.appId ≠ some id := by
  rw [← Bool.not_eq_true, matchesId_iff]

lemma appId_of_isFree {s : AppPerms} (h : s.isFree = true) : s.appId = none := by
  rw [appId, if_pos h]

@[simp] lemma appId_setPerms (s : AppPerms) (perms : UInt32) :
    (s.setPerms perms).appId = s.appId := rfl

@[simp] lemma appId_grant (s : AppPerms) (perms : UInt32) : (s.grant perms).appId = s.appId := rfl

@[simp] lemma appId_revoke (s : AppPerms) (perms : UInt32) : (s.revoke perms).appId = s.appId := rfl

@[simp] lemma isFree_grant (s : AppPerms) (perms : UInt32) : (s.grant perms).isFree = s.isFree := rfl

@[simp] lemma isFree_revoke (s : AppPerms) (perms : UInt32) :
    (s.revoke perms).isFree = s.isFree := rfl

end AppPerms

lemma trimEndMatches_append_replicate {c : Char} {s : String} (h : s.toList.getLast? ≠ some c)
    (n : Nat) : trimEndMatches c (s ++ String.ofList (List.replicate n c)) = s := by
  rw [trimEndMatches, String.toList_append, String.toList_ofList]
  have hdrop : (s.toList ++ List.replicate n c).rdropWhile (· == c) = s.toList := by
    induction n with
    | zero =>
      rw [List.replicate_zero, List.append_nil, List.rdropWhile_eq_self_iff]
      intro hne hlast
      exact h (by rw [List.getLast?_eq_some_getLast hne, beq_iff_eq.mp hlast])
    | succ n ih =>
      rw [List.replicate_succ', ← List.append_assoc, List.rdropWhile_concat_pos _ _ _ (by simp), ih]
  rw [hdrop, String.ofList_toList]

/-- The bytes that are kept of an id that fits are the id followed by zeros. -/
lemma setId_id {s : AppPerms} {id : String} (h : (utf8 id).length < appIdLen) :
    (s.setId id).id =
      utf8 (id ++ String.ofList (List.replicate (appIdLen - (utf8 id).length) '\x00')) := by
  have hlen : min (utf8 id).length (appIdLen - 1) = (utf8 id).length := by omega
  have hzero : ∀ n, utf8 (String.ofList (List.replicate n '\x00')) = List.replicate n 0 := by
    intro n
    rw [utf8_eq_flatMap, String.toList_ofList, List.flatMap_replicate]
    exact List.flatten_replicate_singleton
  rw [utf8_append, hzero, AppPerms.setId]
  simp only [hlen, List.take_length]

lemma isFree_setId {s : AppPerms} {id : String} (hne : id ≠ "") (h : Storable id) :
    (s.setId id).isFree = false := by
  obtain ⟨c, l, hcl⟩ := List.exists_cons_of_ne_nil (mt String.toList_eq_nil_iff.mp hne)
  have hc : c ≠ '\x00' := fun hc => h.start (by rw [hcl, hc, List.head?_cons])
  obtain ⟨b, bs, hb⟩ := List.exists_cons_of_ne_nil (String.utf8EncodeChar_ne_nil (c := c))
  have hzero : b ≠ 0 := fun h0 => hc (head?_utf8EncodeChar.mp (by rw [hb, List.head?_cons, h0]))
  rw [AppPerms.isFree, setId_id h.short, utf8_append, utf8_eq_flatMap id, hcl, List.flatMap_cons, hb]
  simpa using hzero

/-- An id that fits is the one its slot is found under. -/
lemma appId_setId {s : AppPerms} {id : String} (hne : id ≠ "") (h : Storable id) :
    (s.setId id).appId = some id := by
  rw [AppPerms.appId, isFree_setId hne h, setId_id h.short, fromUTF8?_utf8]
  simp [trimEndMatches_append_replicate h.finish]

/-! ### Updates -/

namespace PermTable

variable {t t' : PermTable} {p : AppPerms → Bool} {f : AppPerms → AppPerms}

lemma updateFirst_eq_none : t.updateFirst p f = none ↔ ∀ s ∈ t.slots, p s = false := by
  rw [updateFirst, Option.map_eq_none_iff, List.findIdx?_eq_none_iff]

lemma updateFirst_eq_some (h : t.updateFirst p f = some t') :
    ∃ pre s post, t.slots = pre ++ s :: post ∧ (∀ b ∈ pre, p b = false) ∧ p s = true ∧
      t'.slots = pre ++ f s :: post := by
  obtain ⟨i, hi, rfl⟩ := Option.map_eq_some_iff.mp h
  obtain ⟨pre, s, post, hsplit, rfl, hpre, hs⟩ := Slots.findIdx?_eq_some_split hi
  refine ⟨pre, s, post, hsplit, hpre, hs, ?_⟩
  change t.slots.modify pre.length f = pre ++ f s :: post
  rw [hsplit, Slots.modify_length_append]

end PermTable

/-- What `get` finds in the slots, once the id is known not to be empty. -/
def held (id : String) (slots : List AppPerms) : UInt32 :=
  ((slots.find? (·.matchesId id)).map AppPerms.perms).getD 0

lemma get_eq_held {id : String} (hne : id ≠ "") (t : PermTable) : get id t = held id t.slots := by
  rw [get, if_neg (by simpa using hne), held]

lemma get_empty (t : PermTable) : get "" t = 0 := rfl

lemma held_split {id : String} {s : AppPerms} {pre post : List AppPerms}
    (hpre : ∀ b ∈ pre, b.matchesId id = false) (hs : s.matchesId id = true) :
    held id (pre ++ s :: post) = s.perms := by
  rw [held, Slots.find?_split hpre hs, Option.map_some, Option.getD_some]

lemma held_eq_zero {id : String} {slots : List AppPerms}
    (h : ∀ s ∈ slots, s.matchesId id = false) : held id slots = 0 := by
  have hnone : slots.find? (·.matchesId id) = none :=
    List.find?_eq_none.mpr fun s hs => by simp [h s hs]
  rw [held, hnone, Option.map_none, Option.getD_none]

/-- Only the permissions of the ids that a slot is or was found under change with the slot. -/
lemma held_change {id : String} {s s' : AppPerms} {pre post : List AppPerms}
    (hs : s.appId ≠ some id) (hs' : s'.appId ≠ some id) :
    held id (pre ++ s' :: post) = held id (pre ++ s :: post) := by
  have hfind : (pre ++ s' :: post).find? (·.matchesId id) =
      (pre ++ s :: post).find? (·.matchesId id) :=
    Slots.find?_change (AppPerms.matchesId_eq_false.mpr hs) (AppPerms.matchesId_eq_false.mpr hs')
  rw [held, held, hfind]

/-- Changing the permissions in the slot of one id does not change those of another. -/
lemma get_other {id other : String} (hother : other ≠ id) {t t' : PermTable}
    {f : AppPerms → AppPerms} (hf : ∀ s, (f s).appId = s.appId)
    (h : t.updateFirst (·.matchesId id) f = some t') : get other t' = get other t := by
  by_cases hne : other = ""
  · rw [hne, get_empty, get_empty]
  · obtain ⟨pre, s, post, hsplit, -, hs, hsplit'⟩ := PermTable.updateFirst_eq_some h
    have hkey : s.appId ≠ some other := by
      rw [AppPerms.matchesId_iff.mp hs]
      exact fun heq => hother (Option.some.inj heq).symm
    rw [get_eq_held hne, get_eq_held hne, hsplit, hsplit', held_change hkey (by rwa [hf])]

/-- An app passes a check for the permissions that `get` shows, once it has a slot. -/
lemma check_eq_true {id : String} {perm : UInt32} {t : PermTable} (hne : id ≠ "") :
    check id perm t = true ↔
      (∃ s ∈ t.slots, s.matchesId id = true) ∧ get id t &&& perm = perm := by
  rw [check, if_neg (by simpa using hne), get_eq_held hne, held]
  cases hfind : t.slots.find? (·.matchesId id) with
  | none =>
    have hnone := List.find?_eq_none.mp hfind
    simp only [Option.map_none, Option.getD_none, Bool.false_eq_true, false_iff, not_and]
    rintro ⟨s, hs, hid⟩
    exact absurd hid (hnone s hs)
  | some s =>
    have hmatch := List.find?_some hfind
    have hs : ∃ s ∈ t.slots, s.matchesId id = true := ⟨s, List.mem_of_find?_eq_some hfind, hmatch⟩
    simp [hs]

/-! ### Calls -/

inductive PermOp
  | grant (appId : String) (perms : UInt32)
  | revoke (appId : String) (perms : UInt32)

/-- The permission table as a component. -/
def permissions : Component PermOp (fun _ => EspErr) PermTable where
  step
    | .grant id perms, t => grant id perms t
    | .revoke id perms, t => revoke id perms t

/-- A call that takes a free slot for a new id takes it for an id that the slot can keep. -/
def Fits : PermOp → PermTable → Prop
  | .grant id _, t =>
    id ≠ "" → (∀ s ∈ t.slots, s.matchesId id = false) → (∃ s ∈ t.slots, s.isFree = true) →
      Storable id
  | .revoke _ _, _ => True

/-- What a call does to the map from ids to permissions. -/
def MapStep : PermOp → PermTable → Prop
  | .grant id perms, t =>
    let (r, t') := grant id perms t
    (r = espOk → get id t' = get id t ||| perms) ∧
    (∀ other, other ≠ id → get other t' = get other t) ∧
    (r = espErrNoMem → ∃ ids : List String, ids.Nodup ∧ ids.length = maxApps ∧
      ∀ id ∈ ids, ∃ s ∈ t.slots, s.matchesId id = true)
  | .revoke id perms, t =>
    let (_, t') := revoke id perms t
    get id t' = get id t &&& ~~~perms ∧ ∀ other, other ≠ id → get other t' = get other t

/-- Every slot that is in use is the only slot of an id. -/
structure Kept (t : PermTable) : Prop where
  used : ∀ s ∈ t.slots, s.isFree = false → ∃ id, s.matchesId id = true
  single : Slots.Distinct AppPerms.appId t.slots

lemma kept_init : Kept .init := by
  have hfree : AppPerms.empty.isFree = true := rfl
  constructor
  · intro s hs hused
    rw [List.eq_of_mem_replicate hs, hfree] at hused
    cases hused
  · rw [Slots.Distinct, PermTable.init,
      List.filterMap_replicate_of_none (AppPerms.appId_of_isFree hfree)]
    exact List.nodup_nil

/-- Changing only the permissions of a slot keeps the table. -/
lemma Kept.update {t t' : PermTable} (h : Kept t) {p : AppPerms → Bool}
    {f : AppPerms → AppPerms} (hid : ∀ s, (f s).appId = s.appId)
    (hfree : ∀ s, (f s).isFree = s.isFree) (hu : t.updateFirst p f = some t') : Kept t' := by
  obtain ⟨pre, s, post, hsplit, -, -, hsplit'⟩ := PermTable.updateFirst_eq_some hu
  have hs : s ∈ t.slots := by rw [hsplit]; exact List.mem_append_right _ List.mem_cons_self
  constructor
  · intro b hb hused
    rw [hsplit'] at hb
    rcases List.mem_append.mp hb with hb | hb
    · exact h.used b (hsplit ▸ List.mem_append_left _ hb) hused
    · rcases List.mem_cons.mp hb with rfl | hb
      · rw [hfree] at hused
        obtain ⟨id, hmatch⟩ := h.used s hs hused
        exact ⟨id, by rwa [AppPerms.matchesId_iff, hid, ← AppPerms.matchesId_iff]⟩
      · exact h.used b (hsplit ▸ List.mem_append_right _ (List.mem_cons_of_mem s hb)) hused
  · rw [hsplit']
    exact (hsplit ▸ h.single).same_key (hid s)

/-- A table all of whose slots are in use holds as many ids as slots. -/
lemma Kept.full {t : PermTable} (h : Kept t) (hfull : ∀ s ∈ t.slots, s.isFree = false) :
    ∃ ids : List String, ids.Nodup ∧ ids.length = maxApps ∧
      ∀ id ∈ ids, ∃ s ∈ t.slots, s.matchesId id = true := by
  refine ⟨t.slots.filterMap AppPerms.appId, h.single, ?_, fun id hid => ?_⟩
  · rw [Slots.length_filterMap_key, t.slots_length]
    intro s hs
    obtain ⟨id, hmatch⟩ := h.used s hs (hfull s hs)
    rw [AppPerms.matchesId_iff.mp hmatch, Option.isSome_some]
  · obtain ⟨s, hs, hsid⟩ := List.mem_filterMap.mp hid
    exact ⟨s, hs, AppPerms.matchesId_iff.mpr hsid⟩

/-- No two slots are found under the same id. -/
lemma Kept.index_eq {t : PermTable} (h : Kept t) {i j : Nat} {a b : AppPerms} {id : String}
    (hi : t.slots[i]? = some a) (hj : t.slots[j]? = some b) (ha : a.matchesId id = true)
    (hb : b.matchesId id = true) : i = j :=
  h.single.index_eq hi hj (AppPerms.matchesId_iff.mp ha) (AppPerms.matchesId_iff.mp hb)

/-- What `grant` does. -/
lemma grant_cases (id : String) (perms : UInt32) (t : PermTable) :
    (id = "" ∧ grant id perms t = (espErrInvalidArg, t)) ∨
    (id ≠ "" ∧ ∃ t', t.updateFirst (·.matchesId id) (·.grant perms) = some t' ∧
      grant id perms t = (espOk, t')) ∨
    (id ≠ "" ∧ (∀ s ∈ t.slots, s.matchesId id = false) ∧
      ∃ t', t.updateFirst AppPerms.isFree (fun s => (s.setId id).setPerms perms) = some t' ∧
        grant id perms t = (espOk, t')) ∨
    (id ≠ "" ∧ (∀ s ∈ t.slots, s.matchesId id = false) ∧
      (∀ s ∈ t.slots, s.isFree = false) ∧ grant id perms t = (espErrNoMem, t)) := by
  by_cases hne : id = ""
  · left
    exact ⟨hne, by rw [grant, if_pos (by simpa using hne)]⟩
  · right
    rw [grant, if_neg (by simpa using hne)]
    cases hmatch : t.updateFirst (·.matchesId id) (·.grant perms) with
    | some t' => exact .inl ⟨hne, t', rfl, rfl⟩
    | none =>
      right
      have hnone := PermTable.updateFirst_eq_none.mp hmatch
      cases hfree : t.updateFirst AppPerms.isFree fun s => (s.setId id).setPerms perms with
      | some t' => exact .inl ⟨hne, hnone, t', rfl, rfl⟩
      | none => exact .inr ⟨hne, hnone, PermTable.updateFirst_eq_none.mp hfree, rfl⟩

section Step

variable {id : String} {perms : UInt32} {t t' : PermTable}

/-- A new id in a free slot. -/
lemma Kept.newSlot (h : Kept t) (hne : id ≠ "") (hid : Storable id)
    (hnone : ∀ s ∈ t.slots, s.matchesId id = false)
    (hu : t.updateFirst AppPerms.isFree (fun s => (s.setId id).setPerms perms) = some t') :
    Kept t' ∧ get id t' = perms ∧ ∀ other, other ≠ id → get other t' = get other t := by
  obtain ⟨pre, s, post, hsplit, -, hs, hsplit'⟩ := PermTable.updateFirst_eq_some hu
  have hfree : s.appId = none := AppPerms.appId_of_isFree hs
  have hnew : ((s.setId id).setPerms perms).appId = some id := by
    rw [AppPerms.appId_setPerms, appId_setId hne hid]
  refine ⟨⟨fun b hb hused => ?_, ?_⟩, ?_, fun other hother => ?_⟩
  · rw [hsplit'] at hb
    rcases List.mem_append.mp hb with hb | hb
    · exact h.used b (hsplit ▸ List.mem_append_left _ hb) hused
    · rcases List.mem_cons.mp hb with rfl | hb
      · exact ⟨id, AppPerms.matchesId_iff.mpr hnew⟩
      · exact h.used b (hsplit ▸ List.mem_append_right _ (List.mem_cons_of_mem s hb)) hused
  · rw [hsplit']
    refine (hsplit ▸ h.single).new_key hfree hnew fun c hc => ?_
    exact AppPerms.matchesId_eq_false.mp (hnone c (hsplit ▸ hc))
  · rw [get_eq_held hne, hsplit']
    refine held_split (fun b hb => hnone b ?_) (AppPerms.matchesId_iff.mpr hnew)
    rw [hsplit]
    exact List.mem_append_left _ hb
  · by_cases hempty : other = ""
    · rw [hempty, get_empty, get_empty]
    · rw [get_eq_held hempty, get_eq_held hempty, hsplit, hsplit']
      refine held_change (by simp [hfree]) ?_
      rw [hnew]
      exact fun heq => hother (Option.some.inj heq).symm

lemma get_eq_zero (hnone : ∀ s ∈ t.slots, s.matchesId id = false) : get id t = 0 := by
  by_cases hne : id = ""
  · rw [hne, get_empty]
  · rw [get_eq_held hne, held_eq_zero hnone]

/-- Changing the permissions in the slot of an id. -/
lemma get_same (hne : id ≠ "") {f : AppPerms → AppPerms} (hf : ∀ s, (f s).appId = s.appId)
    (g : UInt32 → UInt32) (hg : ∀ s, (f s).perms = g s.perms)
    (h : t.updateFirst (·.matchesId id) f = some t') : get id t' = g (get id t) := by
  obtain ⟨pre, s, post, hsplit, hpre, hs, hsplit'⟩ := PermTable.updateFirst_eq_some h
  have hs' : (f s).matchesId id = true := by
    rwa [AppPerms.matchesId_iff, hf, ← AppPerms.matchesId_iff]
  rw [get_eq_held hne, get_eq_held hne, hsplit, hsplit', held_split hpre hs, held_split hpre hs', hg]

/-- What `grant` does to a table that is kept. -/
lemma Kept.grant (h : Kept t) (hfits : Fits (.grant id perms) t) :
    Kept (grant id perms t).2 ∧ MapStep (.grant id perms) t := by
  have hinvalid : espErrInvalidArg ≠ espOk ∧ espErrInvalidArg ≠ espErrNoMem := by decide
  have hok : espOk ≠ espErrNoMem := by decide
  rcases grant_cases id perms t with ⟨-, heq⟩ | ⟨hne, t', hu, heq⟩ | ⟨hne, hnone, t', hu, heq⟩ |
    ⟨-, -, hfull, heq⟩
  · simp only [MapStep, heq]
    exact ⟨h, fun hr => absurd hr hinvalid.1, fun _ _ => trivial, fun hr => absurd hr hinvalid.2⟩
  · simp only [MapStep, heq]
    refine ⟨h.update (fun s => s.appId_grant perms) (fun s => s.isFree_grant perms) hu,
      fun _ => get_same hne (fun s => s.appId_grant perms) (· ||| perms) (fun _ => rfl) hu,
      fun other hother => get_other hother (fun s => s.appId_grant perms) hu,
      fun hr => absurd hr hok⟩
  · obtain ⟨_, s, _, hsplit, -, hs, -⟩ := PermTable.updateFirst_eq_some hu
    have hid : Storable id := hfits hne hnone ⟨s, by simp [hsplit], hs⟩
    obtain ⟨hkept, hget, hother⟩ := h.newSlot hne hid hnone hu
    simp only [MapStep, heq]
    refine ⟨hkept, fun _ => ?_, hother, fun hr => absurd hr hok⟩
    rw [hget, get_eq_zero hnone, UInt32.zero_or]
  · simp only [MapStep, heq]
    exact ⟨h, fun hr => absurd hr.symm hok, fun _ _ => trivial, fun _ => h.full hfull⟩

/-- What `revoke` does to a table that is kept. -/
lemma Kept.revoke (h : Kept t) (id : String) (perms : UInt32) :
    Kept (revoke id perms t).2 ∧ MapStep (.revoke id perms) t := by
  by_cases hne : id = ""
  · have heq : Permissions.revoke id perms t = (espErrInvalidArg, t) := by
      rw [Permissions.revoke, if_pos (by simpa using hne)]
    subst hne
    simp only [MapStep, heq, get_empty, UInt32.zero_and]
    exact ⟨h, trivial, fun _ _ => trivial⟩
  · cases hu : t.updateFirst (·.matchesId id) (·.revoke perms) with
    | some t' =>
      have heq : Permissions.revoke id perms t = (espOk, t') := by
        rw [Permissions.revoke, if_neg (by simpa using hne), hu]
      simp only [MapStep, heq]
      exact ⟨h.update (fun s => s.appId_revoke perms) (fun s => s.isFree_revoke perms) hu,
        get_same hne (fun s => s.appId_revoke perms) (· &&& ~~~perms) (fun _ => rfl) hu,
        fun other hother => get_other hother (fun s => s.appId_revoke perms) hu⟩
    | none =>
      have heq : Permissions.revoke id perms t = (espErrNotFound, t) := by
        rw [Permissions.revoke, if_neg (by simpa using hne), hu]
      simp only [MapStep, heq, get_eq_zero (PermTable.updateFirst_eq_none.mp hu), UInt32.zero_and]
      exact ⟨h, trivial, fun _ _ => trivial⟩

end Step

/-! ### Ids that do not fit -/

/-- A permission granted to an id that is too long goes to the id made of its first bytes. -/
lemma grant_truncated {id kept : String} {rest : List UInt8} {perms : UInt32} {t : PermTable}
    (hid : utf8 id = utf8 kept ++ rest) (hlen : (utf8 kept).length = appIdLen - 1)
    (hrest : rest ≠ []) (hkept : Storable kept) (hnone : ∀ s ∈ t.slots, s.matchesId id = false)
    (hnone' : ∀ s ∈ t.slots, s.matchesId kept = false)
    (hfree : ∃ s ∈ t.slots, s.isFree = true) :
    (grant id perms t).1 = espOk ∧ get id (grant id perms t).2 = 0 ∧
      get kept (grant id perms t).2 = perms := by
  have hne : kept ≠ "" := by
    rintro rfl
    cases hlen
  have hdiff : id ≠ kept := by
    rintro rfl
    exact hrest (List.self_eq_append_right.mp hid)
  have hne' : id ≠ "" := by
    rintro rfl
    simp [utf8_eq_flatMap "", hrest] at hid
  have hbytes : ∀ s : AppPerms, (s.setId id).id = (s.setId kept).id := by
    intro s
    have hmin : min ((utf8 kept).length + rest.length) (appIdLen - 1) = (utf8 kept).length := by
      omega
    have hmin' : min (utf8 kept).length (appIdLen - 1) = (utf8 kept).length := by omega
    simp only [AppPerms.setId, hid, List.length_append, hmin, hmin', List.take_left,
      List.take_length]
  obtain ⟨s₀, hs₀, hfree₀⟩ := hfree
  rcases grant_cases id perms t with ⟨h, -⟩ | ⟨-, t', hu, -⟩ | ⟨-, -, t', hu, heq⟩ | ⟨-, -, h, -⟩
  · exact absurd h hne'
  · obtain ⟨pre, s, post, hsplit, -, hs, -⟩ := PermTable.updateFirst_eq_some hu
    exact absurd hs (by rw [hnone s (by simp [hsplit])]; decide)
  · obtain ⟨pre, s, post, hsplit, -, hs, hsplit'⟩ := PermTable.updateFirst_eq_some hu
    have hkey : ((s.setId id).setPerms perms).appId = some kept := by
      rw [AppPerms.appId_setPerms, ← appId_setId (s := s) hne hkept, AppPerms.appId,
        AppPerms.appId, AppPerms.isFree, AppPerms.isFree, hbytes]
    rw [heq]
    refine ⟨rfl, get_eq_zero fun b hb => ?_, ?_⟩
    · rw [hsplit'] at hb
      rcases List.mem_append.mp hb with hb | hb
      · exact hnone b (hsplit ▸ List.mem_append_left _ hb)
      · rcases List.mem_cons.mp hb with rfl | hb
        · rw [AppPerms.matchesId_eq_false, hkey]
          exact fun h => hdiff (Option.some.inj h).symm
        · exact hnone b (hsplit ▸ List.mem_append_right _ (List.mem_cons_of_mem s hb))
    · rw [get_eq_held hne, hsplit']
      refine held_split (fun b hb => hnone' b ?_) (AppPerms.matchesId_iff.mpr hkey)
      rw [hsplit]
      exact List.mem_append_left _ hb
  · exact absurd hfree₀ (by rw [h s₀ hs₀]; decide)

/-! ### Runs -/

/-- At most one slot is found under an id. -/
def OneSlot (t : PermTable) : Prop :=
  ∀ (i j : Nat) (a b : AppPerms) (id : String), t.slots[i]? = some a → t.slots[j]? = some b →
    a.matchesId id = true → b.matchesId id = true → i = j

lemma Kept.step {o : PermOp} {t : PermTable} (h : Kept t) (hfits : Fits o t) :
    Kept (permissions.next o t) ∧ MapStep o t := by
  cases o with
  | grant id perms => exact h.grant hfits
  | revoke id perms => exact h.revoke id perms

/-- The permission table is a finite map from ids to permissions in every run in which an id that
takes a free slot fits into it. -/
theorem table_refines_map (ops : List PermOp) (h : permissions.Along Fits .init ops) :
    permissions.Along (fun o t => MapStep o t ∧ OneSlot t) .init ops ∧
      OneSlot (permissions.run .init ops) := by
  have hone : ∀ t, Kept t → OneSlot t := fun t hk i j a b id hi hj ha hb => hk.index_eq hi hj ha hb
  obtain ⟨halong, hlast⟩ :=
    Component.along_of_preserved (fun o t hk hfits => (hk.step hfits).1) kept_init h
  exact ⟨halong.mono fun o t hk => ⟨(hk.1.step hk.2).2, hone t hk.1⟩, hone _ hlast⟩

theorem table_refines_map_sample :
    permissions.Along (fun o t => MapStep o t ∧ OneSlot t) .init
        [.grant "app.radio" 1, .revoke "app.radio" 1] ∧
      OneSlot (permissions.run .init [.grant "app.radio" 1, .revoke "app.radio" 1]) := by
  refine table_refines_map _ (Component.along_cons.mpr ⟨fun _ _ _ => ?_, ?_⟩)
  · exact ⟨by decide, by decide, by decide⟩
  · exact Component.along_cons.mpr ⟨trivial, Component.along_nil⟩

/-- The id made of `n` letters. -/
def letters (n : Nat) : String := String.ofList (List.replicate n 'a')

lemma utf8_letters (n : Nat) : utf8 (letters n) = List.replicate n 97 := by
  rw [letters, utf8_eq_flatMap, String.toList_ofList, List.flatMap_replicate]
  exact List.flatten_replicate_singleton

lemma storable_letters : Storable (letters 63) := by
  constructor
  · rw [utf8_letters, List.length_replicate]
    decide
  · rw [letters, String.toList_ofList]
    decide
  · rw [letters, String.toList_ofList]
    decide

/-- An id of 64 bytes does not get the permission that `grant` reports as granted. -/
theorem table_not_map_of_long_id :
    ¬ permissions.Along (fun o t => MapStep o t ∧ OneSlot t) .init [.grant (letters 64) 1] := by
  have hnone : ∀ id, ∀ s ∈ PermTable.init.slots, s.matchesId id = false := by
    intro id s hs
    rw [List.eq_of_mem_replicate hs]
    rfl
  have hbytes : utf8 (letters 64) = utf8 (letters 63) ++ [97] := by
    rw [utf8_letters, utf8_letters]
    rfl
  have hlen : (utf8 (letters 63)).length = appIdLen - 1 := by
    rw [utf8_letters, List.length_replicate]
    rfl
  have hgrant : (grant (letters 64) 1 .init).1 = espOk ∧
      get (letters 64) (grant (letters 64) 1 .init).2 = 0 ∧ _ :=
    grant_truncated hbytes hlen (by simp) storable_letters (hnone _) (hnone _)
      ⟨.empty, List.mem_cons_self, rfl⟩
  intro h
  have hstep : get (letters 64) (grant (letters 64) 1 .init).2 = get (letters 64) .init ||| 1 :=
    (Component.along_cons.mp h).1.1.1 hgrant.1
  rw [hgrant.2.1, get_eq_zero (hnone _)] at hstep
  cases hstep

end ThistleOS.Permissions
