import ThistleOS.JsonText.Documents
import ThistleOS.EspErr
import ThistleOS.Kernel.MsgQueue.Lookup
import Mathlib.Data.List.Forall2

/-!
# The buses of a board

The configuration of a board lists its buses. A section is found by the first place where its key
stands in quotes, and ends where its brackets are balanced, those within strings counted as well.
-/

namespace ThistleOS.BoardConfig

open MsgQueue JsonText

/-! ### Sections -/

/-- The text up to the bracket that brings the depth back to zero. -/
def closing (opening closer : Char) : Int → Text → Option Text
  | _, [] => none
  | depth, ch :: s =>
    if ch = opening then (closing opening closer (depth + 1) s).map (ch :: ·)
    else if ch = closer then
      if depth - 1 = 0 then some [ch] else (closing opening closer (depth - 1) s).map (ch :: ·)
    else (closing opening closer depth s).map (ch :: ·)

/-- The section of a key that starts with a bracket. -/
def findSection (opening closer : Char) (json key : Text) : Option Text := do
  let trimmed ← jsonValue json key
  if trimmed.head? ≠ some opening then none
  else closing opening closer 0 trimmed

def findArray (json key : Text) : Option Text := findSection '[' ']' json key

def extractObject (json key : Text) : Option Text := findSection '{' '}' json key

/-- The scan of `nth_object`; `start` is the text from the brace on where the object starts. -/
def scanObjects (n : Nat) : Int → Nat → Option Text → Text → Option Text
  | _, _, _, [] => none
  | depth, count, start, ch :: s =>
    if ch = '{' then
      scanObjects n (depth + 1) count (if depth = 0 ∧ count = n then some (ch :: s) else start) s
    else if ch = '}' then
      if depth - 1 = 0 then
        if count = n then start.map fun text => text.take (text.length - s.length)
        else scanObjects n (depth - 1) (count + 1) start s
      else scanObjects n (depth - 1) count start s
    else scanObjects n depth count start s

def stripBrackets (s : Text) : Option Text :=
  match s with
  | '[' :: inner => if inner.getLast? = some ']' then some inner.dropLast else none
  | _ => none

def nthObject (arrayStr : Text) (n : Nat) : Option Text := do
  let inner ← stripBrackets (trim arrayStr)
  scanObjects n 0 0 none inner

/-! ### Buses -/

inductive BusInit where
  | spi (host mosi miso sclk maxTransferBytes : Int32)
  | i2c (port sda scl freqHz : Int32)
  deriving DecidableEq

def asI32 (n : Int) : Int32 := Int32.ofInt n

def spiBus (bus : Text) : BusInit :=
  .spi (asI32 ((jsonGetInt bus "host".toList).getD 1)) (asI32 ((jsonGetInt bus "mosi".toList).getD (-1)))
    (asI32 ((jsonGetInt bus "miso".toList).getD (-1))) (asI32 ((jsonGetInt bus "sclk".toList).getD (-1)))
    (asI32 ((jsonGetInt bus "max_transfer_bytes".toList).getD 4096))

def i2cBus (bus : Text) : BusInit :=
  .i2c (asI32 ((jsonGetInt bus "port".toList).getD 0)) (asI32 ((jsonGetInt bus "sda".toList).getD (-1)))
    (asI32 ((jsonGetInt bus "scl".toList).getD (-1))) (asI32 ((jsonGetInt bus "freq_hz".toList).getD 400000))

/-- What the initialisation of a bus returns, after the calls made before. -/
abbrev Answer := List BusInit → BusInit → EspErr

/-- The buses of an array, by their indices. -/
def initBuses (answer : Answer) (read : Text → BusInit) (arr : Text) : List Nat → List BusInit → EspErr × List BusInit
  | [], calls => (espOk, calls)
  | i :: is, calls =>
    match nthObject arr i with
    | none => (espOk, calls)
    | some bus =>
      let ret := answer calls (read bus)
      if ret ≠ espOk then (ret, calls ++ [read bus]) else initBuses answer read arr is (calls ++ [read bus])

/-- The buses under a key, none if there is no array. -/
def initKind (answer : Answer) (read : Text → BusInit) (busesObj key : Text) (calls : List BusInit) :
    EspErr × List BusInit :=
  match findArray busesObj key with
  | some arr => initBuses answer read arr (List.range 4) calls
  | none => (espOk, calls)

def initializeConfiguredBuses (answer : Answer) (json : Text) : EspErr × List BusInit :=
  match extractObject json "buses".toList with
  | none => (espOk, [])
  | some busesObj =>
    let (ret, calls) := initKind answer spiBus busesObj "spi".toList []
    if ret ≠ espOk then (ret, calls) else initKind answer i2cBus busesObj "i2c".toList calls

/-! ### What a document lists -/

def objectAt (ms : List Member) (key : Text) : Option Text := (valueAt ms key).filter isObject

def arrayAt (ms : List Member) (key : Text) : Option Text := (valueAt ms key).filter isArray

/-- The number of a key, the default if there is none. -/
def numberAt (e : List Member) (key : Text) (default : Int) : Int32 :=
  asI32 (((valueAt e key).bind parseI64).getD default)

def spiEntry (e : List Member) : BusInit :=
  .spi (numberAt e "host".toList 1) (numberAt e "mosi".toList (-1)) (numberAt e "miso".toList (-1))
    (numberAt e "sclk".toList (-1)) (numberAt e "max_transfer_bytes".toList 4096)

def i2cEntry (e : List Member) : BusInit :=
  .i2c (numberAt e "port".toList 0) (numberAt e "sda".toList (-1)) (numberAt e "scl".toList (-1))
    (numberAt e "freq_hz".toList 400000)

/-- One call for each bus, in order, up to the first that fails. -/
inductive InOrder (answer : Answer) (bs : List BusInit) : EspErr × List BusInit → Prop
  | all (h : ∀ before b after, bs = before ++ b :: after → answer before b = espOk) : InOrder answer bs (espOk, bs)
  | failed {before b after} (h : bs = before ++ b :: after) (hfail : answer before b ≠ espOk)
    (hbefore : ∀ before' b' after', before = before' ++ b' :: after' → answer before' b' = espOk) :
    InOrder answer bs (answer before b, before ++ [b])

/-! ### What can be read -/

/-- The depth first is zero at the end of the text. -/
def closes (opening closer : Char) : Int → Text → Bool
  | _, [] => false
  | depth, ch :: t =>
    if ch = opening then closes opening closer (depth + 1) t
    else if ch = closer then
      if depth - 1 = 0 then t.isEmpty else closes opening closer (depth - 1) t
    else closes opening closer depth t

/-- The first place where the key stands in quotes is followed by the value, whose brackets close at its end; where
there is no value, by no text whose brackets close. -/
def Reaches (opening closer : Char) (text key : Text) : Option Text → Prop
  | some value => closes opening closer 0 value ∧ ∃ rest, jsonValue text key = some (value ++ rest)
  | none => ∀ value rest, jsonValue text key = some (value ++ rest) → value.head? = some opening →
      closes opening closer 0 value = false

/-- The stretches from a brace at depth zero to the one that brings the depth back, wherever the braces stand. -/
def groupsFrom : Int → Option Text → Text → List Text
  | _, _, [] => []
  | depth, start, ch :: s =>
    if ch = '{' then groupsFrom (depth + 1) (if depth = 0 then some (ch :: s) else start) s
    else if ch = '}' then
      if depth - 1 = 0 then
        (start.map fun text => text.take (text.length - s.length)).toList ++ groupsFrom (depth - 1) start s
      else groupsFrom (depth - 1) start s
    else groupsFrom depth start s

def braceGroups (s : Text) : List Text := groupsFrom 0 none s

/-- The first place where the key stands in quotes is followed by its number, if there is one. -/
def NumberReads (text : Text) (e : List Member) (key : Text) : Prop :=
  match valueAt e key with
  | some t => (∃ n, parseI64 t = some n ∧ -0x80000000 ≤ n ∧ n < 0x80000000) ∧
      ∃ rest, jsonValue text key = some (t ++ rest) ∧ NoNumber rest
  | none => ∀ s, jsonValue text key = some s → NoNumber s

/-- An object with the numbers of some keys. -/
def EntryReads (keys : List Text) (e : List Member) (text : Text) : Prop :=
  ∃ body, ObjectOf IsText e body ∧ text = object body ∧ ∀ key ∈ keys, NumberReads text e key

/-- The first entries of a kind of bus in a document, where nothing stands in the way of the reader. -/
inductive Legible (text : Text) (ms : List Member) (kind : Text) (keys : List Text) : List (List Member) → Prop
  | noBuses (h : objectAt ms "buses".toList = none) (hr : Reaches '{' '}' text "buses".toList none) :
    Legible text ms kind keys []
  | noArray {bms body} (h : objectAt ms "buses".toList = some (object body)) (hb : ObjectOf IsText bms body)
    (ha : arrayAt bms kind = none) (hr : Reaches '{' '}' text "buses".toList (some (object body)))
    (hra : Reaches '[' ']' (object body) kind none) : Legible text ms kind keys []
  | array {bms body ts items es} (h : objectAt ms "buses".toList = some (object body)) (hb : ObjectOf IsText bms body)
    (ha : arrayAt bms kind = some (array items)) (ht : ArrayOf IsText ts items)
    (hr : Reaches '{' '}' text "buses".toList (some (object body)))
    (hra : Reaches '[' ']' (object body) kind (some (array items)))
    (hg : (braceGroups items).take 4 = (ts.filter isObject).take 4)
    (he : List.Forall₂ (EntryReads keys) es ((ts.filter isObject).take 4)) : Legible text ms kind keys es

/-! ### Sections -/

variable {opening closer : Char} {json key s t : Text} {depth : Int}

lemma closing_eq_some : closing opening closer depth s = some t ↔ closes opening closer depth t ∧ t <+: s := by
  induction s generalizing depth t with
  | nil =>
    cases t with
    | nil => simp [closing, closes]
    | cons ch t => simp [closing]
  | cons ch s ih =>
    cases t with
    | nil =>
      simp only [closing, closes, Bool.false_eq_true, false_and, iff_false]
      split_ifs
      · simp
      · simp
      · simp
      · simp
    | cons ch' t =>
      rw [List.cons_prefix_cons]
      by_cases heq : ch' = ch
      · subst heq
        rw [closing, closes]
        split_ifs
        · simp [ih]
        · rw [Option.some_inj, List.cons.injEq, and_iff_right rfl, List.isEmpty_iff, eq_comm]
          exact ⟨fun hnil => ⟨hnil, ⟨rfl, hnil ▸ List.nil_prefix⟩⟩, And.left⟩
        · simp [ih]
        · simp [ih]
      · refine iff_of_false ?_ fun h => heq h.2.1
        rw [closing]
        split_ifs
        · simp [Ne.symm heq]
        · simp [Ne.symm heq]
        · simp [Ne.symm heq]
        · simp [Ne.symm heq]

lemma findSection_eq_some {value : Text} : findSection opening closer json key = some value ↔
    value.head? = some opening ∧ closes opening closer 0 value ∧ ∃ rest, jsonValue json key = some (value ++ rest) := by
  rw [findSection]
  cases hjson : jsonValue json key with
  | none => simp
  | some trimmed =>
    simp only [Option.bind_eq_bind, Option.bind_some, ne_eq, ite_not, Option.some.injEq]
    split_ifs with hhead
    · rw [closing_eq_some]
      constructor
      · rintro ⟨hcloses, rest, rfl⟩
        refine ⟨?_, hcloses, rest, rfl⟩
        cases value with
        | nil => exact absurd hcloses (by simp [closes])
        | cons ch value => simpa using hhead
      · rintro ⟨-, hcloses, rest, rfl⟩
        exact ⟨hcloses, List.prefix_append value rest⟩
    · refine iff_of_false (by simp) ?_
      rintro ⟨hvalue, -, rest, rfl⟩
      refine hhead ?_
      rw [List.head?_append, hvalue]
      rfl

/-- A section is found exactly if the reader reaches it. -/
theorem findSection_iff {value : Option Text} (h : ∀ v, value = some v → v.head? = some opening) :
    findSection opening closer json key = value ↔ Reaches opening closer json key value := by
  cases value with
  | some v =>
    rw [findSection_eq_some]
    exact and_iff_right (h v rfl)
  | none =>
    rw [Option.eq_none_iff_forall_ne_some]
    constructor
    · intro hnone v rest hjson hhead
      refine (Bool.not_eq_true _).mp fun hcloses => ?_
      exact hnone v (findSection_eq_some.mpr ⟨hhead, hcloses, rest, hjson⟩)
    · intro hreaches v hsome
      obtain ⟨hhead, hcloses, rest, hjson⟩ := findSection_eq_some.mp hsome
      rw [hreaches v rest hjson hhead] at hcloses
      cases hcloses

lemma head?_of_objectAt {ms : List Member} {v : Text} (h : objectAt ms key = some v) : v.head? = some '{' := by
  have hobject := (Option.filter_eq_some_iff.mp h).2
  simpa [isObject] using hobject

lemma head?_of_arrayAt {ms : List Member} {v : Text} (h : arrayAt ms key = some v) : v.head? = some '[' := by
  have harray := (Option.filter_eq_some_iff.mp h).2
  simpa [isArray] using harray

/-! ### Items -/

/-- The scan counts the groups. -/
lemma scanObjects_eq {n count : Nat} {start group : Option Text} (hcount : count ≤ n)
    (hstart : 1 ≤ depth → ∃ x, group = some x ∧ (count = n → start = some x)) :
    scanObjects n depth count start s = (groupsFrom depth group s)[n - count]? := by
  induction s generalizing depth count start group with
  | nil => simp [scanObjects, groupsFrom]
  | cons ch s ih =>
    rw [scanObjects, groupsFrom]
    by_cases hopen : ch = '{'
    · rw [if_pos hopen, if_pos hopen]
      refine ih hcount fun hdepth => ?_
      by_cases hzero : depth = 0
      · rw [if_pos hzero]
        exact ⟨_, rfl, fun hn => if_pos ⟨hzero, hn⟩⟩
      · obtain ⟨x, hgroup, hx⟩ := hstart (by omega)
        rw [if_neg hzero, if_neg fun h => hzero h.1]
        exact ⟨x, hgroup, hx⟩
    · rw [if_neg hopen, if_neg hopen]
      by_cases hclose : ch = '}'
      · rw [if_pos hclose, if_pos hclose]
        by_cases hzero : depth - 1 = 0
        · obtain ⟨x, rfl, hx⟩ := hstart (by omega)
          rw [if_pos hzero, if_pos hzero]
          by_cases hn : count = n
          · rw [if_pos hn, hx hn, hn, Nat.sub_self]
            rfl
          · have hsucc : n - count = (n - (count + 1)) + 1 := by omega
            rw [if_neg hn, ih (Nat.lt_of_le_of_ne hcount hn) fun h => by omega, hsucc]
            rfl
        · rw [if_neg hzero, if_neg hzero]
          exact ih hcount fun h => hstart (by omega)
      · rw [if_neg hclose, if_neg hclose]
        exact ih hcount hstart

lemma nthObject_array (items : Text) (n : Nat) : nthObject (array items) n = (braceGroups items)[n]? := by
  have hstart : trimStart (array items) = array items := trimStart_of_not (by decide) _
  have htrim : trim (array items) = array items := by
    rw [trim, hstart, List.rdropWhile_eq_self_iff]
    intro hne
    rw [show (array items).getLast hne = ']' by simp [array]]
    decide
  have hstrip : stripBrackets (array items) = some items := by
    simp [stripBrackets, array]
  rw [nthObject, htrim, hstrip, Option.bind_eq_bind, Option.bind_some, scanObjects_eq (Nat.zero_le n) (fun h => by omega),
    Nat.sub_zero, braceGroups]

/-- The objects of an array are found exactly if they are the groups of its braces. -/
theorem nthObject_iff (items : Text) (objects : List Text) :
    (∀ n, nthObject (array items) n = objects[n]?) ↔ braceGroups items = objects := by
  constructor
  · intro h
    refine List.ext_getElem? fun n => ?_
    rw [← nthObject_array, h n]
  · rintro rfl n
    exact nthObject_array items n

/-! ### Numbers -/

/-- The number that is read is the number of the entry. -/
lemma NumberReads.getInt {e : List Member} (h : NumberReads s e key) (default : Int) :
    asI32 ((jsonGetInt s key).getD default) = numberAt e key default := by
  rw [numberAt]
  rw [NumberReads] at h
  cases hvalue : valueAt e key with
  | some t =>
    rw [hvalue] at h
    obtain ⟨⟨n, hn, -⟩, rest, hjson, hrest⟩ := h
    rw [jsonGetInt, hjson, Option.bind_eq_bind, Option.bind_some, List.takeWhile_append_of_pos (parseI64_chars hn),
      takeWhile_of_noNumber hrest, List.append_nil, Option.bind_some]
  | none =>
    rw [hvalue] at h
    rw [jsonGetInt]
    cases hjson : jsonValue s key with
    | none => rfl
    | some rest =>
      rw [Option.bind_eq_bind, Option.bind_some, takeWhile_of_noNumber (h rest hjson)]
      rfl

lemma spiBus_eq {e : List Member}
    (h : EntryReads ["host".toList, "mosi".toList, "miso".toList, "sclk".toList, "max_transfer_bytes".toList] e t) :
    spiBus t = spiEntry e := by
  obtain ⟨body, -, -, hkeys⟩ := h
  have hread := fun key hkey => (hkeys key hkey).getInt
  rw [spiBus, spiEntry, hread _ (by simp), hread _ (by simp), hread _ (by simp), hread _ (by simp), hread _ (by simp)]

lemma i2cBus_eq {e : List Member}
    (h : EntryReads ["port".toList, "sda".toList, "scl".toList, "freq_hz".toList] e t) : i2cBus t = i2cEntry e := by
  obtain ⟨body, -, -, hkeys⟩ := h
  have hread := fun key hkey => (hkeys key hkey).getInt
  rw [i2cBus, i2cEntry, hread _ (by simp), hread _ (by simp), hread _ (by simp), hread _ (by simp)]

/-! ### Calls -/

/-- The calls for some buses, after others. -/
def initEach (answer : Answer) : List BusInit → List BusInit → EspErr × List BusInit
  | [], calls => (espOk, calls)
  | b :: bs, calls => if answer calls b ≠ espOk then (answer calls b, calls ++ [b]) else initEach answer bs (calls ++ [b])

variable {answer : Answer} {read : Text → BusInit} {calls bs bs' : List BusInit}

lemma initEach_inOrder (hok : ∀ before b after, calls = before ++ b :: after → answer before b = espOk) :
    InOrder answer (calls ++ bs) (initEach answer bs calls) := by
  induction bs generalizing calls with
  | nil =>
    rw [initEach, List.append_nil]
    exact .all hok
  | cons b bs ih =>
    rw [initEach]
    split_ifs with hfail
    · exact .failed rfl hfail hok
    · rw [List.append_cons]
      refine ih fun before b' after heq => ?_
      rcases List.eq_nil_or_concat after with rfl | ⟨after', last, rfl⟩
      · obtain ⟨rfl, hlast⟩ := List.append_inj' heq rfl
        rw [← List.singleton_inj.mp hlast]
        exact not_not.mp hfail
      · rw [List.concat_eq_append, ← List.cons_append, ← List.append_assoc] at heq
        exact hok before b' after' (List.append_inj' heq rfl).1

lemma initEach_append : initEach answer (bs ++ bs') calls =
    if (initEach answer bs calls).1 ≠ espOk then initEach answer bs calls
    else initEach answer bs' (initEach answer bs calls).2 := by
  induction bs generalizing calls with
  | nil => rfl
  | cons b bs ih =>
    rw [List.cons_append, initEach, initEach]
    by_cases hfail : answer calls b ≠ espOk
    · rw [if_pos hfail, if_pos hfail, if_pos hfail]
    · rw [if_neg hfail, if_neg hfail]
      exact ih

/-- The indices run over the objects of the array. -/
lemma initBuses_eq {arr : Text} {objects : List Text} (h : ∀ n, nthObject arr n = objects[n]?) (k m : Nat) :
    initBuses answer read arr (List.range' k m) calls = initEach answer (((objects.drop k).take m).map read) calls := by
  induction m generalizing k calls with
  | zero => rfl
  | succ m ih =>
    rw [List.range'_succ, initBuses, h k]
    cases hk : objects[k]? with
    | none =>
      rw [List.drop_eq_nil_of_le (List.getElem?_eq_none_iff.mp hk)]
      rfl
    | some bus =>
      obtain ⟨hlt, hget⟩ := List.getElem?_eq_some_iff.mp hk
      rw [List.drop_eq_getElem_cons hlt, hget, List.take_succ_cons, List.map_cons, initEach]
      simp only [ih]

lemma map_of_forall₂ {keys : List Text} {es : List (List Member)} {ts : List Text} {entry : List Member → BusInit}
    (hread : ∀ e t, EntryReads keys e t → read t = entry e) (h : List.Forall₂ (EntryReads keys) es ts) :
    ts.map read = es.map entry := by
  induction h with
  | nil => rfl
  | cons hentry _ ih => rw [List.map_cons, List.map_cons, hread _ _ hentry, ih]

/-- The calls for a kind of bus are those for its entries. -/
lemma Legible.initKind (answer : Answer) {text kind : Text} {ms : List Member} {keys : List Text} {es : List (List Member)}
    {entry : List Member → BusInit} (h : Legible text ms kind keys es)
    (hread : ∀ e t, EntryReads keys e t → read t = entry e) :
    extractObject text "buses".toList = objectAt ms "buses".toList ∧
      (objectAt ms "buses".toList = none → es = []) ∧
      ∀ buses, objectAt ms "buses".toList = some buses → ∀ calls,
        BoardConfig.initKind answer read buses kind calls = initEach answer (es.map entry) calls := by
  have hbuses {value : Option Text} (hvalue : objectAt ms "buses".toList = value)
      (hr : Reaches '{' '}' text "buses".toList value) : extractObject text "buses".toList = value := by
    refine (findSection_iff fun v hv => ?_).mpr hr
    rw [hv] at hvalue
    exact head?_of_objectAt hvalue
  cases h with
  | noBuses h hr =>
    rw [h]
    exact ⟨hbuses h hr, fun _ => rfl, fun buses hsome => absurd hsome (by simp)⟩
  | noArray h hb ha hr hra =>
    rw [h]
    refine ⟨hbuses h hr, fun _ => rfl, fun buses hsome calls => ?_⟩
    obtain rfl := Option.some.inj hsome
    have hfind : findArray _ kind = none := (findSection_iff fun v hv => absurd hv (by simp)).mpr hra
    rw [BoardConfig.initKind, hfind]
    rfl
  | array h hb ha ht hr hra hg he =>
    rename_i bms body ts items
    rw [h]
    refine ⟨hbuses h hr, fun hnone => absurd hnone (by simp), fun buses hsome calls => ?_⟩
    obtain rfl := Option.some.inj hsome
    have hfind : findArray (object body) kind = some (JsonText.array items) :=
      (findSection_iff fun v hv => by rw [← Option.some.inj hv]; rfl).mpr hra
    rw [BoardConfig.initKind, hfind]
    show initBuses answer read (JsonText.array items) (List.range 4) calls = _
    rw [List.range_eq_range', initBuses_eq (nthObject_array items) 0 4, List.drop_zero, hg, map_of_forall₂ hread he]

/-! ### Strings without brackets -/

/-- A text that leaves a depth as it is, and never brings it to zero. -/
def Passes (opening closer : Char) (s : Text) : Prop :=
  ∀ depth, 1 ≤ depth → ∀ rest, closes opening closer depth (s ++ rest) = closes opening closer depth rest

/-- A string that holds neither bracket. -/
def WithoutBrackets (opening closer : Char) (t : Text) : Prop := IsText t ∧ opening ∉ t ∧ closer ∉ t

lemma Passes.append (hs : Passes opening closer s) (ht : Passes opening closer t) : Passes opening closer (s ++ t) := by
  intro depth hdepth rest
  rw [List.append_assoc, hs depth hdepth, ht depth hdepth]

lemma passes_of_notMem (hopening : opening ∉ s) (hcloser : closer ∉ s) : Passes opening closer s := by
  intro depth hdepth rest
  induction s with
  | nil => rfl
  | cons ch s ih =>
    rw [List.mem_cons, not_or] at hopening hcloser
    rw [List.cons_append, closes, if_neg (Ne.symm hopening.1), if_neg (Ne.symm hcloser.1), ih hopening.2 hcloser.2]

/-- A pair of brackets passes if what is between them does. -/
lemma Passes.between (h : Passes opening closer s) (hne : opening ≠ closer) :
    Passes opening closer (opening :: s ++ [closer]) := by
  intro depth hdepth rest
  rw [List.cons_append, List.cons_append, closes, if_pos rfl, List.append_assoc, h _ (by omega), List.singleton_append,
    closes, if_neg hne.symm, if_pos rfl, Int.add_sub_cancel, if_neg (by omega)]

/-- The brackets of objects and those of arrays. -/
inductive Brackets : Char → Char → Prop
  | braces : Brackets '{' '}'
  | square : Brackets '[' ']'

namespace Brackets

variable (hb : Brackets opening closer)

include hb

lemma passes_of_quiet (h : ∀ c ∈ s, Quiet c) : Passes opening closer s := by
  have hbrackets : ¬ Quiet opening ∧ ¬ Quiet closer := by cases hb <;> simp [Quiet]
  exact passes_of_notMem (fun hmem => hbrackets.1 (h _ hmem)) fun hmem => hbrackets.2 (h _ hmem)

lemma passes_mark {c : Char} (hc : c = ',' ∨ c = ':') : Passes opening closer [c] := by
  refine passes_of_notMem ?_ ?_ <;> cases hb <;> rcases hc with rfl | rfl <;> simp

lemma passes_listed {ts : List Text} {body : Text} (h : Listed ts body) (hts : ∀ t ∈ ts, Passes opening closer t) :
    Passes opening closer body := by
  have hwhite {w : Text} (hw : White w) : Passes opening closer w := hb.passes_of_quiet fun _ => hw.quiet
  induction h with
  | nil hw => exact hwhite hw
  | singleton hw hw' => exact ((hwhite hw).append (hts _ List.mem_cons_self)).append (hwhite hw')
  | cons hw hw' hrest ih =>
    have hitem := ((hwhite hw).append (hts _ List.mem_cons_self)).append (hwhite hw')
    exact hitem.append ((hb.passes_mark (.inl rfl)).append (ih fun t ht => hts t (List.mem_cons_of_mem _ ht)))

lemma passes_member {m : Member} (hm : m.Spelled (WithoutBrackets opening closer))
    (hvalue : Passes opening closer m.value) : Passes opening closer m.text := by
  have hkey : Passes opening closer m.key := passes_of_notMem hm.key.2.1 hm.key.2.2
  have hbefore : Passes opening closer m.beforeColon := hb.passes_of_quiet fun _ => hm.beforeColon.quiet
  have hafter : Passes opening closer m.afterColon := hb.passes_of_quiet fun _ => hm.afterColon.quiet
  have htext : m.text = m.key ++ m.beforeColon ++ ([':'] ++ m.afterColon ++ m.value) := by simp [Member.text]
  rw [htext]
  exact (hkey.append hbefore).append (((hb.passes_mark (.inr rfl)).append hafter).append hvalue)

lemma passes_members {ms : List Member} {body : Text} (h : Listed (ms.map Member.text) body)
    (hms : ∀ m ∈ ms, m.Spelled (WithoutBrackets opening closer)) (hvalues : ∀ m ∈ ms, Passes opening closer m.value) :
    Passes opening closer body := by
  refine hb.passes_listed h fun t ht => ?_
  obtain ⟨m, hm, rfl⟩ := List.mem_map.mp ht
  exact hb.passes_member (hms m hm) (hvalues m hm)

/-- Brackets of the one kind pass those of the other. -/
lemma passes_around (h : Passes opening closer s) :
    Passes opening closer ('[' :: s ++ [']']) ∧ Passes opening closer ('{' :: s ++ ['}']) := by
  have hsingle {c : Char} (hopening : opening ≠ c) (hcloser : closer ≠ c) : Passes opening closer [c] :=
    passes_of_notMem (by simpa using hopening) (by simpa using hcloser)
  cases hb with
  | braces =>
    exact ⟨((hsingle (by decide) (by decide)).append h).append (hsingle (by decide) (by decide)), h.between (by decide)⟩
  | square =>
    exact ⟨h.between (by decide), ((hsingle (by decide) (by decide)).append h).append (hsingle (by decide) (by decide))⟩

/-- A value passes if its strings hold no brackets. -/
lemma passes_value {v : Text} (h : IsJson (WithoutBrackets opening closer) v) : Passes opening closer v := by
  induction h with
  | string h => exact passes_of_notMem h.2.1 h.2.2
  | scalar h => exact hb.passes_of_quiet fun _ => h.quiet
  | array hts h ih => exact (hb.passes_around (hb.passes_listed h ih)).1
  | object hms hvalues h ih => exact (hb.passes_around (hb.passes_members h hms ih)).2

end Brackets

lemma closes_between (h : Passes opening closer s) (hne : opening ≠ closer) :
    closes opening closer 0 (opening :: s ++ [closer]) = true := by
  rw [List.cons_append, closes, if_pos rfl, h _ (by decide), closes, if_neg hne.symm, if_pos rfl]
  rfl

/-- The braces of an object close at its end if its strings hold none. -/
theorem closes_object {ms : List Member} {body : Text} (h : ObjectOf (WithoutBrackets '{' '}') ms body) :
    closes '{' '}' 0 (object body) = true :=
  closes_between (Brackets.braces.passes_members h.listed h.members fun m hm => Brackets.braces.passes_value (h.values m hm))
    (by decide)

/-- The brackets of an array close at its end if its strings hold none. -/
theorem closes_array {ts : List Text} {items : Text} (h : ArrayOf (WithoutBrackets '[' ']') ts items) :
    closes '[' ']' 0 (array items) = true :=
  closes_between (Brackets.square.passes_listed h.listed fun t ht => Brackets.square.passes_value (h.items t ht)) (by decide)

/-! ### Boards -/

lemma objectOf_single (key value : Text) (hkey : ∀ c ∈ key, Unescaped c) (hvalue : IsJson IsText value) :
    ObjectOf IsText [compact key value] (compact key value).text := by
  have h := objectOf_compact (fun _ => IsString.isText) [(key, value)] (by simp) (by simpa using hkey)
    (by simpa using hvalue)
  simpa using h

lemma reaches_none {text : Text} (h : jsonValue text key = none) : Reaches opening closer text key none := by
  intro value rest hvalue
  rw [h] at hvalue
  cases hvalue

lemma numberReads_none {e : List Member} {text : Text} (he : valueAt e key = none) (h : jsonValue text key = none) :
    NumberReads text e key := by
  rw [NumberReads, he]
  intro value hvalue
  rw [h] at hvalue
  cases hvalue

end ThistleOS.BoardConfig
