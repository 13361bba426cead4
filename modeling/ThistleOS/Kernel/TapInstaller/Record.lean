import ThistleOS.Component
import ThistleOS.Kernel.TapInstaller.Retry

/-!
# The record of the active generation

Over any number of installations, the record names a generation that holds the files of its package,
and its sequence does not decrease, as long as the versions can stand in the text of a JSON string.
-/

open PowerLoss FileTree

namespace ThistleOS.TapInstaller

variable {P : Platform} {r : TapRequest} {k : UInt32} {file : List UInt8} {t t' : Tree}
  {id : String} {q : Path} {fs : List Packed}

/-- The directory of an app. -/
def appOf (P : Platform) (id : String) : Path := P.appsRoot ++ [id]

/-- The record of an app. -/
def recordOf (P : Platform) (id : String) : Path := appOf P id ++ ["active.json"]

/-- A text that can stand between the quotes of a JSON string. -/
def Plain (s : String) : Prop := ∀ c ∈ s.toList, c ≠ '"' ∧ c ≠ '\\' ∧ 0x20 ≤ c.toNat

/-- The reader of JSON reads the text of a record with a plain version. -/
def ReadsRecords (fromSlice : List UInt8 → Option Value) : Prop :=
  ∀ r : TapRequest, Plain r.expectedVersion →
    fromSlice r.recordText = some (.object [("release_sequence", .number (some r.expectedSequence.toNat)),
      ("version", .string r.expectedVersion)])

/-- A call, with what it takes from the sequence of stages and what the environment does. -/
structure Call where
  request : TapRequest
  stageNumber : UInt32
  faults : List (Option (machine String UInt8).Fault)

/-- The installer, one call after the other. -/
def installer (P : Platform) : Component Call
    (fun _ => PowerLoss.Outcome (Except TapError Path) (Option (machine String UInt8).Fault)) Tree where
  step c t := Act.run (machine String UInt8) (installTapWith P c.request c.stageNumber) c.faults t

/-- The calls that have been made, each with the archive that it found. -/
abbrev Log := List (TapRequest × List UInt8)

def logCall (c : Call) (t : Tree) (log : Log) : Log :=
  match t.readFile c.request.tapPath with
  | .ok file => log ++ [(c.request, file)]
  | .error _ => log

/-- The installer with the log of its calls. -/
def logged (P : Platform) := (installer P).observe logCall

/-- The record of an app is that of a call, and its generation holds the verified files of the package,
and nothing else. -/
structure Named (P : Platform) (w : Tree × Log) (id : String) (r : TapRequest) : Prop where
  id_eq : r.expectedId = id
  record : w.1.node (recordOf P id) = some (.file r.recordText)
  package : ∃ file fs, (r, file) ∈ w.2 ∧ Verified P r file fs ∧ Holds fs (r.destination P) w.1

def RecordsNamed (P : Platform) (w : Tree × Log) : Prop :=
  ∀ id, w.1.node (recordOf P id) = none ∨ ∃ r, Named P w id r

/-- What is read of a record does not decrease. -/
def SequencesGrow (P : Platform) (c : Call) (w : Tree × Log) : Prop :=
  ∀ id s, activeOf P w.1 (recordOf P id) = .ok (some s) →
    ∃ s', activeOf P ((installer P).next c w.1) (recordOf P id) = .ok (some s') ∧ s ≤ s'

/-- After a call that returns `Ok`, its sequence is read. -/
def SequenceRead (P : Platform) (c : Call) (w : Tree × Log) : Prop :=
  ∀ destination rest, (installer P).reply c w.1 = .done (.ok destination) rest →
    activeOf P ((installer P).next c w.1) (recordOf P c.request.expectedId) =
      .ok (some c.request.expectedSequence.toNat)

/-! ### One call -/

lemma apart_appOf {id id' : String} (h : id ≠ id') : Apart (appOf P id) (appOf P id') := by
  rw [appOf, appOf, apart_append_left_iff]
  simp [Apart, h, Ne.symm h]

lemma appOf_prefix_generations (r : TapRequest) : appOf P r.expectedId <+: r.generations P :=
  List.prefix_append _ _

/-- An installation changes nothing of another app. -/
lemma Outcome.other (h : Outcome P r k t t') (hid : r.expectedId ≠ id) (hq : appOf P id <+: q) :
    t'.node q = t.node q := by
  have hchange : ChangesBelow {appOf P r.expectedId} t t' := by
    have hbelow : ∀ a ∈ reach P r k, ∃ a' ∈ ({appOf P r.expectedId} : Set Path), a' <+: a := by
      rintro a (rfl | rfl | rfl | rfl)
      · exact ⟨_, rfl, (appOf_prefix_generations r).trans (List.prefix_append _ _)⟩
      · exact ⟨_, rfl, (appOf_prefix_generations r).trans (List.prefix_append _ _)⟩
      · exact ⟨_, rfl, List.prefix_append _ _⟩
      · exact ⟨_, rfl, List.prefix_append _ _⟩
    have hstage : ∀ a ∈ ({r.stage P k} : Set Path),
        ∃ a' ∈ ({appOf P r.expectedId} : Set Path), a' <+: a :=
      fun a ha => hbelow a ((Set.mem_singleton_iff.mp ha) ▸ stage_mem_reach)
    rcases h with (hpaves | ⟨hchange, -⟩) | hgen | hgen
    · exact hpaves.changesBelow.mono hstage
    · exact hchange.mono hstage
    · exact hgen.change.mono hbelow
    · exact hgen.change.mono hbelow
  refine hchange.node_eq fun a ha => ?_
  rw [Set.mem_singleton_iff.mp ha]
  exact (apart_appOf hid).mono List.prefix_rfl hq

lemma Holds.congr {dir : Path} (h : Holds fs dir t)
    (hsame : ∀ q, dir <+: q → t'.node q = t.node q) : Holds fs dir t' :=
  ⟨(hsame _ List.prefix_rfl).trans h.root,
    fun q hq => (hsame _ (List.prefix_append _ _)).trans (h.below q hq)⟩

/-- A call keeps what is named if it keeps the record. -/
lemma Named.keep {w : Tree × Log} {log : Log} (h : Named P w id r)
    (hrecord : t'.node (recordOf P id) = w.1.node (recordOf P id))
    (hsame : w.1.node (r.destination P) ≠ none → ∀ q, r.destination P <+: q → t'.node q = w.1.node q)
    (hlog : w.2 ⊆ log) : Named P (t', log) id r := by
  obtain ⟨file, fs, hmem, hverified, hholds⟩ := h.package
  have hpresent : w.1.node (r.destination P) ≠ none := by simp [hholds.root]
  exact ⟨h.id_eq, hrecord.trans h.record, file, fs, hlog hmem, hverified,
    hholds.congr (hsame hpresent)⟩

lemma subset_logCall (c : Call) (t : Tree) (log : Log) : log ⊆ logCall c t log := by
  rw [logCall]
  split
  · exact List.subset_append_left _ _
  · exact List.Subset.refl _

lemma mem_logCall {c : Call} (h : t.node c.request.tapPath = some (.file file)) (log : Log) :
    (c.request, file) ∈ logCall c t log := by
  rw [logCall, readFile_of_file h]
  exact List.mem_append_right _ List.mem_cons_self

lemma next_outcome (c : Call) (t : Tree) :
    Outcome P c.request c.stageNumber t ((installer P).next c t) :=
  run_outcome P c.request c.stageNumber t c.faults

/-- What a call makes of a record. -/
lemma record_cases {Q : TapRequest → Prop} (c : Call) (w : Tree × Log)
    (h : w.1.node (recordOf P id) = none ∨ ∃ r, Q r ∧ Named P w id r) :
    ((installer P).next c w.1).node (recordOf P id) = w.1.node (recordOf P id) ∧
        (((installer P).next c w.1).node (recordOf P id) = none ∨
          ∃ r, Q r ∧ Named P ((logged P).next c w) id r) ∨
      c.request.expectedId = id ∧ Named P ((logged P).next c w) id c.request ∧
        Allowed P c.request w.1 := by
  have hout := next_outcome (P := P) c w.1
  have hlog := subset_logCall c w.1 w.2
  by_cases hid : c.request.expectedId = id
  · have hpath : recordOf P id = c.request.activePath P := by
      rw [← hid]
      rfl
    have hkept : ((installer P).next c w.1).node (recordOf P id) = w.1.node (recordOf P id) →
        (∀ x q, w.1.node (c.request.generations P ++ [x]) ≠ none →
          c.request.generations P ++ [x] <+: q → ((installer P).next c w.1).node q = w.1.node q) →
        ((installer P).next c w.1).node (recordOf P id) = none ∨
          ∃ r, Q r ∧ Named P ((logged P).next c w) id r := by
      intro hrecord hgenerations
      refine h.imp hrecord.trans fun ⟨r, hQ, hr⟩ =>
        ⟨r, hQ, hr.keep hrecord (fun hpresent q hq => ?_) hlog⟩
      have hsame : r.generations P = c.request.generations P := by
        rw [TapRequest.generations, TapRequest.generations, TapRequest.appDir, TapRequest.appDir,
          hr.id_eq, hid]
      rw [TapRequest.destination, hsame] at hpresent hq
      exact hgenerations _ q hpresent hq
    rcases hout with hstaged | hgen | hgen
    · have hrecord := hpath ▸ hstaged.record
      exact .inl ⟨hrecord, hkept hrecord fun x q hx hq => hstaged.generations hx hq⟩
    · have hrecord := hpath ▸ hgen.record
      exact .inl ⟨hrecord, hkept hrecord fun x q hx hq => hgen.generations hx hq⟩
    · obtain ⟨file, fs, hfile, hverified, hholds⟩ := hgen.package
      refine .inr ⟨hid, ⟨hid, ?_, file, fs, mem_logCall hfile w.2, hverified, hholds⟩, hgen.allowed⟩
      rw [hpath]
      exact hgen.record
  · have hother := fun q (hq : appOf P id <+: q) => hout.other hid hq
    have hrecord := hother (recordOf P id) (List.prefix_append _ _)
    refine .inl ⟨hrecord, h.imp hrecord.trans fun ⟨r, hQ, hr⟩ =>
      ⟨r, hQ, hr.keep hrecord (fun _ q hq => hother q ?_) hlog⟩⟩
    exact hr.id_eq ▸ (appOf_prefix_generations r).trans ((List.prefix_append _ _).trans hq)

/-! ### Reading the record -/

lemma activeOf_record (hjson : ReadsRecords P.fromSlice) (hplain : Plain r.expectedVersion) {p : Path}
    (h : t.node p = some (.file r.recordText)) :
    activeOf P t p = .ok (some r.expectedSequence.toNat) := by
  have hsequence : recordSequence P r.recordText = .ok r.expectedSequence.toNat := by
    rw [recordSequence, hjson r hplain]
    rfl
  rw [activeOf, if_pos (by simp [exists?, h]), readFile_of_file h]
  simp only [hsequence, Except.map]

/-- The records are named, with plain versions. -/
def PlainlyNamed (P : Platform) (w : Tree × Log) : Prop :=
  ∀ id, w.1.node (recordOf P id) = none ∨ ∃ r, Plain r.expectedVersion ∧ Named P w id r

lemma PlainlyNamed.recordsNamed {w : Tree × Log} (h : PlainlyNamed P w) : RecordsNamed P w :=
  fun id => (h id).imp (fun h => h) fun ⟨r, _, hr⟩ => ⟨r, hr⟩

lemma PlainlyNamed.step (hjson : ReadsRecords P.fromSlice) {c : Call} {w : Tree × Log}
    (h : PlainlyNamed P w) (hplain : Plain c.request.expectedVersion) :
    PlainlyNamed P ((logged P).next c w) ∧ SequencesGrow P c w ∧ SequenceRead P c w := by
  refine ⟨fun id => ?_, fun id s hs => ?_, fun destination rest hreply => ?_⟩
  · rcases record_cases c w (h id) with ⟨-, hkept⟩ | ⟨-, hnamed, -⟩
    · exact hkept
    · exact .inr ⟨c.request, hplain, hnamed⟩
  · rcases record_cases c w (h id) with ⟨hsame, -⟩ | ⟨hid, hnamed, hallowed⟩
    · exact ⟨s, (activeOf_congr hsame).trans hs, le_rfl⟩
    · obtain ⟨active, hactive, hforward⟩ := hallowed.forward
      have hpath : c.request.activePath P = recordOf P id := by
        rw [← hid]
        rfl
      rw [hpath, hs] at hactive
      obtain rfl := Except.ok.inj hactive
      exact ⟨_, activeOf_record hjson hplain hnamed.record, by simpa using hforward⟩
  · have hrun : Act.run (machine String UInt8) (installTapWith P c.request c.stageNumber) c.faults
        w.1 = (.done (.ok destination) rest, (installer P).next c w.1) := Prod.ext hreply rfl
    have hrecorded := Act.wp_run_ok (wp_installTapWith P c.request c.stageNumber w.1) hrun
    exact activeOf_record hjson hplain hrecorded.generated.record

/-- On a card without records, and in every run of installations of plain versions, whatever fails in
them: the sequences that are read do not decrease, the record names a generation with the verified
files of its package, and the sequence of a call that returns `Ok` is read afterwards. -/
theorem records_kept (P : Platform) (hjson : ReadsRecords P.fromSlice) (t : Tree)
    (hclear : ∀ id, t.node (recordOf P id) = none) (calls : List Call)
    (h : (logged P).Along (fun c _ => Plain c.request.expectedVersion) (t, []) calls) :
    (logged P).Along (fun c w => RecordsNamed P w ∧ SequencesGrow P c w ∧ SequenceRead P c w) (t, [])
        calls ∧
      RecordsNamed P ((logged P).run (t, []) calls) := by
  obtain ⟨halong, hlast⟩ := Component.along_of_preserved (C := logged P) (I := PlainlyNamed P)
    (fun c w hw hc => (hw.step hjson hc).1) (fun id => .inl (hclear id)) h
  exact ⟨halong.mono fun c w hw => ⟨hw.1.recordsNamed, (hw.1.step hjson hw.2).2⟩, hlast.recordsNamed⟩

/-! ### A sample -/

def strip (start s : List Char) : Option (List Char) :=
  if start.isPrefixOf s then some (s.drop start.length) else none

/-- What the text of a record is read as. -/
def readRecordText (s : List Char) : Option Value := do
  let s ← strip "\x7b\n  \"release_sequence\": ".toList s
  let sequence := Nat.ofDigitChars 10 (s.takeWhile Char.isDigit) 0
  let s ← strip ",\n  \"version\": \"".toList (s.dropWhile Char.isDigit)
  if s.dropWhile (· != '"') = "\"\n\x7d\n".toList then
    some (.object [("release_sequence", .number (some sequence)),
      ("version", .string (String.ofList (s.takeWhile (· != '"'))))])
  else none

def readRecord (text : List UInt8) : Option Value :=
  (String.fromUTF8? ⟨text.toArray⟩).bind fun s => readRecordText s.toList

lemma strip_append (start s : List Char) : strip start (start ++ s) = some s := by
  rw [strip, if_pos (List.isPrefixOf_iff_prefix.mpr (List.prefix_append start s)), List.drop_left]

lemma takeWhile_append {p : Char → Bool} {s rest : List Char} {c : Char} (hs : ∀ c ∈ s, p c = true)
    (hc : p c = false) : (s ++ c :: rest).takeWhile p = s := by
  rw [List.takeWhile_append_of_pos hs, List.takeWhile_cons_of_neg (by simp [hc]), List.append_nil]

lemma dropWhile_append {p : Char → Bool} {s rest : List Char} {c : Char} (hs : ∀ c ∈ s, p c = true)
    (hc : p c = false) : (s ++ c :: rest).dropWhile p = c :: rest := by
  rw [List.dropWhile_append_of_pos hs, List.dropWhile_cons_of_neg (by simp [hc])]

lemma readRecord_utf8 (s : String) : readRecord (utf8 s) = readRecordText s.toList := by
  rw [readRecord, fromUTF8?_utf8, Option.bind_some]

lemma readsRecords_readRecord : ReadsRecords readRecord := by
  intro r hplain
  have hdigits : ∀ c ∈ Nat.toDigits 10 r.expectedSequence.toNat, c.isDigit = true :=
    fun c hc => Nat.isDigit_of_mem_toDigits (by decide) (by decide) hc
  have hquote : ∀ c ∈ r.expectedVersion.toList, (c != '"') = true :=
    fun c hc => by simpa using (hplain c hc).1
  have hchars : (toString r.expectedSequence.toNat).toList = Nat.toDigits 10 r.expectedSequence.toNat := by
    rw [Nat.toString_eq_repr, Nat.toList_repr]
  have hcomma : ",\n  \"version\": \"".toList = ',' :: "\n  \"version\": \"".toList := rfl
  have hend : "\"\n\x7d\n".toList = '"' :: "\n\x7d\n".toList := rfl
  rw [TapRequest.recordText, readRecord_utf8]
  simp only [String.toList_append, List.append_assoc, hchars]
  rw [readRecordText, strip_append]
  simp only [Option.bind_eq_bind, Option.bind_some]
  rw [hcomma, List.cons_append, takeWhile_append hdigits (by decide),
    dropWhile_append hdigits (by decide), ← List.cons_append, ← hcomma, strip_append, Option.bind_some,
    hend, takeWhile_append hquote (by decide), dropWhile_append hquote (by decide), if_pos rfl,
    Nat.ofDigitChars_toDigits (by decide) (by decide), String.ofList_toList]

/-- A platform that reads records, and the archive whose version has some text in JSON. -/
def recordPlatform (version text : String) : Platform where
  fromSlice json := (readRecord json).or (sampleSlice version text json)
  sha256 := sampleDigest
  appsRoot := ["apps"]
  renameReplaces := true

lemma readsRecords_recordPlatform (version text : String) :
    ReadsRecords (recordPlatform version text).fromSlice := by
  intro r hplain
  have hread : (recordPlatform version text).fromSlice r.recordText =
    (readRecord r.recordText).or (sampleSlice version text r.recordText) := rfl
  rw [hread, readsRecords_readRecord r hplain, Option.some_or]

/-- A record has a line of its own for its first brace. -/
lemma readRecordText_eq_none {c : Char} {s : List Char} (h : c ≠ '\n') :
    readRecordText ('\x7b' :: c :: s) = none := by
  have hstart : "\x7b\n  \"release_sequence\": ".toList =
    '\x7b' :: '\n' :: "  \"release_sequence\": ".toList := rfl
  rw [readRecordText, strip, if_neg (by simp [hstart, h.symm])]
  rfl

/-- No record is the JSON of the archive, which can be looked up first. -/
lemma recordPlatform_eq {version text : String} (hpackage : readRecord (samplePackage text) = none)
    (hmetadata : readRecord (sampleMetadata text) = none) :
    recordPlatform version text = { recordPlatform version text with
      fromSlice := fun json => (sampleSlice version text json).or (readRecord json) } := by
  simp only [recordPlatform, Platform.mk.injEq, and_true]
  funext json
  by_cases hjson : json = samplePackage text
  · rw [hjson, hpackage, Option.none_or, sampleSlice, if_pos rfl, Option.some_or]
  · by_cases hjson' : json = sampleMetadata text
    · rw [hjson', hmetadata, Option.none_or, sampleSlice, if_neg (hjson' ▸ hjson), if_pos rfl,
        Option.some_or]
    · rw [sampleSlice, if_neg hjson, if_neg hjson', Option.or_none, Option.none_or]

lemma no_records (version text : String) (archive : List UInt8) (id : String) :
    (cardWith archive).node (recordOf (recordPlatform version text) id) = none :=
  cardWith_node (by simp [recordOf, appOf, recordPlatform]) (by simp [recordOf])

def sampleCall : Call := ⟨sampleRequest, 0, List.replicate 60 none⟩

/-- The record of an installed package is kept. -/
theorem records_kept_sample :
    let P := recordPlatform "1.0" "1.0"
    (logged P).Along (fun c w => RecordsNamed P w ∧ SequencesGrow P c w ∧ SequenceRead P c w)
        (sampleTree, []) [sampleCall] ∧
      RecordsNamed P ((logged P).run (sampleTree, []) [sampleCall]) := by
  refine records_kept (recordPlatform "1.0" "1.0") (readsRecords_recordPlatform _ _) sampleTree
    (no_records _ _ _) [sampleCall] ?_
  have hplain : Plain "1.0" := by
    intro c hc
    have hchars : c = '1' ∨ c = '.' ∨ c = '0' := by simpa using hc
    rcases hchars with rfl | rfl | rfl
    · decide
    · decide
    · decide
  exact Component.along_cons.mpr ⟨hplain, Component.along_nil⟩

/-- The version of a package may contain a quotation mark. -/
def quotedRequest : TapRequest := { sampleRequest with expectedVersion := "1\"" }

def quotedPlatform : Platform := recordPlatform "1\"" "1\\\""

def quotedArchive : List UInt8 := sampleArchive "1\\\""

lemma validArchive_quoted : ValidArchive quotedPlatform quotedRequest quotedArchive := by
  have hpackage : readRecord (samplePackage "1\\\"") = none := by
    simp only [samplePackage, readRecord_utf8, String.toList_append, List.append_assoc]
    exact readRecordText_eq_none (by decide)
  have hmetadata : readRecord (sampleMetadata "1\\\"") = none := by
    simp only [sampleMetadata, readRecord_utf8, String.toList_append, List.append_assoc]
    exact readRecordText_eq_none (by decide)
  rw [quotedPlatform, recordPlatform_eq hpackage hmetadata]
  refine validArchive_of_packFiles (sampleFiles "1\\\"") ?_ ?_ rfl rfl
  · decide +kernel
  · decide +kernel

/-- The record of such a package is not read. -/
lemma recordSequence_quoted :
    recordSequence quotedPlatform quotedRequest.recordText = .error .invalidManifest := by
  have hread : quotedPlatform.fromSlice quotedRequest.recordText = none := by
    decide +kernel
  rw [recordSequence, hread]

/-- A quotation mark in the version makes the record unreadable. -/
theorem records_not_kept :
    ¬ ∀ (P : Platform), ReadsRecords P.fromSlice → ∀ t : Tree,
      (∀ id, t.node (recordOf P id) = none) → ∀ calls : List Call,
      (logged P).Along (fun c w => RecordsNamed P w ∧ SequencesGrow P c w ∧ SequenceRead P c w) (t, [])
          calls ∧
        RecordsNamed P ((logged P).run (t, []) calls) := by
  intro hall
  have hprior : Prior quotedPlatform quotedRequest quotedArchive (cardWith quotedArchive) :=
    prior_cardWith _ rfl rfl
  have hready : Ready quotedPlatform quotedRequest 0 (cardWith quotedArchive) :=
    ⟨cardWith_node (by decide) (by decide), cardWith_node (by decide) (by decide), .inl rfl⟩
  obtain ⟨destination, t', hinstall⟩ := hready.installs validArchive_quoted hprior
  obtain ⟨n, hrun⟩ := Act.exists_run_of_perform hinstall
  have hcall := (hall quotedPlatform (readsRecords_recordPlatform _ _) (cardWith quotedArchive)
    (no_records _ _ _) [⟨quotedRequest, 0, List.replicate n none⟩]).1
  obtain ⟨⟨-, -, hread⟩, -⟩ := Component.along_cons.mp hcall
  have hrecorded := Act.wp_run_ok
    (wp_installTapWith quotedPlatform quotedRequest 0 (cardWith quotedArchive)) hrun
  have hactive := hread destination [] (congrArg Prod.fst hrun)
  have hnext : (installer quotedPlatform).next ⟨quotedRequest, 0, List.replicate n none⟩
      (cardWith quotedArchive) = t' := congrArg Prod.snd hrun
  have hrecord : t'.node (recordOf quotedPlatform quotedRequest.expectedId) =
      some (.file quotedRequest.recordText) := hrecorded.generated.record
  rw [hnext, activeOf, if_pos (by simp [exists?, hrecord]), readFile_of_file hrecord] at hactive
  simp only [recordSequence_quoted] at hactive
  cases hactive

end ThistleOS.TapInstaller
