import ThistleOS.Recovery.BundleTransaction.Basic

/-!
# The journal of a bundle transaction

A journal is read back as it was written, so that recovery finds every entry that `install` meant.
-/

open PowerLoss FileTree

namespace ThistleOS.BundleTransaction

/-! ### Valid paths -/

lemma validateRelativePath_ok {path : String} (h : validateRelativePath path = .ok ()) :
    path.toList ≠ [] ∧ isAbsolute path = false ∧ (∀ c ∈ components path, c.isNormal = true) ∧
      ∀ c ∈ path.toList, c ≠ '\t' ∧ c ≠ '\n' ∧ c ≠ '\r' := by
  unfold validateRelativePath at h
  split_ifs at h with hrel hcomp hctrl
  simp only [Bool.or_eq_true, not_or, List.isEmpty_iff] at hrel
  refine ⟨hrel.1, by simpa using hrel.2, ?_, ?_⟩
  · simpa using hcomp
  · simpa [and_assoc] using hctrl

lemma components_eq_map_names {path : String} (h : validateRelativePath path = .ok ()) :
    components path = (names path).map .normal := by
  obtain ⟨-, -, hnormal, -⟩ := validateRelativePath_ok h
  unfold names
  generalize components path = l at hnormal ⊢
  induction l with
  | nil => rfl
  | cons c l ih =>
    have hc := hnormal c (by simp)
    have hl := ih fun c hc => hnormal c (by simp [hc])
    cases c with
    | normal name => exact congrArg (Component.normal name :: ·) hl
    | rootDir => simp [Component.isNormal] at hc
    | curDir => simp [Component.isNormal] at hc
    | parentDir => simp [Component.isNormal] at hc

/-- Valid paths have the same components when they lead to the same place. -/
lemma components_eq_iff {p q : String} (hp : validateRelativePath p = .ok ())
    (hq : validateRelativePath q = .ok ()) : components p = components q ↔ names p = names q := by
  rw [components_eq_map_names hp, components_eq_map_names hq]
  refine (List.map_injective_iff.mpr ?_).eq_iff
  intro a b hab
  exact Component.normal.inj hab

lemma piece_eq_nil {l : List Char} (h : piece l = []) : l = [] ∨ l = ['.'] := by
  unfold piece at h
  split at h <;> simp_all

lemma components_ne_nil {path : String} (hne : path.toList ≠ []) (habs : isAbsolute path = false) :
    components path ≠ [] := by
  unfold isAbsolute at habs
  unfold components
  obtain ⟨c, cs, hl⟩ := List.exists_cons_of_ne_nil hne
  rw [hl] at habs ⊢
  have hc : (c == '/') = false := by simpa using habs
  obtain ⟨first, rest, hrest⟩ := List.exists_cons_of_ne_nil (List.splitOn_ne_nil '/' cs)
  have hsplit : (c :: cs).splitOn '/' = (c :: first) :: rest := by
    simp [List.splitOn_cons_eq_if_modifyHead, hc, hrest]
  rw [hsplit]
  split
  · simp_all
  · simp_all
  · simp_all
  · simp
  · rename_i hdot heq
    obtain ⟨rfl, rfl⟩ := List.cons.inj heq
    intro hnil
    rcases piece_eq_nil (List.append_eq_nil_iff.mp hnil).1 with h | h
    · cases h
    · exact hdot h

lemma names_ne_nil {path : String} (h : validateRelativePath path = .ok ()) : names path ≠ [] := by
  obtain ⟨hne, habs, -, -⟩ := validateRelativePath_ok h
  intro hnil
  have hcomp := components_eq_map_names h
  rw [hnil] at hcomp
  exact components_ne_nil hne habs hcomp

/-! ### Text -/

/-- The lines that a writer has put one after the other. -/
def linesText (lines : List String) : String := lines.foldr (fun line text => line ++ "\n" ++ text) ""

lemma utf8_linesText (lines : List String) :
    utf8 (linesText lines) = lines.flatMap fun line => utf8 (line ++ "\n") := by
  induction lines with
  | nil => rfl
  | cons line lines ih =>
    rw [List.flatMap_cons, ← ih, ← utf8_append]
    rfl

/-- A line that a reader gives back: it holds no line feed and does not end in a carriage return. -/
def Unbroken (line : List Char) : Prop := '\n' ∉ line ∧ line.getLast? ≠ some '\r'

lemma textLines_append {line rest : List Char} (acc : List Char) (hn : '\n' ∉ line)
    (hr : (acc.reverse ++ line).getLast? ≠ some '\r') :
    textLines acc (line ++ '\n' :: rest) = (acc.reverse ++ line) :: textLines [] rest := by
  induction line generalizing acc with
  | nil =>
    rw [List.append_nil, List.getLast?_reverse] at hr
    simp [textLines, hr]
  | cons c line ih =>
    have hc : c ≠ '\n' := fun h => hn (h ▸ List.mem_cons_self)
    have hstep := ih (c :: acc) (fun h => hn (List.mem_cons_of_mem c h)) (by simpa using hr)
    rw [List.cons_append, textLines]
    · simpa using hstep
    · exact hc

/-- Lines are read back as they were written. -/
lemma textLines_linesText {lines : List String} (h : ∀ line ∈ lines, Unbroken line.toList) :
    textLines [] (linesText lines).toList = lines.map String.toList := by
  induction lines with
  | nil => rfl
  | cons line lines ih =>
    have hline := h line List.mem_cons_self
    have hcons : (linesText (line :: lines)).toList =
        line.toList ++ '\n' :: (linesText lines).toList := by
      simp [linesText]
    rw [hcons, textLines_append [] hline.1 (by simpa using hline.2),
      ih fun l hl => h l (List.mem_cons_of_mem line hl)]
    rfl

lemma splitOnce_append {c : Char} {a : List Char} (b : List Char) (h : c ∉ a) :
    splitOnce c (a ++ c :: b) = some (a, b) := by
  induction a with
  | nil => simp [splitOnce]
  | cons x a ih =>
    have hx : x ≠ c := fun hx => h (hx ▸ List.mem_cons_self)
    have ha := ih fun ha => h (List.mem_cons_of_mem x ha)
    simp [splitOnce, hx, ha]

/-! ### Round trip -/

/-- The entries that `write_journal` may be asked to write and `read_journal` accepts. -/
structure ValidEntries (entries : List JournalEntry) : Prop where
  ne_nil : entries ≠ []
  valid : ∀ e ∈ entries, validateRelativePath e.relativePath = .ok ()
  nodup : (entries.map fun e => components e.relativePath).Nodup

def journalLines (entries : List JournalEntry) : List String :=
  journalVersion :: ("phase=" ++ Phase.prepared.asStr) :: entries.map formatEntry

/-- The contents of the journal file. -/
def journalBytes (entries : List JournalEntry) : List UInt8 := utf8 (linesText (journalLines entries))

lemma journalBytes_concat (entries : List JournalEntry) (e : JournalEntry) :
    journalBytes (entries ++ [e]) = journalBytes entries ++ utf8 (formatEntry e ++ "\n") := by
  simp only [journalBytes, journalLines, utf8_linesText, List.flatMap_cons, List.map_append,
    List.flatMap_append, List.map_cons, List.map_nil, List.flatMap_nil, List.append_nil,
    List.append_assoc]

lemma formatEntry_toList (e : JournalEntry) : (formatEntry e).toList =
    [if e.hadOriginal then '1' else '0'] ++ '\t' :: e.relativePath.toList := by
  unfold formatEntry
  cases e.hadOriginal <;> simp

lemma unbroken_formatEntry {e : JournalEntry} (h : validateRelativePath e.relativePath = .ok ()) :
    Unbroken (formatEntry e).toList := by
  obtain ⟨hne, -, -, hctrl⟩ := validateRelativePath_ok h
  rw [formatEntry_toList]
  constructor
  · have hn : '\n' ∉ e.relativePath.toList := fun hn => (hctrl _ hn).2.1 rfl
    cases e.hadOriginal <;> simp [hn]
  · rw [List.getLast?_append_of_ne_nil _ (by simp), List.getLast?_cons_of_ne_nil hne]
    exact fun hr => (hctrl _ (List.mem_of_getLast? hr)).2.2 rfl

lemma unbroken_journalLines {entries : List JournalEntry} (h : ValidEntries entries) :
    ∀ line ∈ journalLines entries, Unbroken line.toList := by
  intro line hline
  simp only [journalLines, List.mem_cons, List.mem_map] at hline
  rcases hline with rfl | rfl | ⟨e, he, rfl⟩
  · exact ⟨by decide, by decide⟩
  · exact ⟨by decide, by decide⟩
  · exact unbroken_formatEntry (h.valid e he)

lemma parseMarker_format (b : Bool) : parseMarker [if b then '1' else '0'] = .ok b := by
  cases b <;> rfl

lemma parseEntries_format {entries : List JournalEntry} (seen : List (List Component))
    (hv : ∀ e ∈ entries, validateRelativePath e.relativePath = .ok ())
    (hn : (entries.map fun e => components e.relativePath).Nodup)
    (hs : ∀ e ∈ entries, components e.relativePath ∉ seen) :
    parseEntries seen (entries.map fun e => (formatEntry e).toList) = .ok entries := by
  induction entries generalizing seen with
  | nil => rfl
  | cons e entries ih =>
    rw [List.map_cons, List.nodup_cons] at hn
    have hrest := ih (components e.relativePath :: seen)
      (fun e' he' => hv e' (List.mem_cons_of_mem e he')) hn.2 ?_
    · have hsplit := splitOnce_append (c := '\t') (a := [if e.hadOriginal then '1' else '0'])
        e.relativePath.toList (by cases e.hadOriginal <;> decide)
      rw [List.map_cons, parseEntries, formatEntry_toList, hsplit]
      simp only [String.ofList_toList, hv e List.mem_cons_self, hs e List.mem_cons_self,
        parseMarker_format, hrest]
      rfl
    · intro e' he' hmem
      rcases List.mem_cons.mp hmem with heq | hmem
      · exact hn.1 (List.mem_map.mpr ⟨e', he', heq⟩)
      · exact hs e' (List.mem_cons_of_mem e he') hmem

lemma parseHeader_journalLines (entries : List JournalEntry) :
    parseHeader ((journalLines entries).map String.toList) =
      .ok (entries.map fun e => (formatEntry e).toList) := by
  have hstrip : stripStart "phase=".toList ("phase=" ++ Phase.prepared.asStr).toList =
      some Phase.prepared.asStr.toList := by decide
  have hphase : Phase.parse Phase.prepared.asStr.toList = .ok .prepared := by decide
  simp only [journalLines, List.map_cons, List.map_map, parseHeader, hstrip, hphase]
  rfl

/-! ### Reading and writing the journal -/

/-- The phase that the markers of a tree tell. -/
def markedPhase (t : Tree) : Phase :=
  if t.exists? firmwareWrittenMarker then .firmwareWritten
  else if t.exists? filesActiveMarker then .filesActive
  else .prepared

section Rules

variable {κ : Type} {K : Machine callbackSig κ}
  {err : IoError → (Tree × κ) × Bool → Prop} {cut : (Tree × κ) × Bool → Prop}
  {t : Tree} {x : κ} {b : Bool} {entries : List JournalEntry}

lemma wp_readJournal {ok : Journal → (Tree × κ) × Bool → Prop}
    (hj : t.node journalPath = some (.file (journalBytes entries))) (hv : ValidEntries entries)
    (hcut : cut ((t, x), b)) (hok : ok ⟨markedPhase t, entries⟩ ((t, x), b))
    (hfault : b = true → ∀ e, err e ((t, x), false)) :
    Act.wp (world String UInt8 K callbackFailed) readJournal ok err cut ((t, x), b) := by
  have hread : t.readFile journalPath = .ok (journalBytes entries) := by
    simp only [readFile, hj]
  unfold readJournal readToString
  rw [Act.wp_bind, Act.wp_bind]
  refine wp_read hcut ?_ ?_ (fun hb => hfault hb _)
  · intro d hd
    obtain rfl : journalBytes entries = d := Except.ok.inj (hread.symm.trans hd)
    have hlines := textLines_linesText (unbroken_journalLines hv)
    have hparse := parseEntries_format [] hv.valid hv.nodup (by simp)
    have hempty : entries.isEmpty = false := by simpa using hv.ne_nil
    rw [journalBytes, fromUTF8?_utf8, Act.wp_pure, hlines, parseHeader_journalLines, Act.wp_bind,
      Act.wp_lift_ok, hparse, Act.wp_bind]
    refine wp_fileExists hcut ?_
    unfold markedPhase at hok
    cases hfw : t.exists? firmwareWrittenMarker with
    | true =>
      simp only [Act.wp_bind, Act.wp_pure, Act.wp_lift_ok, hempty, if_true, if_false,
        Bool.false_eq_true]
      rwa [hfw] at hok
    | false =>
      simp only [Act.wp_bind, Bool.false_eq_true, if_false]
      refine wp_fileExists hcut ?_
      cases hfa : t.exists? filesActiveMarker with
      | true =>
        simp only [Act.wp_bind, Act.wp_pure, Act.wp_lift_ok, hempty, if_true, if_false,
          Bool.false_eq_true]
        rwa [hfw, hfa] at hok
      | false =>
        simp only [Act.wp_bind, Act.wp_pure, Act.wp_lift_ok, hempty, if_false, Bool.false_eq_true]
        rwa [hfw, hfa] at hok
  · intro kind hk
    rw [hread] at hk
    cases hk

lemma wp_writeln {ok : Unit → (Tree × κ) × Bool → Prop} {t₀ : Tree} {line : String} {p : Path}
    {d : List UInt8} (ht : ChangesBelow {p} t₀ t) (hd : t.node p = some (.file d))
    (hcut : ∀ t', ChangesBelow {p} t₀ t' → cut ((t', x), b))
    (herr : ∀ e t', ChangesBelow {p} t₀ t' → err e ((t', x), false))
    (hok : ∀ t', ChangesBelow {p} t₀ t' → t'.node p = some (.file (d ++ utf8 (line ++ "\n"))) →
      ok () ((t', x), b)) :
    Act.wp (world String UInt8 K callbackFailed) (writeln p line) ok err cut ((t, x), b) := by
  refine wp_update_within ht ⟨p, rfl, List.prefix_rfl⟩ hcut herr ?_
  intro t' heff hbelow
  obtain ⟨old, hold, hnode⟩ := append_ok heff
  obtain rfl : d = old := by simpa [hd] using hold
  exact hok t' hbelow (by simpa using hnode p)

/-- Writing the journal makes nothing but a temporary file until the journal is complete. -/
lemma wp_writeJournal {ok : Unit → (Tree × κ) × Bool → Prop}
    (hno : t.node journalPath = none)
    (hcut : ∀ t', ChangesBelow {journalTmp} t t' → cut ((t', x), b))
    (herr : ∀ e t', ChangesBelow {journalTmp} t t' → err e ((t', x), false))
    (hok : ∀ t', ChangesBelow {journalTmp, journalPath} t t' →
      t'.node journalPath = some (.file (journalBytes entries)) → ok () ((t', x), b)) :
    Act.wp (world String UInt8 K callbackFailed) (writeJournal ⟨.prepared, entries⟩) ok err cut
      ((t, x), b) := by
  unfold writeJournal
  have hexists : t.exists? journalPath = false := by simp [FileTree.exists?, hno]
  simp only [ne_eq, not_true_eq_false, if_false]
  rw [Act.wp_bind]
  refine wp_fileExists (hcut t (.refl _ _)) ?_
  simp only [hexists, Bool.false_eq_true, if_false]
  rw [Act.wp_bind]
  refine wp_update_within (.refl {journalTmp} t) ⟨journalTmp, rfl, .inl (by decide)⟩ hcut herr ?_
  intro t₁ _ h₁
  rw [Act.wp_bind]
  refine wp_update_within h₁ ⟨journalTmp, rfl, List.prefix_rfl⟩ hcut herr ?_
  intro t₂ (hcreate : t₁.create journalTmp none = .ok t₂) h₂
  have hd₂ : t₂.node journalTmp = some (.file []) := by simpa using (create_ok hcreate).2.2 journalTmp
  rw [Act.wp_bind]
  refine wp_writeln h₂ hd₂ hcut herr fun t₃ h₃ hd₃ => ?_
  rw [Act.wp_bind]
  refine wp_writeln h₃ hd₃ hcut herr fun t₄ h₄ hd₄ => ?_
  -- the loop: the temporary file holds the lines of the entries that are done
  rw [Act.wp_bind]
  refine Act.wp_mono ?_ (fun _ _ h => h) (fun _ h => h)
    (Act.wp_forM (I := fun done s => ∃ t', s = ((t', x), b) ∧ ChangesBelow {journalTmp} t t' ∧
      t'.node journalTmp = some (.file (journalBytes done))) entries ?_ ?_)
  · rintro ⟨⟩ s ⟨t₅, rfl, h₅, hd₅⟩
    rw [Act.wp_bind]
    refine wp_update_within h₅ trivial hcut herr ?_
    rintro t₆ hsync h₆
    obtain rfl : t₅ = t₆ := Except.ok.inj hsync
    refine wp_update ?_ ?_ ?_ ?_
    · intro t' hl
      exact hl.eq_of_rename ▸ hcut t₅ h₆
    · intro t' hren
      obtain ⟨-, -, -, hnode⟩ := rename_ok hren
      refine hok t' ?_ ?_
      · refine (h₆.subset (Set.singleton_subset_iff.mpr (.inl rfl))).trans (effect_changesBelow hren ?_)
        exact ⟨⟨_, .inl rfl, List.prefix_rfl⟩, ⟨_, .inr rfl, List.prefix_rfl⟩⟩
      · rw [hnode, if_pos List.prefix_rfl, List.drop_length, List.append_nil, hd₅]
    · exact fun kind _ => herr _ t₅ h₆
    · exact fun _ t' hl => hl.eq_of_rename ▸ herr _ t₅ h₆
  · rintro pre e post - s ⟨t₅, rfl, h₅, hd₅⟩
    refine wp_writeln h₅ hd₅ hcut herr fun t₆ h₆ hd₆ => ⟨t₆, rfl, h₆, ?_⟩
    rw [hd₆, journalBytes_concat]
  · exact ⟨t₄, rfl, h₄, hd₄⟩

end Rules

end ThistleOS.BundleTransaction
