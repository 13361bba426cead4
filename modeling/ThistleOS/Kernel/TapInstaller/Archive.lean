import ThistleOS.Kernel.TapInstaller.Stage
import Mathlib.Algebra.GroupWithZero.Nat
import Mathlib.Algebra.Order.BigOperators.Group.List
import Mathlib.Algebra.Order.Group.Nat

/-!
# The archives that are accepted

An archive is accepted by its central directory. What is accepted lists safe names in order within the
limits, and what is read of an entry stands behind a header of the entry.
-/

open Except (ok_bind bind_ok check_ok)

namespace ThistleOS.TapInstaller

variable {file : List UInt8} {e : ZipEntry} {es : List ZipEntry}

/-! ### Bytes of a file -/

lemma u16le_lt (bytes : List UInt8) (i : Nat) : u16le bytes i < 65536 := by
  have hlow := (bytes.getD i 0).toNat_lt
  have hhigh := (bytes.getD (i + 1) 0).toNat_lt
  rw [u16le]
  omega

lemma u32le_lt (bytes : List UInt8) (i : Nat) : u32le bytes i < 4294967296 := by
  have hlow := u16le_lt bytes i
  have hhigh := u16le_lt bytes (i + 2)
  rw [u32le]
  omega

lemma readExact_ok {d : List UInt8} {pos n : Nat} (h : readExact file pos n = .ok d) :
    d.length = n ∧ d <+: file.drop pos := by
  have hle := readExact_le h
  rw [readExact, if_pos hle] at h
  obtain rfl := Except.ok.inj h
  refine ⟨?_, List.take_prefix _ _⟩
  rw [List.length_take, List.length_drop]
  omega

lemma readExact_of_within {d : List UInt8} {pos : Nat} (hd : d <+: file.drop pos)
    (hpos : 0 < d.length ∨ pos ≤ file.length) : readExact file pos d.length = .ok d := by
  have hlength := hd.length_le
  rw [List.length_drop] at hlength
  rw [readExact, if_pos (by omega), ← List.prefix_iff_eq_take.mp hd]

/-- Bytes stand one after another. -/
lemma append_within_iff {d d' : List UInt8} {pos : Nat} :
    d ++ d' <+: file.drop pos ↔ d <+: file.drop pos ∧ d' <+: file.drop (pos + d.length) := by
  rw [← List.drop_drop]
  constructor
  · rintro ⟨rest, hrest⟩
    rw [← hrest, List.append_assoc, List.drop_left]
    exact ⟨List.prefix_append _ _, List.prefix_append _ _⟩
  · rintro ⟨⟨rest, hrest⟩, hd'⟩
    rw [← hrest, List.drop_left] at hd'
    rw [← hrest]
    exact (List.prefix_append_right_inj d).mpr hd'

/-! ### The central directory -/

/-- The fixed part of the record of an entry. -/
structure IsRecord (fixed : List UInt8) (e : ZipEntry) : Prop where
  length : fixed.length = 46
  signature : fixed.take 4 = [0x50, 0x4b, 0x01, 0x02]
  needed : u16le fixed 6 < 45
  plain : u16le fixed 8 &&& 0x0009 = 0
  stored : u16le fixed 10 = 0
  crc : u32le fixed 16 = e.crc32.toNat
  compressed : u32le fixed 20 = e.size
  size : u32le fixed 24 = e.size
  nameLen : u16le fixed 28 = (utf8 e.name).length
  extraLen : u16le fixed 30 = 0
  commentLen : u16le fixed 32 = 0
  localOffset : u32le fixed 42 = e.localOffset

/-- The records of entries, one after another. -/
inductive Directory : List ZipEntry → List UInt8 → Prop
  | nil : Directory [] []
  | cons {fixed e es bytes} (h : IsRecord fixed e) (hname : validPath e.name = true) (hes : Directory es bytes) :
    Directory (e :: es) (fixed ++ utf8 e.name ++ bytes)

lemma utf8_fromUTF8 {bytes : List UInt8} {name : String} (h : String.fromUTF8? ⟨bytes.toArray⟩ = some name) :
    utf8 name = bytes := by
  rw [String.fromUTF8?] at h
  split_ifs at h with hvalid
  obtain rfl := Option.some.inj h
  simp [utf8, String.fromUTF8]

lemma utf8_length_of_validPath {name : String} (h : validPath name = true) :
    0 < (utf8 name).length ∧ (utf8 name).length ≤ 160 := by
  simp only [validPath, Bool.and_eq_true, Bool.not_eq_true', List.isEmpty_eq_false_iff, decide_eq_true_eq] at h
  refine ⟨List.length_pos_of_ne_nil fun hnil => h.1.1.1.1.1 ?_, h.1.1.1.1.2⟩
  have hname : name = "" := utf8_injective (by rw [hnil]; rfl)
  rw [hname]
  rfl

/-- One more record. -/
lemma readCentral_succ_iff {count pos : Nat} :
    readCentral file (count + 1) pos = .ok es ↔
      ∃ fixed e es', es = e :: es' ∧ IsRecord fixed e ∧ validPath e.name = true ∧
        fixed ++ utf8 e.name <+: file.drop pos ∧
        readCentral file count (pos + 46 + (utf8 e.name).length) = .ok es' := by
  constructor
  · intro h
    rw [readCentral] at h
    obtain ⟨fixed, hfixed, h⟩ := bind_ok h
    obtain ⟨hsignature, h⟩ := check_ok h
    obtain ⟨hfields, h⟩ := check_ok h
    obtain ⟨nameBytes, hbytes, h⟩ := bind_ok h
    simp only [ne_eq, not_or, not_le, not_lt, not_not] at hsignature hfields
    obtain ⟨hneeded, hplain, hstored, hsize, hextra, hcomment, -⟩ := hfields
    obtain ⟨hlength, hfixed⟩ := readExact_ok hfixed
    obtain ⟨hnameLen, hbytes⟩ := readExact_ok hbytes
    cases hutf8 : String.fromUTF8? ⟨nameBytes.toArray⟩ with
    | none =>
      rw [hutf8] at h
      cases h
    | some name =>
      rw [hutf8] at h
      obtain ⟨hvalid, h⟩ := check_ok h
      obtain ⟨es', hrest, h⟩ := bind_ok h
      obtain rfl := Except.ok.inj h
      obtain rfl := utf8_fromUTF8 hutf8
      refine ⟨fixed, _, es', rfl, ?_, by simpa using hvalid, ?_, ?_⟩
      · exact {
          length := hlength
          signature := hsignature
          needed := hneeded
          plain := hplain
          stored := hstored
          crc := (UInt32.toNat_ofNat_of_lt' (u32le_lt _ _)).symm
          compressed := hsize
          size := rfl
          nameLen := hnameLen.symm
          extraLen := hextra
          commentLen := hcomment
          localOffset := rfl }
      · rw [← hlength] at hbytes
        exact append_within_iff.mpr ⟨hfixed, hbytes⟩
      · rw [← hnameLen] at hrest
        exact hrest
  · rintro ⟨fixed, e, es', rfl, hrecord, hname, hwithin, hrest⟩
    obtain ⟨hpos, hle⟩ := utf8_length_of_validPath hname
    obtain ⟨hfixed, hbytes⟩ := append_within_iff.mp hwithin
    have hfixed : readExact file pos 46 = .ok fixed :=
      hrecord.length ▸ readExact_of_within hfixed (.inl (by rw [hrecord.length]; decide))
    have hbytes : readExact file (pos + 46) (utf8 e.name).length = .ok (utf8 e.name) :=
      hrecord.length ▸ readExact_of_within hbytes (.inl hpos)
    have hfields : ¬ (45 ≤ u16le fixed 6 ∨ u16le fixed 8 &&& 0x0009 ≠ 0 ∨ u16le fixed 10 ≠ 0 ∨
        u32le fixed 20 ≠ u32le fixed 24 ∨ u16le fixed 30 ≠ 0 ∨ u16le fixed 32 ≠ 0 ∨ u16le fixed 28 = 0 ∨
        160 < u16le fixed 28) := by
      simp only [hrecord.plain, hrecord.stored, hrecord.compressed, hrecord.size, hrecord.nameLen,
        hrecord.extraLen, hrecord.commentLen]
      have hneeded := hrecord.needed
      omega
    have hentry : (⟨e.name, UInt32.ofNat (u32le fixed 16), u32le fixed 24, u32le fixed 42⟩ : ZipEntry) = e := by
      rw [hrecord.crc, hrecord.size, hrecord.localOffset, UInt32.ofNat_toNat]
    rw [readCentral, hfixed, ok_bind, if_neg (not_not.mpr hrecord.signature)]
    rw [if_neg hfields, hrecord.nameLen, hbytes, ok_bind, fromUTF8?_utf8]
    simp only [hname, hrest, ok_bind, hentry]
    rfl

/-- What is read are the records that stand from a place on. -/
lemma readCentral_iff {count pos : Nat} :
    readCentral file count pos = .ok es ↔
      es.length = count ∧ ∃ bytes, Directory es bytes ∧ bytes <+: file.drop pos := by
  induction count generalizing pos es with
  | zero =>
    rw [readCentral]
    constructor
    · intro h
      obtain rfl := Except.ok.inj h
      exact ⟨rfl, [], .nil, List.nil_prefix⟩
    · rintro ⟨hlength, -⟩
      rw [List.eq_nil_of_length_eq_zero hlength]
  | succ count ih =>
    rw [readCentral_succ_iff]
    constructor
    · rintro ⟨fixed, e, es', rfl, hrecord, hname, hwithin, hrest⟩
      obtain ⟨hlength, bytes, hes, hbytes⟩ := ih.mp hrest
      rw [Nat.add_assoc, ← hrecord.length, ← List.length_append] at hbytes
      exact ⟨congrArg (· + 1) hlength, _, .cons hrecord hname hes, append_within_iff.mpr ⟨hwithin, hbytes⟩⟩
    · rintro ⟨hlength, bytes, hes, hwithin⟩
      cases hes with
      | nil => cases hlength
      | cons hrecord hname hes =>
        rename_i fixed e es' bytes
        obtain ⟨hwithin, hbytes⟩ := append_within_iff.mp hwithin
        rw [List.length_append, hrecord.length, ← Nat.add_assoc] at hbytes
        exact ⟨fixed, e, es', rfl, hrecord, hname, hwithin, ih.mpr ⟨Nat.succ.inj hlength, bytes, hes, hbytes⟩⟩

/-! ### The entry lists -/

/-- The entries of an archive within the limits. -/
structure Packable (es : List ZipEntry) : Prop where
  nonempty : es ≠ []
  length_le : es.length ≤ maxEntries
  names : ∀ e ∈ es, validPath e.name = true
  sorted : es.Pairwise fun e e' => e.name < e'.name
  total : (es.map ZipEntry.size).sum ≤ maxExtractedSize
  localOffset : ∀ e ∈ es, e.localOffset < 2 ^ 32

lemma Directory.entries {bytes : List UInt8} (h : Directory es bytes) :
    ∀ e ∈ es, validPath e.name = true ∧ e.localOffset < 2 ^ 32 := by
  induction h with
  | nil => exact fun e he => absurd he List.not_mem_nil
  | cons hrecord hname hes ih =>
    intro e he
    rcases List.mem_cons.mp he with rfl | he
    · exact ⟨hname, hrecord.localOffset ▸ u32le_lt _ _⟩
    · exact ih e he

/-- Names are in order if neighbours are. -/
lemma sorted_iff : ((es.zip es.tail).all fun pair => decide (pair.1.name < pair.2.name)) = true ↔
    es.Pairwise fun e e' => e.name < e'.name := by
  induction es with
  | nil => simp
  | cons e es ih =>
    cases es with
    | nil => simp
    | cons e' es =>
      rw [List.pairwise_cons, ← ih]
      simp only [List.tail_cons, List.zip_cons_cons, List.all_cons, Bool.and_eq_true, decide_eq_true_eq]
      constructor
      · rintro ⟨hlt, hrest⟩
        refine ⟨fun e'' he'' => ?_, hrest⟩
        rcases List.mem_cons.mp he'' with rfl | he''
        · exact hlt
        · exact String.lt_trans hlt (List.rel_of_pairwise_cons (ih.mp hrest) he'')
      · rintro ⟨hall, hrest⟩
        exact ⟨hall e' List.mem_cons_self, hrest⟩

lemma foldl_add (ns : List Nat) (n : Nat) : ns.foldl (· + ·) n = n + ns.sum := by
  induction ns generalizing n with
  | nil => rfl
  | cons k ns ih => rw [List.foldl_cons, ih, List.sum_cons, Nat.add_assoc]

/-! ### What is accepted -/

/-- The data of an entry stands in some bytes behind a header of the entry. -/
def StoredAt (file : List UInt8) (e : ZipEntry) (data : List UInt8) : Prop :=
  ∃ before fixed after, file = before ++ (fixed ++ utf8 e.name ++ data ++ after) ∧ before.length = e.localOffset ∧
    fixed.length = 30 ∧ data.length = e.size ∧ crc32 data = e.crc32

/-- What is known of an archive that is accepted. -/
structure Accepted (file : List UInt8) (es : List ZipEntry) : Prop where
  packable : Packable es
  /-- Every part of a path is a name below its directory. -/
  parts : ∀ e ∈ es, '\\' ∉ e.name.toList ∧ ∀ part ∈ names e.name, part ∉ ["", ".", ".."]
  directory : ∃ before records after, file = before ++ (records ++ after) ∧ Directory es records
  reads : ∀ e ∈ es, ∀ max data, readEntry file e max = .ok data → StoredAt file e data

lemma parts_of_validPath {name : String} (h : validPath name = true) :
    '\\' ∉ name.toList ∧ ∀ part ∈ names name, part ∉ ["", ".", ".."] := by
  simp only [validPath, Bool.and_eq_true, Bool.not_eq_true', List.contains_eq_mem, decide_eq_false_iff_not,
    List.all_eq_true, bne_iff_ne] at h
  refine ⟨h.1.2, fun part hpart hmem => ?_⟩
  obtain ⟨⟨hempty, hdot⟩, hdots⟩ := h.2 part hpart
  simp only [List.mem_cons, List.not_mem_nil, or_false] at hmem
  rcases hmem with rfl | rfl | rfl
  · exact hempty rfl
  · exact hdot rfl
  · exact hdots rfl

/-- What is read of an entry stands behind its header. -/
lemma readEntry_storedAt {max : Nat} {data : List UInt8} (h : readEntry file e max = .ok data) :
    StoredAt file e data := by
  rw [readEntry] at h
  obtain ⟨-, h⟩ := check_ok h
  obtain ⟨offset, hoffset, h⟩ := bind_ok h
  obtain ⟨d, hdata, h⟩ := bind_ok h
  obtain ⟨hcrc, h⟩ := check_ok h
  obtain rfl := Except.ok.inj h
  rw [entryDataOffset] at hoffset
  obtain ⟨fixed, hfixed, hoffset⟩ := bind_ok hoffset
  obtain ⟨-, hoffset⟩ := check_ok hoffset
  obtain ⟨name, hname, hoffset⟩ := bind_ok hoffset
  obtain ⟨hfields, hoffset⟩ := check_ok hoffset
  obtain rfl := Except.ok.inj hoffset
  simp only [ne_eq, not_or, not_not] at hcrc hfields
  obtain ⟨rfl, -⟩ := hfields
  have hstart := readExact_le hfixed
  obtain ⟨hlength, hfixed⟩ := readExact_ok hfixed
  obtain ⟨hnameLen, hname⟩ := readExact_ok hname
  obtain ⟨hsize, hdata⟩ := readExact_ok hdata
  rw [← hnameLen] at hdata
  rw [← hlength] at hname hdata
  rw [Nat.add_assoc, ← List.length_append] at hdata
  obtain ⟨after, hafter⟩ := append_within_iff.mpr ⟨append_within_iff.mpr ⟨hfixed, hname⟩, hdata⟩
  refine ⟨file.take e.localOffset, fixed, after, ?_, ?_, hlength, hsize, hcrc⟩
  · rw [hafter, List.take_append_drop]
  · rw [List.length_take]
    omega

lemma accepted_of_readEntries (h : readEntries file = .ok es) : Accepted file es := by
  rw [readEntries] at h
  split_ifs at h with hlength
  simp only at h
  cases heocd : findEocd (file.drop (file.length - min file.length 65557))
      ((file.drop (file.length - min file.length 65557)).length - 22) with
  | none =>
    rw [heocd] at h
    cases h
  | some eocd =>
    rw [heocd] at h
    obtain ⟨-, h⟩ := check_ok h
    obtain ⟨hcount, h⟩ := check_ok h
    obtain ⟨entries, hentries, h⟩ := bind_ok h
    obtain ⟨htotal, h⟩ := check_ok h
    obtain ⟨hsorted, h⟩ := check_ok h
    obtain rfl := Except.ok.inj h
    obtain ⟨hlength, records, hrecords, after, hafter⟩ := readCentral_iff.mp hentries
    have hvalid := hrecords.entries
    simp only [not_or, not_lt, foldl_add, Nat.zero_add] at hcount htotal
    have hpackable : Packable entries := {
      nonempty := fun hnil => hcount.1 (by rw [← hlength, hnil]; rfl)
      length_le := hlength ▸ hcount.2.1
      names := fun e he => (hvalid e he).1
      sorted := sorted_iff.mp (by simpa using hsorted)
      total := htotal
      localOffset := fun e he => (hvalid e he).2 }
    refine ⟨hpackable, fun e he => parts_of_validPath (hvalid e he).1, ?_, fun e _ max data h => readEntry_storedAt h⟩
    exact ⟨_, records, after, by rw [hafter, List.take_append_drop], hrecords⟩

end ThistleOS.TapInstaller
