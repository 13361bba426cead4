import ThistleOS.Kernel.TapInstaller.Archive
import ThistleOS.Tools.TapPackage

/-!
# The archives of the packaging tool

Every archive that the tool makes within the limits is accepted and read as it was written. The list of
entries is all that is accepted: other bytes may stand before the directory.
-/

open LittleEndian ThistleOS.TapPackage
open Except (ok_bind bind_ok check_ok)

namespace ThistleOS.TapInstaller

variable {info : String → ZipInfo} {file before : List UInt8} {e : ZipEntry} {es : List ZipEntry} {c : Content}
  {contents : List Content}

/-! ### Fields of records -/

lemma getD_drop (bytes : List UInt8) (i j : Nat) : bytes.getD (i + j) 0 = (bytes.drop i).getD j 0 := by
  rw [List.getD_eq_getElem?_getD, List.getD_eq_getElem?_getD, List.getElem?_drop]

lemma u16le_of_drop {bytes rest : List UInt8} {i x : Nat} (h : bytes.drop i = encode 2 x ++ rest) :
    u16le bytes i = x % 65536 := by
  have h0 := getD_drop bytes i 0
  have h1 := getD_drop bytes i 1
  rw [h] at h0 h1
  rw [u16le, ← Nat.add_zero i, h0, Nat.add_zero, h1]
  show (UInt8.ofNat x).toNat + (UInt8.ofNat (x / 256)).toNat * 256 = x % 65536
  rw [UInt8.toNat_ofNat', UInt8.toNat_ofNat']
  omega

lemma u32le_of_drop {bytes rest : List UInt8} {i x : Nat} (h : bytes.drop i = encode 4 x ++ rest) :
    u32le bytes i = x % 4294967296 := by
  have hlow : bytes.drop i = encode 2 x ++ (encode 2 (x / 256 ^ 2) ++ rest) := by
    rw [h, ← List.append_assoc, ← encode_add]
  have hhigh : bytes.drop (i + 2) = encode 2 (x / 256 ^ 2) ++ rest := by
    rw [← List.drop_drop, hlow]
    rfl
  rw [u32le, u16le_of_drop hlow, u16le_of_drop hhigh]
  omega

lemma u16le_pack_mod {fields : List (Nat × Nat)} {k i x : Nat} (h : fields[k]? = some (2, x))
    (hi : width (fields.take k) = i) : u16le (pack fields) i = x % 65536 := by
  rw [← hi, u16le_of_drop (drop_pack h)]

lemma u16le_pack {fields : List (Nat × Nat)} {k i x : Nat} (h : fields[k]? = some (2, x))
    (hi : width (fields.take k) = i) (hx : x < 65536) : u16le (pack fields) i = x := by
  rw [u16le_pack_mod h hi, Nat.mod_eq_of_lt hx]

lemma u32le_pack {fields : List (Nat × Nat)} {k i x : Nat} (h : fields[k]? = some (4, x))
    (hi : width (fields.take k) = i) (hx : x < 4294967296) : u32le (pack fields) i = x := by
  rw [← hi, u32le_of_drop (drop_pack h), Nat.mod_eq_of_lt hx]

/-! ### What the writer makes is accepted -/

lemma signature_pack {fields : List (Nat × Nat)} {x : Nat} (h : fields[0]? = some (4, x)) :
    (pack fields).take 4 = encode 4 x := by
  have hdrop := drop_pack h
  rw [List.take_zero, show width [] = 0 from rfl, List.drop_zero] at hdrop
  rw [hdrop, List.take_left' (length_encode 4 x)]

lemma width_centralFields {info : ZipInfo} (k : Nat) : width ((centralFields info e).take k) =
    ([4, 2, 2, 2, 2, 2, 2, 4, 4, 4, 2, 2, 2, 2, 2, 4, 4].take k).sum := by
  rw [width, List.map_take]
  rfl

lemma length_centralFields {info : ZipInfo} : (pack (centralFields info e)).length = 46 := by
  rw [length_pack]
  exact width_centralFields 17

lemma isRecord_centralFields {info : ZipInfo} (hname : validPath e.name = true) (hsize : e.size < 4294967296)
    (hoffset : e.localOffset < 4294967296) : IsRecord (pack (centralFields info e)) e where
  length := length_centralFields
  signature := (signature_pack rfl).trans (by decide)
  needed := by
    rw [@u16le_pack _ 2 6 20 rfl (width_centralFields 2) (by decide)]
    decide
  plain := by
    rw [@u16le_pack_mod _ 3 8 info.flagBits rfl (width_centralFields 3)]
    exact info.plain
  stored := @u16le_pack _ 4 10 0 rfl (width_centralFields 4) (by decide)
  crc := @u32le_pack _ 7 16 _ rfl (width_centralFields 7) e.crc32.toNat_lt
  compressed := @u32le_pack _ 8 20 _ rfl (width_centralFields 8) hsize
  size := @u32le_pack _ 9 24 _ rfl (width_centralFields 9) hsize
  nameLen := by
    have hle := (utf8_length_of_validPath hname).2
    exact @u16le_pack _ 10 28 _ rfl (width_centralFields 10) (by omega)
  extraLen := @u16le_pack _ 11 30 0 rfl (width_centralFields 11) (by decide)
  commentLen := @u16le_pack _ 12 32 0 rfl (width_centralFields 12) (by decide)
  localOffset := @u32le_pack _ 16 42 _ rfl (width_centralFields 16) hoffset

lemma Packable.size_le (h : Packable es) (he : e ∈ es) : e.size ≤ maxExtractedSize :=
  (List.le_sum_of_mem (List.mem_map_of_mem he)).trans h.total

lemma Packable.record (h : Packable es) (info : ZipInfo) (he : e ∈ es) : IsRecord (pack (centralFields info e)) e := by
  have hsize := h.size_le he
  refine isRecord_centralFields (h.names e he) ?_ (h.localOffset e he)
  rw [maxExtractedSize] at hsize
  omega

lemma directory_of_records (h : ∀ e ∈ es, IsRecord (pack (centralFields (info e.name) e)) e)
    (hnames : ∀ e ∈ es, validPath e.name = true) : Directory es (centralDirectory info es) := by
  induction es with
  | nil => exact .nil
  | cons e es ih =>
    rw [centralDirectory, List.flatMap_cons]
    exact .cons (h e List.mem_cons_self) (hnames e List.mem_cons_self)
      (ih (fun e he => h e (List.mem_cons_of_mem _ he)) fun e he => hnames e (List.mem_cons_of_mem _ he))

lemma findEocd_of_take {tail : List UInt8} {i : Nat} (h : (tail.drop i).take 4 = [0x50, 0x4b, 0x05, 0x06]) :
    findEocd tail i = some i := by
  cases i with
  | zero => rw [findEocd, ← List.drop_zero (l := tail), if_pos h]
  | succ i => rw [findEocd, if_pos h]

/-- The end record is found where nothing comes after it. -/
lemma findEocd_last {head last : List UInt8} (hlength : last.length = 22)
    (h : last.take 4 = [0x50, 0x4b, 0x05, 0x06]) {n : Nat} (hn : n ≤ head.length) :
    let tail := (head ++ last).drop n
    findEocd tail (tail.length - 22) = some (tail.length - 22) ∧ tail.drop (tail.length - 22) = last := by
  intro tail
  have htail : tail = head.drop n ++ last := List.drop_append_of_le_length hn
  have hdrop : tail.drop (tail.length - 22) = last := by
    rw [htail, List.length_append, hlength, Nat.add_sub_cancel, List.drop_left]
  exact ⟨findEocd_of_take (by rw [hdrop, h]), hdrop⟩

lemma width_endFields {count size offset : Nat} (k : Nat) : width ((endFields count size offset).take k) =
    ([4, 2, 2, 2, 2, 4, 4, 2].take k).sum := by
  rw [width, List.map_take]
  rfl

lemma length_endFields {count size offset : Nat} : (pack (endFields count size offset)).length = 22 := by
  rw [length_pack]
  exact width_endFields 8

lemma length_withDirectory :
    (withDirectory info before es).length = before.length + (centralDirectory info es).length + 22 := by
  rw [withDirectory, List.length_append, List.length_append, length_endFields, Nat.add_assoc]

/-- The list of entries is all that is read, whatever stands before the directory. -/
lemma readEntries_withDirectory (h : Packable es) (hlength : (withDirectory info before es).length ≤ maxArchiveSize) :
    readEntries (withDirectory info before es) = .ok es := by
  have hsum := @length_withDirectory info before es
  have hmax : maxArchiveSize = 2097152 := rfl
  have hcount : es.length ≤ 64 := h.length_le
  have hcentral : readCentral (withDirectory info before es) es.length before.length = .ok es := by
    refine readCentral_iff.mpr ⟨rfl, _, directory_of_records (fun e he => h.record (info e.name) he) h.names, ?_⟩
    rw [withDirectory, List.drop_left]
    exact List.prefix_append _ _
  obtain ⟨hfind, hlast⟩ := @findEocd_last (before ++ centralDirectory info es)
    (pack (endFields es.length (centralDirectory info es).length before.length)) length_endFields
    ((signature_pack rfl).trans (by decide)) ((withDirectory info before es).length -
      min (withDirectory info before es).length 65557) (by rw [List.length_append]; omega)
  rw [List.append_assoc, ← withDirectory] at hfind hlast
  have hcountField := @u16le_pack (endFields es.length (centralDirectory info es).length before.length) 4 10 _
    rfl (width_endFields 4) (by omega)
  have hsizeField := @u32le_pack (endFields es.length (centralDirectory info es).length before.length) 5 12 _
    rfl (width_endFields 5) (by omega)
  have hoffsetField := @u32le_pack (endFields es.length (centralDirectory info es).length before.length) 6 16 _
    rfl (width_endFields 6) (by omega)
  have hzero {k i : Nat} (hk : (endFields es.length (centralDirectory info es).length before.length)[k]? = some (2, 0))
      (hi : ([4, 2, 2, 2, 2, 4, 4, 2].take k).sum = i) :=
    u16le_pack hk ((width_endFields k).trans hi) (by decide)
  have hzeros : ¬ (u16le _ 4 ≠ 0 ∨ u16le _ 6 ≠ 0 ∨ u16le _ 20 ≠ 0) :=
    not_or.mpr ⟨not_not.mpr (@hzero 1 4 rfl rfl), not_or.mpr ⟨not_not.mpr (@hzero 2 6 rfl rfl),
      not_not.mpr (@hzero 7 20 rfl rfl)⟩⟩
  have hlimits : ¬ (es.length = 0 ∨ maxEntries < es.length ∨
      (withDirectory info before es).length < before.length + (centralDirectory info es).length) := by
    have hne := List.length_pos_of_ne_nil h.nonempty
    have hle := h.length_le
    omega
  have hnames := sorted_iff.mpr h.sorted
  have htotal : ¬ maxExtractedSize < (es.map ZipEntry.size).foldl (· + ·) 0 := by
    rw [foldl_add, Nat.zero_add]
    exact Nat.not_lt.mpr h.total
  rw [readEntries, if_neg (by omega)]
  simp only [hfind, hlast, if_neg hzeros, hcountField, hsizeField, hoffsetField, if_neg hlimits, hcentral, ok_bind,
    if_neg htotal, hnames]
  rfl

lemma width_localFields {info : ZipInfo} (k : Nat) : width ((localFields info e).take k) =
    ([4, 2, 2, 2, 2, 2, 4, 4, 4, 2, 2].take k).sum := by
  rw [width, List.map_take]
  rfl

lemma length_localFields {info : ZipInfo} : (pack (localFields info e)).length = 30 := by
  rw [length_pack]
  exact width_localFields 11

/-- The data of an entry begins behind the header that the writer makes. -/
lemma entryDataOffset_localFileHeader {info : ZipInfo} (hname : validPath e.name = true) (hsize : e.size < 4294967296)
    (hwithin : localFileHeader info e <+: file.drop e.localOffset) :
    entryDataOffset file e = .ok (e.localOffset + 30 + (utf8 e.name).length) := by
  obtain ⟨hpos, hle⟩ := utf8_length_of_validPath hname
  obtain ⟨hfixed, hbytes⟩ := append_within_iff.mp hwithin
  have hfixed : readExact file e.localOffset 30 = .ok (pack (localFields info e)) :=
    length_localFields ▸ readExact_of_within hfixed (.inl (by rw [length_localFields]; decide))
  have hbytes : readExact file (e.localOffset + 30) (utf8 e.name).length = .ok (utf8 e.name) :=
    length_localFields ▸ readExact_of_within hbytes (.inl hpos)
  have hfields : ¬ ((pack (localFields info e)).take 4 ≠ [0x50, 0x4b, 0x03, 0x04] ∨
      u16le (pack (localFields info e)) 6 &&& 0x0009 ≠ 0 ∨ u16le (pack (localFields info e)) 8 ≠ 0 ∨
      u32le (pack (localFields info e)) 18 ≠ e.size ∨ u32le (pack (localFields info e)) 22 ≠ e.size) := by
    simp only [ne_eq, not_or, not_not]
    refine ⟨(signature_pack rfl).trans (by decide), ?_, @u16le_pack _ 3 8 0 rfl (width_localFields 3) (by decide),
      @u32le_pack _ 7 18 _ rfl (width_localFields 7) hsize, @u32le_pack _ 8 22 _ rfl (width_localFields 8) hsize⟩
    rw [@u16le_pack_mod _ 2 6 info.flagBits rfl (width_localFields 2)]
    exact info.plain
  have hnameLen : u16le (pack (localFields info e)) 26 = (utf8 e.name).length :=
    @u16le_pack _ 9 26 _ rfl (width_localFields 9) (by omega)
  have hextra : u16le (pack (localFields info e)) 28 = 0 :=
    @u16le_pack _ 10 28 0 rfl (width_localFields 10) (by decide)
  rw [entryDataOffset, hfixed, ok_bind, if_neg hfields]
  simp only [hnameLen, hbytes, hextra, ok_bind]
  rw [if_neg (by simp)]
  rfl

lemma readEntry_localRecord {max : Nat} (hname : validPath c.1 = true) (hsize : c.2.length < 4294967296)
    {offset : Nat} (hwithin : localRecord info c <+: file.drop offset) (hmax : c.2.length ≤ max) :
    readEntry file (entryAt offset c) max = .ok c.2 := by
  obtain ⟨hheader, hdata⟩ := append_within_iff.mp hwithin
  have hoffset := @entryDataOffset_localFileHeader file (entryAt offset c) (info c.1) hname hsize hheader
  rw [localFileHeader, List.length_append, length_localFields, ← Nat.add_assoc] at hdata
  have hread : readExact file (offset + 30 + (utf8 c.1).length) c.2.length = .ok c.2 :=
    readExact_of_within hdata (.inr (entryDataOffset_le hoffset))
  rw [readEntry, if_neg (show ¬ max < (entryAt offset c).size from Nat.not_lt.mpr hmax)]
  simp only [hoffset, ok_bind]
  show (readExact file (offset + 30 + (utf8 c.1).length) c.2.length >>= _) = _
  rw [hread, ok_bind]
  exact if_neg (not_not.mpr rfl)

/-- A content is read back, and its entry lies in some records. -/
structure GivesBack (file records : List UInt8) (c : Content) (e : ZipEntry) : Prop where
  name : e.name = c.1
  stored : StoredAt records e c.2
  read : ∀ max, c.2.length ≤ max → readEntry file e max = .ok c.2

lemma length_localRecord : (localRecord info c).length = 30 + (utf8 c.1).length + c.2.length := by
  rw [localRecord, localFileHeader, List.length_append, List.length_append, length_localFields]
  rfl

lemma givesBack_localRecords (after : List UInt8)
    (h : ∀ e ∈ entriesFrom before.length contents, validPath e.name = true ∧ e.size < 4294967296) :
    List.Forall₂ (GivesBack (before ++ localRecords info contents ++ after) (before ++ localRecords info contents))
      contents (entriesFrom before.length contents) := by
  induction contents generalizing before with
  | nil => exact .nil
  | cons c contents ih =>
    have hlength : (before ++ localRecord info c).length =
        before.length + (30 + (utf8 c.1).length + c.2.length) := by
      rw [List.length_append, length_localRecord]
    have hrecords : before ++ localRecords info (c :: contents) =
        before ++ localRecord info c ++ localRecords info contents := by
      rw [localRecords, List.flatMap_cons, List.append_assoc]
      rfl
    obtain ⟨hname, hsize⟩ := h _ List.mem_cons_self
    rw [entriesFrom, hrecords, ← hlength]
    refine .cons ⟨rfl, ?_, fun max hmax => ?_⟩ (ih fun e he => h e (List.mem_cons_of_mem _ (hlength ▸ he)))
    · refine ⟨before, pack (localFields (info c.1) (entryAt 0 c)), localRecords info contents, ?_, rfl,
        length_localFields, rfl, rfl⟩
      simp only [localRecord, localFileHeader, List.append_assoc]
      rfl
    · refine @readEntry_localRecord info _ c max hname hsize before.length ?_ hmax
      rw [List.append_assoc, List.append_assoc, List.drop_left]
      exact List.prefix_append _ _

lemma map_name_entriesFrom (offset : Nat) (contents : List Content) :
    (entriesFrom offset contents).map ZipEntry.name = contents.map Prod.fst := by
  induction contents generalizing offset with
  | nil => rfl
  | cons c contents ih => rw [entriesFrom, List.map_cons, ih, List.map_cons, entryAt]

/-- The tool leaves entries alone that are in order. -/
lemma buildArchive_of_sorted (h : contents.Pairwise fun c c' => c.1 < c'.1) :
    buildArchive contents = zipArchive zipInfo contents := by
  rw [buildArchive, List.mergeSort_of_pairwise]
  exact h.imp fun hlt => by simpa using String.not_lt.mp (String.lt_asymm hlt)

/-- An archive that is accepted lists safe names in order within the limits, and what is read of an entry
stands behind a header of the entry. Every archive that the tool makes within the limits is accepted, its
entries are those that were written, in records before the directory, and each is read back. -/
theorem accepted_archives :
    (∀ file es, readEntries file = .ok es → Accepted file es) ∧
    ∀ contents, Packable (entriesFrom 0 contents) → (buildArchive contents).length ≤ maxArchiveSize →
      readEntries (buildArchive contents) = .ok (entriesFrom 0 contents) ∧
      ∃ records directory last, buildArchive contents = records ++ (directory ++ last) ∧ last.length = 22 ∧
        Directory (entriesFrom 0 contents) directory ∧
        List.Forall₂ (GivesBack (buildArchive contents) records) contents (entriesFrom 0 contents) := by
  refine ⟨fun file es h => accepted_of_readEntries h, fun contents h hlength => ?_⟩
  have hsorted : contents.Pairwise fun c c' => c.1 < c'.1 := by
    have hnames := List.pairwise_map.mpr h.sorted
    rw [map_name_entriesFrom] at hnames
    exact List.pairwise_map.mp hnames
  rw [buildArchive_of_sorted hsorted] at hlength ⊢
  have hentries : ∀ e ∈ entriesFrom 0 contents, validPath e.name = true ∧ e.size < 4294967296 := fun e he => by
    have hsize := h.size_le he
    rw [maxExtractedSize] at hsize
    exact ⟨h.names e he, by omega⟩
  refine ⟨readEntries_withDirectory h hlength, localRecords zipInfo contents, _, _, rfl, ?_,
    directory_of_records (fun e he => h.record (zipInfo e.name) he) h.names, ?_⟩
  · exact length_endFields
  · exact @givesBack_localRecords zipInfo [] contents _ hentries

lemma packable_stray : Packable [⟨"a", 0, 1000, 5⟩] where
  nonempty := List.cons_ne_nil _ _
  length_le := by decide
  names := by decide
  sorted := List.pairwise_singleton _ _
  total := by decide
  localOffset := by decide

/-- Other bytes before the directory do not change what is read, and the data of an entry need not be there
until it is read. -/
theorem entries_not_all : (¬ ∀ file file' es, readEntries file = .ok es → readEntries file' = .ok es → file = file') ∧
    ¬ ∀ file es, readEntries file = .ok es → ∀ e ∈ es, e.localOffset + e.size ≤ file.length := by
  have hlength (before : List UInt8) : (withDirectory zipInfo before [⟨"a", 0, 1000, 5⟩]).length = before.length + 69 := by
    rw [length_withDirectory, centralDirectory, List.flatMap_singleton, centralRecord, List.length_append,
      length_centralFields]
    rfl
  have hread (before : List UInt8) (h : before.length ≤ 1) := @readEntries_withDirectory zipInfo before _ packable_stray
    (by rw [hlength, maxArchiveSize]; omega)
  constructor
  · intro hall
    have heq := congrArg List.length (hall _ _ _ (hread [] (by decide)) (hread [0] (by decide)))
    rw [hlength, hlength] at heq
    cases heq
  · intro hall
    have hle := hall _ _ (hread [] (by decide)) _ List.mem_cons_self
    rw [hlength] at hle
    exact absurd hle (by decide)

end ThistleOS.TapInstaller
