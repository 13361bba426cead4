import ThistleOS.Kernel.ContactManager
import ThistleOS.Kernel.MsgQueue.Base64
import ThistleOS.Kernel.MsgQueue.Lookup
import ThistleOS.Recovery.ArtifactManifest.Canonical

/-!
# vCards

A contact that is exported and imported again comes back if no text ends its line before its end: the writer takes
the texts as they are.
-/

namespace ThistleOS.Contacts

open MsgQueue ContactManager

def Contact.toVcard (c : Contact) : Text :=
  "BEGIN:VCARD\r\n".toList ++
  "VERSION:3.0\r\n".toList ++
  ("FN:".toList ++ c.name ++ "\r\n".toList) ++
  (if c.callsign ≠ [] then "NICKNAME:".toList ++ c.callsign ++ "\r\n".toList else []) ++
  (if c.phone ≠ [] then "TEL:".toList ++ c.phone ++ "\r\n".toList else []) ++
  ("NOTE:device_id=".toList ++ decimal c.deviceId.toNat ++ ";ble_addr=".toList ++ c.bleAddr ++
    ";emergency=".toList ++ boolText c.isEmergency ++ "\r\n".toList) ++
  (if c.publicKey.bytes ≠ (Arr.zero : Arr 32).bytes then "KEY;ENCODING=BASE64:".toList ++ base64Encode c.publicKey.bytes ++ "\r\n".toList
    else []) ++
  "END:VCARD\r\n".toList

def ContactManager.exportVcard (id : UInt32) (mgr : ContactManager) : Option Text := (mgr.get id).map Contact.toVcard

/-- What a vCard carries over. -/
structure SameCard (c c' : Contact) : Prop where
  name : c'.name = c.name
  callsign : c'.callsign = c.callsign
  deviceId : c'.deviceId = c.deviceId
  phone : c'.phone = c.phone
  bleAddr : c'.bleAddr = c.bleAddr
  publicKey : c'.publicKey = c.publicKey
  isEmergency : c'.isEmergency = c.isEmergency

/-- A text that stands at the end of a line. -/
structure EndsLine (s : Text) : Prop where
  feed : '\n' ∉ s
  ret : s.getLast? ≠ some '\r'

/-- The texts of a contact that a vCard has room for. -/
structure Clean (c : Contact) : Prop where
  name_ne : c.name ≠ []
  name : EndsLine c.name
  callsign : EndsLine c.callsign
  phone : EndsLine c.phone
  feed : '\n' ∉ c.bleAddr
  semicolon : ';' ∉ c.bleAddr

/-! ### Lines -/

/-- A piece has no separator and nothing that is not in the text. -/
lemma of_mem_splitOn {x : Char} {s piece : Text} (h : piece ∈ s.splitOn x) : x ∉ piece ∧ piece ⊆ s := by
  induction s generalizing piece with
  | nil =>
    obtain rfl : piece = [] := by simpa using h
    exact ⟨List.not_mem_nil, List.nil_subset _⟩
  | cons c s ih =>
    rw [List.splitOn_cons_eq_if_modifyHead] at h
    split_ifs at h with hc
    · rcases List.mem_cons.mp h with rfl | h
      · exact ⟨List.not_mem_nil, List.nil_subset _⟩
      · exact ⟨(ih h).1, List.subset_cons_of_subset c (ih h).2⟩
    · cases hs : s.splitOn x with
      | nil => exact absurd hs (List.splitOn_ne_nil x s)
      | cons first rest =>
        rw [hs] at h ih
        rcases List.mem_cons.mp h with rfl | h
        · obtain ⟨hfirst, hsubset⟩ := ih List.mem_cons_self
          have hne : x ≠ c := fun heq => hc (by simp [heq])
          exact ⟨by simp [hne, hfirst], List.cons_subset_cons c hsubset⟩
        · have hrest := ih (List.mem_cons_of_mem first h)
          exact ⟨hrest.1, List.subset_cons_of_subset c hrest.2⟩

lemma endsLine_of_mem_lines {data line : Text} (h : line ∈ Contact.lines data) : EndsLine line := by
  rw [Contact.lines] at h
  obtain ⟨piece, hpiece, rfl⟩ := List.mem_map.mp h
  have hmem : piece ∈ data.splitOn '\n' := by
    split_ifs at hpiece
    · exact List.dropLast_subset _ hpiece
    · exact hpiece
  refine ⟨fun hfeed => (of_mem_splitOn hmem).1 ((List.rdropWhile_prefix _ _).subset hfeed), ?_⟩
  intro hlast
  have hne : piece.rdropWhile (· == '\r') ≠ [] := by
    rintro hnil
    rw [hnil] at hlast
    cases hlast
  rw [List.getLast?_eq_some_getLast hne] at hlast
  exact List.rdropWhile_last_not _ _ hne (by simpa using hlast)

lemma EndsLine.rdropWhile {s : Text} (h : EndsLine s) : s.rdropWhile (· == '\r') = s := by
  refine List.rdropWhile_eq_self_iff.mpr fun hne hlast => h.ret ?_
  rw [List.getLast?_eq_some_getLast hne]
  simpa using hlast

/-- Lines that are written one after the other are read again. -/
lemma lines_flatMap {ls : List Text} (h : ∀ l ∈ ls, EndsLine l) :
    Contact.lines (ls.flatMap fun l => l ++ "\r\n".toList) = ls := by
  have hjoin : (ls.flatMap fun l => l ++ "\r\n".toList) =
      ['\n'].intercalate (ls.map (· ++ ['\r']) ++ [[]]) := by
    clear h
    induction ls with
    | nil => rfl
    | cons l ls ih =>
      rw [List.flatMap_cons, ih, List.map_cons, List.cons_append, List.intercalate_cons_of_ne_nil (by simp)]
      simp
  have hpieces : ∀ l ∈ ls.map (· ++ ['\r']) ++ [[]], '\n' ∉ l := by
    intro l hl
    rcases List.mem_append.mp hl with hl | hl
    · obtain ⟨l', hl', rfl⟩ := List.mem_map.mp hl
      simpa using (h l' hl').feed
    · simp [List.mem_singleton.mp hl]
  rw [Contact.lines, hjoin, List.splitOn_intercalate '\n' hpieces (by simp), List.getLast?_concat, if_pos rfl, List.dropLast_concat, List.map_map]
  conv_rhs => rw [← List.map_id ls]
  refine List.map_congr_left fun l hl => ?_
  exact (List.rdropWhile_concat_pos _ _ _ rfl).trans (h l hl).rdropWhile

/-! ### Writing -/

/-- The lines of a vCard. -/
def vcardLines (c : Contact) : List Text :=
  ["BEGIN:VCARD".toList, "VERSION:3.0".toList, "FN:".toList ++ c.name] ++
  (if c.callsign ≠ [] then ["NICKNAME:".toList ++ c.callsign] else []) ++
  (if c.phone ≠ [] then ["TEL:".toList ++ c.phone] else []) ++
  ["NOTE:".toList ++ [';'].intercalate ["device_id=".toList ++ decimal c.deviceId.toNat, "ble_addr=".toList ++ c.bleAddr,
    "emergency=".toList ++ boolText c.isEmergency]] ++
  (if c.publicKey.bytes ≠ (Arr.zero : Arr 32).bytes then ["KEY;ENCODING=BASE64:".toList ++ base64Encode c.publicKey.bytes]
    else []) ++
  ["END:VCARD".toList]

variable {c c' : Contact} {s t : Text}

lemma toVcard_eq (c : Contact) : c.toVcard = (vcardLines c).flatMap fun l => l ++ "\r\n".toList := by
  have hbegin : "BEGIN:VCARD\r\n".toList = "BEGIN:VCARD".toList ++ "\r\n".toList := rfl
  have hversion : "VERSION:3.0\r\n".toList = "VERSION:3.0".toList ++ "\r\n".toList := rfl
  have hend : "END:VCARD\r\n".toList = "END:VCARD".toList ++ "\r\n".toList := rfl
  have hnote : "NOTE:device_id=".toList = "NOTE:".toList ++ "device_id=".toList := rfl
  have haddr : ";ble_addr=".toList = [';'] ++ "ble_addr=".toList := rfl
  have hemergency : ";emergency=".toList = [';'] ++ "emergency=".toList := rfl
  have hif {p : Prop} [Decidable p] (l : Text) : (if p then [l] else []).flatMap (fun l => l ++ "\r\n".toList) =
      if p then l ++ "\r\n".toList else [] := by
    split_ifs
    · exact List.append_nil _
    · rfl
  unfold Contact.toVcard
  rw [vcardLines]
  simp only [hbegin, hversion, hend, hnote, haddr, hemergency, List.flatMap_append, hif, List.flatMap_cons,
    List.flatMap_nil, List.append_nil, List.append_assoc, List.intercalate_cons_cons, List.intercalate_singleton]

lemma EndsLine.append (h : EndsLine s) (ht : '\n' ∉ t) (hlast : t.getLast? ≠ some '\r') : EndsLine (t ++ s) := by
  refine ⟨fun hmem => (List.mem_append.mp hmem).elim ht h.feed, ?_⟩
  rw [List.getLast?_append]
  cases hs : s.getLast? with
  | none => simpa using hlast
  | some x =>
    have := h.ret
    rw [hs] at this
    simpa using this

lemma EndsLine.append_ne (h : EndsLine s) (hs : s ≠ []) (ht : '\n' ∉ t) : EndsLine (t ++ s) := by
  refine ⟨fun hmem => (List.mem_append.mp hmem).elim ht h.feed, ?_⟩
  rw [List.getLast?_append, List.getLast?_eq_some_getLast hs]
  have hlast := h.ret
  rwa [List.getLast?_eq_some_getLast hs] at hlast

lemma endsLine_of_ne (h : ∀ c ∈ s, c ≠ '\n' ∧ c ≠ '\r') : EndsLine s :=
  ⟨fun hmem => (h _ hmem).1 rfl, fun hlast => (h _ (List.mem_of_getLast? hlast)).2 rfl⟩

lemma notMem_decimal {x : Char} (hx : x.isDigit = false) (n : ℕ) : x ∉ decimal n := fun h => by
  have hdigit := isDigit_of_mem_decimal h
  rw [hx] at hdigit
  cases hdigit

lemma endsLine_boolText (b : Bool) : boolText b ≠ [] ∧ EndsLine (boolText b) ∧ ';' ∉ boolText b := by
  cases b
  · exact ⟨by decide, ⟨by decide, by decide⟩, by decide⟩
  · exact ⟨by decide, ⟨by decide, by decide⟩, by decide⟩

lemma endsLine_base64Encode (data : List UInt8) : EndsLine (base64Encode data) := by
  refine endsLine_of_ne fun c hc => ⟨?_, ?_⟩
  all_goals
    rintro rfl
    exact absurd (isBase64_of_mem hc) (by decide)

/-- The parts of the line with the note. -/
lemma note_eq (n : UInt32) (addr : Text) (b : Bool) :
    [';'].intercalate ["device_id=".toList ++ decimal n.toNat, "ble_addr=".toList ++ addr,
      "emergency=".toList ++ boolText b] = ("device_id=".toList ++ decimal n.toNat ++ [';'] ++
        ("ble_addr=".toList ++ addr ++ [';'] ++ "emergency=".toList)) ++ boolText b := by
  simp only [List.intercalate_cons_cons, List.intercalate_singleton, List.append_assoc]

lemma Clean.endsLine (h : Clean c) : ∀ l ∈ vcardLines c, EndsLine l := by
  have hnote : EndsLine ("NOTE:".toList ++ [';'].intercalate ["device_id=".toList ++ decimal c.deviceId.toNat,
      "ble_addr=".toList ++ c.bleAddr, "emergency=".toList ++ boolText c.isEmergency]) := by
    obtain ⟨hne, hbool, -⟩ := endsLine_boolText c.isEmergency
    rw [note_eq, ← List.append_assoc]
    refine hbool.append_ne hne ?_
    have hdigits := notMem_decimal (by decide : '\n'.isDigit = false) c.deviceId.toNat
    simp only [List.mem_append, hdigits, h.feed, or_false]
    decide
  intro l hl
  simp only [vcardLines, List.mem_append, List.mem_cons, List.not_mem_nil, or_false] at hl
  rcases hl with ((((((rfl | rfl | rfl) | hl) | hl) | rfl) | hl) | rfl)
  · exact ⟨by decide, by decide⟩
  · exact ⟨by decide, by decide⟩
  · exact h.name.append (by decide) (by decide)
  · split_ifs at hl
    · obtain rfl := List.mem_singleton.mp hl
      exact h.callsign.append (by decide) (by decide)
    · cases hl
  · split_ifs at hl
    · obtain rfl := List.mem_singleton.mp hl
      exact h.phone.append (by decide) (by decide)
    · cases hl
  · exact hnote
  · split_ifs at hl
    · obtain rfl := List.mem_singleton.mp hl
      exact (endsLine_base64Encode _).append (by decide) (by decide)
    · cases hl
  · exact ⟨by decide, by decide⟩

/-! ### Reading -/

lemma parseU32_decimal (n : UInt32) : Contact.parseU32 (decimal n.toNat) = some n := by
  have htext : String.ofList (decimal n.toNat) = toString n := Nat.toString_eq_ofList_toDigits.symm
  rw [Contact.parseU32, htext, ArtifactManifest.parseDecimal_toString, Option.map_some, UInt32.ofNat_toNat]

lemma readNote (c : Contact) (n : UInt32) (addr : Text) (haddr : ';' ∉ addr) (b : Bool) :
    (([';'].intercalate ["device_id=".toList ++ decimal n.toNat, "ble_addr=".toList ++ addr,
      "emergency=".toList ++ boolText b]).splitOn ';').foldl Contact.readNotePart c =
        { c with deviceId := n, bleAddr := addr, isEmergency := b } := by
  have hdigits := notMem_decimal (by decide : ';'.isDigit = false) n.toNat
  have hbool := (endsLine_boolText b).2.2
  have hparts : ∀ l ∈ ["device_id=".toList ++ decimal n.toNat, "ble_addr=".toList ++ addr,
      "emergency=".toList ++ boolText b], ';' ∉ l := by
    simp [hdigits, haddr, hbool]
  have hid (c : Contact) : Contact.readNotePart c ("device_id=".toList ++ decimal n.toNat) = { c with deviceId := n } := by
    rw [Contact.readNotePart, List.dropPrefix?_append_of_beq _ (by simp)]
    simp only [parseU32_decimal, Option.getD_some]
  have haddr' (c : Contact) : Contact.readNotePart c ("ble_addr=".toList ++ addr) = { c with bleAddr := addr } := by
    simp [Contact.readNotePart, List.dropPrefix?]
  have hemergency (c : Contact) : Contact.readNotePart c ("emergency=".toList ++ boolText b) =
      { c with isEmergency := b } := by
    cases b <;> rfl
  rw [List.splitOn_intercalate ';' hparts (by simp), List.foldl_cons, List.foldl_cons, List.foldl_cons, hid, haddr',
    hemergency]
  rfl

lemma isWhiteSpace_of_isBase64 {x : Char} (h : isBase64 x = true) : isWhiteSpace x = false := by
  have hall : b64Chars.all (fun x => !isWhiteSpace x) = true := by decide +kernel
  rw [isBase64, Bool.or_eq_true, List.contains_iff_mem, beq_iff_eq] at h
  rcases h with h | rfl
  · simpa using List.all_eq_true.mp hall x h
  · rfl

lemma trim_base64Encode (data : List UInt8) : trim (base64Encode data) = base64Encode data := by
  have hwhite : ∀ x ∈ base64Encode data, isWhiteSpace x = false := fun x hx =>
    isWhiteSpace_of_isBase64 (isBase64_of_mem hx)
  have hstart : trimStart (base64Encode data) = base64Encode data := by
    cases hdata : base64Encode data with
    | nil => rfl
    | cons x xs => exact trimStart_of_not (hwhite x (hdata ▸ List.mem_cons_self)) xs
  rw [trim, hstart, List.rdropWhile_eq_self_iff]
  intro hne
  rw [hwhite _ (List.getLast_mem hne)]
  exact Bool.false_ne_true

lemma readKey_base64Encode (c : Contact) (k : Arr 32) :
    Contact.readKey c (base64Encode k.bytes) = { c with publicKey := k } := by
  have htake : k.bytes.take 32 = k.bytes := List.take_of_length_le (by rw [Arr.length_bytes])
  rw [Contact.readKey, trim_base64Encode, base64Decode_base64Encode]
  simp only [Arr.length_bytes, le_refl, if_true, htake, Arr.ofSlice_bytes]

section ReadLine

variable (c : Contact) (s : Text)

lemma readLine_name : Contact.readLine c ("FN:".toList ++ s) = { c with name := s } := by
  simp [Contact.readLine, List.dropPrefix?]

lemma readLine_callsign : Contact.readLine c ("NICKNAME:".toList ++ s) = { c with callsign := s } := by
  simp [Contact.readLine, List.dropPrefix?]

lemma readLine_phone : Contact.readLine c ("TEL:".toList ++ s) = { c with phone := s } := by
  simp [Contact.readLine, List.dropPrefix?]

lemma readLine_note : Contact.readLine c ("NOTE:".toList ++ s) = (s.splitOn ';').foldl Contact.readNotePart c := by
  simp [Contact.readLine, List.dropPrefix?]

lemma readLine_key : Contact.readLine c ("KEY;ENCODING=BASE64:".toList ++ s) = Contact.readKey c s := by
  simp [Contact.readLine, List.dropPrefix?]

end ReadLine

/-- The contact that the lines spell. -/
lemma foldl_vcardLines (haddr : ';' ∉ c.bleAddr) : (vcardLines c).foldl Contact.readLine (.new 0 []) =
    { Contact.new 0 c.name with
      callsign := c.callsign
      phone := c.phone
      deviceId := c.deviceId
      bleAddr := c.bleAddr
      isEmergency := c.isEmergency
      publicKey := c.publicKey } := by
  have hcallsign {c' : Contact} (h : c'.callsign = []) : (if c.callsign ≠ [] then ["NICKNAME:".toList ++ c.callsign]
      else []).foldl Contact.readLine c' = { c' with callsign := c.callsign } := by
    split_ifs with hnil
    · rw [List.foldl_cons, List.foldl_nil, readLine_callsign]
    · rw [not_not.mp hnil, ← h]
      rfl
  have hphone {c' : Contact} (h : c'.phone = []) : (if c.phone ≠ [] then ["TEL:".toList ++ c.phone]
      else []).foldl Contact.readLine c' = { c' with phone := c.phone } := by
    split_ifs with hnil
    · rw [List.foldl_cons, List.foldl_nil, readLine_phone]
    · rw [not_not.mp hnil, ← h]
      rfl
  have hkey {c' : Contact} (h : c'.publicKey = .zero) : (if c.publicKey.bytes ≠ (Arr.zero : Arr 32).bytes then
      ["KEY;ENCODING=BASE64:".toList ++ base64Encode c.publicKey.bytes] else []).foldl Contact.readLine c' =
        { c' with publicKey := c.publicKey } := by
    split_ifs with hzero
    · rw [List.foldl_cons, List.foldl_nil, readLine_key, readKey_base64Encode]
    · have hpublic : c.publicKey = .zero := by
        rw [← Arr.ofSlice_bytes c.publicKey, not_not.mp hzero, Arr.ofSlice_bytes]
      rw [hpublic, ← h]
      rfl
  have hother (c' : Contact) : Contact.readLine c' "BEGIN:VCARD".toList = c' ∧
      Contact.readLine c' "VERSION:3.0".toList = c' ∧ Contact.readLine c' "END:VCARD".toList = c' := by
    simp [Contact.readLine, List.dropPrefix?]
  rw [vcardLines]
  simp only [List.foldl_append, List.foldl_cons, List.foldl_nil, (hother _).1, (hother _).2.1, (hother _).2.2,
    readLine_name, readLine_note]
  rw [hcallsign rfl, hphone rfl, readNote _ _ _ haddr, hkey rfl]
  rfl

/-- A clean contact is read as it was written. -/
lemma Clean.fromVcard (h : Clean c) : ∃ c', Contact.fromVcard c.toVcard = some c' ∧ SameCard c c' := by
  rw [Contact.fromVcard, toVcard_eq, lines_flatMap h.endsLine, foldl_vcardLines h.semicolon]
  refine ⟨_, if_neg h.name_ne, ?_⟩
  constructor <;> rfl

/-! ### What can be read -/

/-- What every contact satisfies that is read from a vCard. -/
structure Readable (c : Contact) : Prop where
  name : EndsLine c.name
  callsign : EndsLine c.callsign
  phone : EndsLine c.phone
  feed : '\n' ∉ c.bleAddr
  semicolon : ';' ∉ c.bleAddr

lemma EndsLine.of_append (h : EndsLine (t ++ s)) : EndsLine s := by
  refine ⟨fun hmem => h.feed (List.mem_append_right t hmem), fun hlast => h.ret ?_⟩
  rw [List.getLast?_append, hlast]
  rfl

lemma EndsLine.of_dropPrefix? {line pre value : Text} (h : EndsLine line) (hdrop : line.dropPrefix? pre = some value) :
    EndsLine value := by
  obtain ⟨pre', rfl, -⟩ := List.dropPrefix?_eq_some_iff.mp hdrop
  exact h.of_append

lemma Readable.readNotePart (h : Readable c) {part : Text} (hfeed : '\n' ∉ part) (hsemicolon : ';' ∉ part) :
    Readable (Contact.readNotePart c part) := by
  rw [Contact.readNotePart]
  split
  · exact ⟨h.name, h.callsign, h.phone, h.feed, h.semicolon⟩
  · split
    · rename_i hdrop
      obtain ⟨pre, rfl, -⟩ := List.dropPrefix?_eq_some_iff.mp hdrop
      exact ⟨h.name, h.callsign, h.phone, fun hmem => hfeed (List.mem_append_right pre hmem),
        fun hmem => hsemicolon (List.mem_append_right pre hmem)⟩
    · split
      · exact ⟨h.name, h.callsign, h.phone, h.feed, h.semicolon⟩
      · exact h

lemma Readable.readLine (h : Readable c) {line : Text} (hline : EndsLine line) : Readable (Contact.readLine c line) := by
  rw [Contact.readLine]
  split
  · rename_i hdrop
    exact ⟨hline.of_dropPrefix? hdrop, h.callsign, h.phone, h.feed, h.semicolon⟩
  · split
    · rename_i hdrop
      exact ⟨h.name, hline.of_dropPrefix? hdrop, h.phone, h.feed, h.semicolon⟩
    · split
      · rename_i hdrop
        exact ⟨h.name, h.callsign, hline.of_dropPrefix? hdrop, h.feed, h.semicolon⟩
      · split
        · rename_i value hdrop
          have hvalue := hline.of_dropPrefix? hdrop
          refine List.foldlRecOn _ _ h fun c hc part hpart => ?_
          obtain ⟨hsemicolon, hsubset⟩ := of_mem_splitOn hpart
          exact hc.readNotePart (fun hmem => hvalue.feed (hsubset hmem)) hsemicolon
        · split
          · rw [Contact.readKey]
            split
            · exact h
            · split_ifs
              · exact ⟨h.name, h.callsign, h.phone, h.feed, h.semicolon⟩
              · exact h
          · exact h

lemma clean_of_fromVcard {data : Text} (h : Contact.fromVcard data = some c') (hsame : SameCard c c') : Clean c := by
  have hnil : EndsLine [] := ⟨List.not_mem_nil, by simp⟩
  have hreadable : Readable ((Contact.lines data).foldl Contact.readLine (.new 0 [])) :=
    List.foldlRecOn _ _ ⟨hnil, hnil, hnil, List.not_mem_nil, List.not_mem_nil⟩
      fun c hc line hline => hc.readLine (endsLine_of_mem_lines hline)
  rw [Contact.fromVcard] at h
  split_ifs at h with hname
  obtain rfl := Option.some.inj h
  exact {
    name_ne := hsame.name ▸ hname
    name := hsame.name ▸ hreadable.name
    callsign := hsame.callsign ▸ hreadable.callsign
    phone := hsame.phone ▸ hreadable.phone
    feed := hsame.bleAddr ▸ hreadable.feed
    semicolon := hsame.bleAddr ▸ hreadable.semicolon }

/-- A contact that is exported and imported comes back exactly if there is room for another contact, it has a name, no
text that ends a line holds a line feed or ends with a carriage return, and the address holds neither a line feed nor
a semicolon. -/
theorem vcard_round_trip_iff (mgr : ContactManager) (id : UInt32) (c : Contact) (h : mgr.get id = some c) :
    ∃ text, mgr.exportVcard id = some text ∧
      ((∃ c', (mgr.importVcard text).2.contacts = mgr.contacts ++ [c'] ∧ SameCard c c') ↔
        Clean c ∧ mgr.contacts.length < maxContacts) := by
  refine ⟨c.toVcard, by rw [exportVcard, h, Option.map_some], ?_⟩
  rw [importVcard]
  split_ifs with hfull
  · exact iff_of_false (fun ⟨c', hc', _⟩ => by simp at hc') fun hroom => Nat.not_lt.mpr hfull hroom.2
  · constructor
    · rintro ⟨c', hc', hsame⟩
      refine ⟨?_, Nat.lt_of_not_le hfull⟩
      cases hread : Contact.fromVcard c.toVcard with
      | none =>
        rw [hread] at hc'
        simp at hc'
      | some read =>
        rw [hread] at hc'
        have heq := List.append_cancel_left hc'
        obtain rfl := List.singleton_inj.mp heq
        exact clean_of_fromVcard hread ⟨hsame.name, hsame.callsign, hsame.deviceId, hsame.phone, hsame.bleAddr,
          hsame.publicKey, hsame.isEmergency⟩
    · rintro ⟨hclean, -⟩
      obtain ⟨c', hread, hsame⟩ := hclean.fromVcard
      rw [hread]
      exact ⟨{ c' with id := mgr.nextId }, rfl, hsame.name, hsame.callsign, hsame.deviceId, hsame.phone, hsame.bleAddr, hsame.publicKey,
        hsame.isEmergency⟩

theorem vcard_round_trip_iff_ada : ∃ mgr c, (ContactManager.new.add "Ada".toList "KA".toList 7 []).2 = mgr ∧
    mgr.get 1 = some c ∧ ∃ text, mgr.exportVcard 1 = some text ∧
      ((∃ c', (mgr.importVcard text).2.contacts = mgr.contacts ++ [c'] ∧ SameCard c c') ↔
        Clean c ∧ mgr.contacts.length < maxContacts) :=
  ⟨_, _, rfl, rfl, vcard_round_trip_iff _ 1 _ rfl⟩

/-- A name with a line feed comes back as its first line. -/
theorem vcard_cuts_name : ∃ mgr, (ContactManager.new.add "Ada\nEve".toList [] 0 []).2 = mgr ∧
    (mgr.exportVcard 1).map (fun text => (mgr.importVcard text).2.contacts.map Contact.name) =
      some ["Ada\nEve".toList, "Ada".toList] := by
  refine ⟨_, rfl, ?_⟩
  decide +kernel

end ThistleOS.Contacts
