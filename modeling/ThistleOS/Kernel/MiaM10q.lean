import Mathlib.Data.List.Infix
import Mathlib.Order.Basic
import ThistleOS.Text

/-!
# The receiver of the satellite positions

The task reads the serial line byte by byte and puts sentences together: a dollar sign starts one, a line feed ends it, and
what has no room is left out. Only sentences with their checksum and in UTF-8 go on to the parsers.
-/

namespace ThistleOS.MiaM10q

def nmeaBufLen : ℕ := 256

def dollar : UInt8 := 0x24
def star : UInt8 := 0x2a
def plus : UInt8 := 0x2b
def cr : UInt8 := 0x0d
def lf : UInt8 := 0x0a

/-! ### The checksum -/

/-- The value of a digit of base 16. -/
def hexDigit? (b : UInt8) : Option UInt8 :=
  if 0x30 ≤ b ∧ b ≤ 0x39 then some (b - 0x30)
  else if 0x41 ≤ b ∧ b ≤ 0x46 then some (b - 0x41 + 10)
  else if 0x61 ≤ b ∧ b ≤ 0x66 then some (b - 0x61 + 10)
  else none

/-- `u8::from_str_radix` of two bytes and the base 16: a sign may stand before a single digit. -/
def fromStrRadix (x y : UInt8) : Option UInt8 :=
  if x = plus then hexDigit? y
  else (hexDigit? x).bind fun high => (hexDigit? y).map fun low => high * 16 + low

def xorBytes (body : List UInt8) : UInt8 := body.foldl (fun acc b => acc ^^^ b) 0

/-- The two bytes behind the first star, against all that stands between it and the dollar sign. -/
def checkInner (inner : List UInt8) : Bool :=
  match inner.dropWhile (· != star) with
  | _ :: x :: y :: _ => fromStrRadix x y == some (xorBytes (inner.takeWhile (· != star)))
  | _ => false

def nmeaVerifyChecksum : List UInt8 → Bool
  | [] => false
  | first :: inner => first == dollar && checkInner inner

def isUtf8 (bytes : List UInt8) : Bool := (String.fromUTF8? ⟨bytes.toArray⟩).isSome

/-- The sentence that goes on to the parsers, if it does. -/
def nmeaProcessSentence (sentence : List UInt8) : Option (List UInt8) :=
  if nmeaVerifyChecksum sentence && isUtf8 sentence then some sentence else none

/-! ### The line -/

/-- The bytes of the sentence that is being put together, and the sentences that have gone on. -/
structure Rx where
  nmeaBuf : List UInt8
  parsed : List (List UInt8)

def receive (s : Rx) (byte : UInt8) : Rx :=
  let start := if byte = dollar then [] else s.nmeaBuf
  let buf := if start.length < nmeaBufLen - 1 then start ++ [byte] else start
  if byte = lf then ⟨[], s.parsed ++ (nmeaProcessSentence buf).toList⟩ else ⟨buf, s.parsed⟩

def gpsRxTask (stream : List UInt8) : Rx := stream.foldl receive ⟨[], []⟩

/-! ### Lines of the stream -/

/-- A line from its dollar sign to its line feed. -/
def line (body : List UInt8) (x y : UInt8) (tail : List UInt8) : List UInt8 :=
  dollar :: (body ++ star :: x :: y :: (tail ++ [lf]))

def Printable (c : UInt8) : Prop := 0x20 ≤ c ∧ c ≤ 0x7e

/-- A line that a receiver may send: the checksum in two digits, and nothing behind it but the end of the line. -/
def WellFormed (l : List UInt8) : Prop :=
  l.length ≤ nmeaBufLen - 1 ∧ ∃ body x y tail, l = line body x y tail ∧
    (∀ c ∈ body, Printable c ∧ c ≠ dollar ∧ c ≠ star) ∧ (tail = [] ∨ tail = [cr]) ∧
    ∃ high low, hexDigit? x = some high ∧ hexDigit? y = some low ∧ high * 16 + low = xorBytes body

/-- What has been read since the last start or end of a line, however much it is. -/
def current (stream : List UInt8) : List UInt8 :=
  stream.foldl (fun cur b => if b = lf then [] else if b = dollar then [b] else cur ++ [b]) []

lemma current_concat (pre : List UInt8) (b : UInt8) :
    current (pre ++ [b]) = if b = lf then [] else if b = dollar then [b] else current pre ++ [b] := by
  rw [current, List.foldl_append]
  rfl

lemma gpsRxTask_concat (pre : List UInt8) (b : UInt8) : gpsRxTask (pre ++ [b]) = receive (gpsRxTask pre) b := by
  rw [gpsRxTask, List.foldl_append]
  rfl

/-- What has room is kept. -/
lemma take_concat (n : ℕ) (l : List UInt8) (b : UInt8) :
    (if (l.take n).length < n then l.take n ++ [b] else l.take n) = (l ++ [b]).take n := by
  rw [List.length_take]
  split_ifs with h
  · have hl : l.length < n := by omega
    rw [List.take_of_length_le (Nat.le_of_lt hl), List.take_of_length_le (by simpa using Nat.succ_le_of_lt hl)]
  · rw [List.take_append_of_le_length (by omega)]

/-- What the line becomes before the end of it is looked for. -/
def started (cur : List UInt8) (b : UInt8) : List UInt8 := if b = dollar then [] else cur

lemma receive_eq (s : Rx) (b : UInt8) {cur : List UInt8} (hbuf : s.nmeaBuf = cur.take (nmeaBufLen - 1)) :
    receive s b =
      if b = lf then ⟨[], s.parsed ++ (nmeaProcessSentence ((started cur b ++ [b]).take (nmeaBufLen - 1))).toList⟩
      else ⟨(started cur b ++ [b]).take (nmeaBufLen - 1), s.parsed⟩ := by
  have hstart : (if b = dollar then [] else s.nmeaBuf) = (started cur b).take (nmeaBufLen - 1) := by
    rw [started, hbuf]
    split_ifs <;> rfl
  rw [receive]
  simp only [hstart, take_concat]

/-- The buffer holds as much of the line as it has room for. -/
lemma nmeaBuf_eq (stream : List UInt8) : (gpsRxTask stream).nmeaBuf = (current stream).take (nmeaBufLen - 1) := by
  induction stream using List.reverseRecOn with
  | nil => rfl
  | append_singleton pre b ih =>
    rw [gpsRxTask_concat, current_concat, receive_eq _ _ ih, started]
    split_ifs <;> rfl

/-- At the end of a line, and nowhere else, a sentence may go on. -/
lemma parsed_concat (pre : List UInt8) (b : UInt8) : (gpsRxTask (pre ++ [b])).parsed = (gpsRxTask pre).parsed ++
    if b = lf then (nmeaProcessSentence ((current pre ++ [lf]).take (nmeaBufLen - 1))).toList else [] := by
  rw [gpsRxTask_concat, receive_eq _ _ (nmeaBuf_eq pre)]
  split_ifs with hlf
  · subst hlf
    rfl
  · exact (List.append_nil _).symm

lemma foldl_current {m : List UInt8} (hlf : lf ∉ m) (hdollar : dollar ∉ m) (cur : List UInt8) :
    m.foldl (fun cur b => if b = lf then [] else if b = dollar then [b] else cur ++ [b]) cur = cur ++ m := by
  induction m generalizing cur with
  | nil => simp
  | cons b m ih =>
    have hb : b ≠ lf := fun h => hlf (h ▸ List.mem_cons_self)
    have hb' : b ≠ dollar := fun h => hdollar (h ▸ List.mem_cons_self)
    rw [List.foldl_cons, if_neg hb, if_neg hb', ih (fun h => hlf (List.mem_cons_of_mem b h))
      (fun h => hdollar (List.mem_cons_of_mem b h)), List.append_assoc, List.singleton_append]

/-- Whatever stands before a dollar sign is forgotten. -/
lemma current_append {m : List UInt8} (hlf : lf ∉ m) (hdollar : dollar ∉ m) (a : List UInt8) :
    current (a ++ dollar :: m) = dollar :: m := by
  rw [current, List.foldl_append, List.foldl_cons, if_neg (by decide), if_pos rfl, foldl_current hlf hdollar,
    List.singleton_append]

/-- The line is the end of what has been read, without a line feed, and with no other dollar sign than at its start. -/
lemma current_spec (pre : List UInt8) : current pre <:+ pre ∧ lf ∉ current pre ∧ dollar ∉ (current pre).tail := by
  induction pre using List.reverseRecOn with
  | nil => exact ⟨List.suffix_refl _, List.not_mem_nil, List.not_mem_nil⟩
  | append_singleton pre b ih =>
    obtain ⟨⟨a, ha⟩, hlf, hdollar⟩ := ih
    rw [current_concat]
    split_ifs with hb hb'
    · exact ⟨List.nil_suffix, List.not_mem_nil, List.not_mem_nil⟩
    · exact ⟨List.suffix_append _ _, by simpa using Ne.symm hb, List.not_mem_nil⟩
    · refine ⟨⟨a, by rw [← List.append_assoc, ha]⟩, ?_, ?_⟩
      · simpa [hlf] using Ne.symm hb
      · cases hcur : current pre with
        | nil => exact List.not_mem_nil
        | cons c cur =>
          rw [hcur] at hdollar
          simpa using And.intro hdollar (Ne.symm hb')

/-! ### What passes the check -/

lemma ne_of_fromStrRadix {x y v : UInt8} (h : fromStrRadix x y = some v) : (x ≠ lf ∧ x ≠ dollar) ∧ y ≠ lf ∧ y ≠ dollar := by
  have hlf : hexDigit? lf = none := by decide
  have hdollar : hexDigit? dollar = none := by decide
  refine ⟨⟨?_, ?_⟩, ?_, ?_⟩
  · rintro rfl
    rw [fromStrRadix, if_neg (by decide), hlf] at h
    cases h
  · rintro rfl
    rw [fromStrRadix, if_neg (by decide), hdollar] at h
    cases h
  · rintro rfl
    simp [fromStrRadix, hlf] at h
  · rintro rfl
    simp [fromStrRadix, hdollar] at h

lemma takeWhile_star {body : List UInt8} (h : star ∉ body) (rest : List UInt8) :
    (body ++ star :: rest).takeWhile (· != star) = body ∧
      (body ++ star :: rest).dropWhile (· != star) = star :: rest := by
  have hall : ∀ c ∈ body, (c != star) = true := fun c hc => bne_iff_ne.mpr fun heq => h (heq ▸ hc)
  constructor
  · rw [List.takeWhile_append_of_pos hall]
    simp
  · rw [List.dropWhile_append_of_pos hall]
    simp

/-- The check looks at the text up to the first star and at the two bytes behind it. -/
lemma nmeaVerifyChecksum_iff (sentence : List UInt8) : nmeaVerifyChecksum sentence = true ↔
    ∃ body x y rest, sentence = dollar :: (body ++ star :: x :: y :: rest) ∧ star ∉ body ∧
      fromStrRadix x y = some (xorBytes body) := by
  constructor
  · intro h
    cases sentence with
    | nil => cases h
    | cons first inner =>
      obtain ⟨hfirst, hinner⟩ := Bool.and_eq_true _ _ ▸ h
      obtain rfl := beq_iff_eq.mp hfirst
      have hsplit := List.takeWhile_append_dropWhile (p := (· != star)) (l := inner)
      have hbody : star ∉ inner.takeWhile (· != star) := fun hmem => by
        simpa using List.mem_takeWhile_imp hmem
      rw [checkInner] at hinner
      split at hinner
      · rename_i c x y rest hdrop
        have hc : c = star := by
          have hhead := List.head?_dropWhile_not (· != star) inner
          rw [hdrop] at hhead
          simpa using hhead
        subst hc
        rw [hdrop] at hsplit
        exact ⟨_, x, y, rest, by rw [hsplit], hbody, beq_iff_eq.mp hinner⟩
      · cases hinner
  · rintro ⟨body, x, y, rest, rfl, hbody, hxor⟩
    obtain ⟨htake, hdrop⟩ := takeWhile_star hbody (x :: y :: rest)
    rw [nmeaVerifyChecksum, checkInner, htake, hdrop, beq_self_eq_true, Bool.true_and]
    exact beq_iff_eq.mpr hxor

/-- Bytes below 128 are a text. -/
lemma isUtf8_of_ascii {l : List UInt8} (h : ∀ c ∈ l, c < 0x80) : isUtf8 l = true := by
  have hchar : ∀ c ∈ l, String.utf8EncodeChar (Char.ofNat c.toNat) = [c] := by
    intro c hc
    have hlt : c.toNat < 128 := h c hc
    have hvalid : c.toNat.isValidChar := .inl (by omega)
    have hnat : (Char.ofNat c.toNat).val.toNat = c.toNat := by
      rw [Char.ofNat, dif_pos hvalid]
      rfl
    simp only [String.utf8EncodeChar, hnat]
    rw [if_pos (by omega)]
    simp
  have hbytes : utf8 (String.ofList (l.map fun c => Char.ofNat c.toNat)) = l := by
    rw [utf8_eq_flatMap, String.toList_ofList, List.flatMap_map, List.flatMap_congr hchar]
    simp
  rw [isUtf8, ← hbytes, fromUTF8?_utf8]
  rfl

/-! ### Well-formed lines -/

lemma lt_of_hexDigit {b v : UInt8} (h : hexDigit? b = some v) : b < 0x80 ∧ b ≠ plus := by
  rw [hexDigit?] at h
  split_ifs at h with hdigit hupper hlower
  · exact ⟨UInt8.lt_of_le_of_lt hdigit.2 (by decide), by rintro rfl; exact absurd hdigit.1 (by decide)⟩
  · exact ⟨UInt8.lt_of_le_of_lt hupper.2 (by decide), by rintro rfl; exact absurd hupper.1 (by decide)⟩
  · exact ⟨UInt8.lt_of_le_of_lt hlower.2 (by decide), by rintro rfl; exact absurd hlower.1 (by decide)⟩

lemma fromStrRadix_of_digits {x y high low : UInt8} (hx : hexDigit? x = some high) (hy : hexDigit? y = some low) :
    fromStrRadix x y = some (high * 16 + low) := by
  rw [fromStrRadix, if_neg (lt_of_hexDigit hx).2, hx, hy]
  rfl

/-- A well-formed line goes on as it is. -/
lemma nmeaProcessSentence_of_wellFormed {l : List UInt8} (h : WellFormed l) : nmeaProcessSentence l = some l := by
  obtain ⟨-, body, x, y, tail, rfl, hbody, htail, high, low, hx, hy, hxor⟩ := h
  have hstar : star ∉ body := fun hmem => (hbody _ hmem).2.2 rfl
  have hverify : nmeaVerifyChecksum (line body x y tail) = true :=
    (nmeaVerifyChecksum_iff _).mpr ⟨body, x, y, tail ++ [lf], rfl, hstar, by rw [fromStrRadix_of_digits hx hy, hxor]⟩
  have hascii : ∀ c ∈ line body x y tail, c < 0x80 := by
    intro c hc
    simp only [line, List.mem_cons, List.mem_append, List.not_mem_nil, or_false] at hc
    rcases hc with rfl | hc | rfl | rfl | rfl | hc | rfl
    · decide
    · exact UInt8.lt_of_le_of_lt (hbody c hc).1.2 (by decide)
    · decide
    · exact (lt_of_hexDigit hx).1
    · exact (lt_of_hexDigit hy).1
    · rcases htail with rfl | rfl
      · exact absurd hc List.not_mem_nil
      · obtain rfl := List.mem_singleton.mp hc
        decide
    · decide
  rw [nmeaProcessSentence, hverify, isUtf8_of_ascii hascii, Bool.and_self, if_pos rfl]

/-- The part of a line between its dollar sign and its line feed. -/
def inner (body : List UInt8) (x y : UInt8) (tail : List UInt8) : List UInt8 := body ++ star :: x :: y :: tail

lemma line_eq (body : List UInt8) (x y : UInt8) (tail : List UInt8) :
    line body x y tail = dollar :: (inner body x y tail ++ [lf]) := by
  simp [line, inner]

lemma WellFormed.notMem_inner {body tail : List UInt8} {x y : UInt8} (hbody : ∀ c ∈ body, Printable c ∧ c ≠ dollar ∧ c ≠ star)
    (htail : tail = [] ∨ tail = [cr]) {v : UInt8} (hxy : fromStrRadix x y = some v) :
    lf ∉ inner body x y tail ∧ dollar ∉ inner body x y tail := by
  obtain ⟨⟨hx, hx'⟩, hy, hy'⟩ := ne_of_fromStrRadix hxy
  have hlf : lf ∉ body := fun h => absurd (hbody _ h).1.1 (by decide)
  have hdollar : dollar ∉ body := fun h => (hbody _ h).2.1 rfl
  have htail' : lf ∉ tail ∧ dollar ∉ tail := by
    rcases htail with rfl | rfl <;> decide
  have hstar : lf ≠ star ∧ dollar ≠ star := by decide
  simp only [inner, List.mem_append, List.mem_cons, not_or]
  exact ⟨⟨hlf, hstar.1, hx.symm, hy.symm, htail'.1⟩, hdollar, hstar.2, hx'.symm, hy'.symm, htail'.2⟩

/-- A line is cut off at the first star in one way only. -/
lemma line_inj {body body' tail tail' : List UInt8} {x x' y y' : UInt8} (hbody : star ∉ body) (hbody' : star ∉ body')
    (h : line body x y tail = line body' x' y' tail') : body = body' ∧ x = x' ∧ y = y' ∧ tail = tail' := by
  have h := List.cons_inj_right dollar |>.mp h
  have htake := congrArg (List.takeWhile (· != star)) h
  have hdrop := congrArg (List.dropWhile (· != star)) h
  rw [(takeWhile_star hbody _).1, (takeWhile_star hbody' _).1] at htake
  rw [(takeWhile_star hbody _).2, (takeWhile_star hbody' _).2] at hdrop
  injection hdrop with _ hdrop
  injection hdrop with hx hdrop
  injection hdrop with hy hdrop
  exact ⟨htake, hx, hy, List.append_cancel_right hdrop⟩

/-! ### The stream -/

/-- Each byte lets the well-formed line through that ends with it, and nothing else. -/
def Exact (stream : List UInt8) : Prop :=
  ∀ pre b, pre ++ [b] <+: stream → ∃ ending : Option (List UInt8),
    (gpsRxTask (pre ++ [b])).parsed = (gpsRxTask pre).parsed ++ ending.toList ∧
    ∀ l, ending = some l ↔ WellFormed l ∧ l <:+ pre ++ [b]

/-- Where the two bytes behind the first star of a line are the checksum of what stands before, and the part of the line that
has room is UTF-8, the line has printable characters, two digits for its checksum, nothing else behind it, and room. -/
def Spotless (stream : List UInt8) : Prop :=
  ∀ body x y tail, line body x y tail <:+: stream → star ∉ body → lf ∉ inner body x y tail → dollar ∉ inner body x y tail →
    body.length + 4 < nmeaBufLen → fromStrRadix x y = some (xorBytes body) →
    isUtf8 ((line body x y tail).take (nmeaBufLen - 1)) = true →
      (∀ c ∈ body, Printable c) ∧ x ≠ plus ∧ (tail = [] ∨ tail = [cr]) ∧ (line body x y tail).length < nmeaBufLen

lemma nmeaProcessSentence_iff {sentence l : List UInt8} : nmeaProcessSentence sentence = some l ↔
    l = sentence ∧ nmeaVerifyChecksum sentence = true ∧ isUtf8 sentence = true := by
  rw [nmeaProcessSentence, ← Bool.and_eq_true]
  split_ifs with h
  · simp [h, eq_comm]
  · simp [h]

lemma digits_of_fromStrRadix {x y v : UInt8} (hx : x ≠ plus) (h : fromStrRadix x y = some v) :
    ∃ high low, hexDigit? x = some high ∧ hexDigit? y = some low ∧ high * 16 + low = v := by
  rw [fromStrRadix, if_neg hx] at h
  obtain ⟨high, hhigh, h⟩ := Option.bind_eq_some_iff.mp h
  obtain ⟨low, hlow, h⟩ := Option.map_eq_some_iff.mp h
  exact ⟨high, low, hhigh, hlow, h⟩

/-- A line that ends with a line feed is read up to it. -/
lemma eq_concat_lf {m pre rest : List UInt8} {y : UInt8} (hy : y ≠ lf) (h : m ++ [lf] = pre ++ y :: rest) :
    ∃ tail, rest = tail ++ [lf] ∧ m = pre ++ y :: tail := by
  rcases List.eq_nil_or_concat rest with rfl | ⟨tail, b, rfl⟩
  · exact absurd (List.append_inj_right' h rfl) (by simpa using Ne.symm hy)
  · have hcut : m ++ [lf] = (pre ++ y :: tail) ++ [b] := by simpa using h
    obtain ⟨hm, hb⟩ := List.append_inj' hcut rfl
    obtain rfl : lf = b := by simpa using hb
    exact ⟨tail, List.concat_eq_append, hm⟩

section

variable {stream pre l : List UInt8}

/-- A well-formed line is in the buffer when it ends. -/
lemma processed_of_wellFormed (h : WellFormed l) (hsuffix : l <:+ pre ++ [lf]) :
    nmeaProcessSentence ((current pre ++ [lf]).take (nmeaBufLen - 1)) = some l := by
  have hprocess := nmeaProcessSentence_of_wellFormed h
  obtain ⟨hlength, body, x, y, tail, rfl, hbody, htail, high, low, hx, hy, -⟩ := h
  obtain ⟨hlf, hdollar⟩ := WellFormed.notMem_inner hbody htail (fromStrRadix_of_digits hx hy)
  obtain ⟨a, ha⟩ := hsuffix
  rw [line_eq, ← List.cons_append, ← List.append_assoc] at ha
  obtain rfl := List.append_cancel_right ha
  rw [current_append hlf hdollar, List.cons_append, ← line_eq, List.take_of_length_le hlength, hprocess]

/-- What goes on is well-formed where the stream is spotless. -/
lemma wellFormed_of_processed (hspotless : Spotless stream) (hpre : pre ++ [lf] <+: stream)
    (h : nmeaProcessSentence ((current pre ++ [lf]).take (nmeaBufLen - 1)) = some l) :
    WellFormed l ∧ l <:+ pre ++ [lf] := by
  obtain ⟨hl, hverify, hutf8⟩ := nmeaProcessSentence_iff.mp h
  obtain ⟨body, x, y, rest, hbuf, hbody, hxor⟩ := (nmeaVerifyChecksum_iff _).mp hverify
  obtain ⟨hsuffix, hlf, hdollar⟩ := current_spec pre
  have hcut := List.take_append_drop (nmeaBufLen - 1) (current pre ++ [lf])
  rw [hbuf] at hcut
  cases hcur : current pre with
  | nil =>
    rw [hcur] at hcut
    exact absurd (List.cons.inj hcut).1 (by decide)
  | cons c m =>
    rw [hcur, List.cons_append, List.cons_append] at hcut
    obtain ⟨rfl, hm⟩ := List.cons.inj hcut
    have hparts : m ++ [lf] = (body ++ [star, x]) ++ y :: (rest ++ (current pre ++ [lf]).drop (nmeaBufLen - 1)) := by
      rw [← hm, hcur]
      simp
    obtain ⟨tail, -, rfl⟩ := eq_concat_lf (ne_of_fromStrRadix hxor).2.1 hparts
    have hinner : (body ++ [star, x]) ++ y :: tail = inner body x y tail := by simp [inner]
    have hline : current pre ++ [lf] = line body x y tail := by rw [hcur, hinner, line_eq, List.cons_append]
    have hwithin : line body x y tail <:+ pre ++ [lf] := by
      obtain ⟨a, ha⟩ := hsuffix
      exact ⟨a, by rw [← hline, ← List.append_assoc, ha]⟩
    rw [hcur, hinner] at hlf hdollar
    rw [hline] at hl hbuf hutf8
    have hroom : body.length + 4 < nmeaBufLen := by
      have hlength := congrArg List.length hbuf
      rw [List.length_take] at hlength
      simp only [List.length_cons, List.length_append] at hlength
      have hmax : nmeaBufLen = 256 := rfl
      omega
    obtain ⟨hprintable, hx, htail, hlength⟩ := hspotless body x y tail (hwithin.isInfix.trans hpre.isInfix) hbody
      (fun h => hlf (List.mem_cons_of_mem _ h)) hdollar hroom hxor hutf8
    obtain ⟨high, low, hhigh, hlow, hvalue⟩ := digits_of_fromStrRadix hx hxor
    have hshort : (line body x y tail).length ≤ nmeaBufLen - 1 := Nat.le_sub_one_of_lt hlength
    rw [List.take_of_length_le hshort] at hl
    subst hl
    refine ⟨⟨hshort, body, x, y, tail, rfl, fun c hc => ⟨hprintable c hc, ?_, ?_⟩, htail, high, low, hhigh, hlow, hvalue⟩,
      hwithin⟩
    · rintro rfl
      exact hdollar (List.mem_append_left _ hc)
    · rintro rfl
      exact hbody hc

lemma exact_of_spotless (hspotless : Spotless stream) : Exact stream := by
  intro pre b hpre
  by_cases hb : b = lf
  · subst hb
    refine ⟨nmeaProcessSentence ((current pre ++ [lf]).take (nmeaBufLen - 1)), ?_, fun l => ⟨?_, ?_⟩⟩
    · rw [parsed_concat, if_pos rfl]
    · exact wellFormed_of_processed hspotless hpre
    · exact fun h => processed_of_wellFormed h.1 h.2
  · refine ⟨none, ?_, fun l => ⟨fun h => (nomatch h), ?_⟩⟩
    · rw [parsed_concat, if_neg hb]
      rfl
    · rintro ⟨⟨-, body, x, y, tail, rfl, -⟩, a, ha⟩
      rw [line_eq, ← List.cons_append, ← List.append_assoc] at ha
      exact absurd (List.append_inj_right' ha rfl) (by simpa using Ne.symm hb)

/-- A sentence that goes on is well-formed, so it is the whole line. -/
lemma line_of_exact {body tail : List UInt8} {x y : UInt8} (hexact : Exact stream)
    (hline : line body x y tail <:+: stream) (hlf : lf ∉ inner body x y tail) (hdollar : dollar ∉ inner body x y tail)
    (hprocess : nmeaProcessSentence ((line body x y tail).take (nmeaBufLen - 1)) =
      some ((line body x y tail).take (nmeaBufLen - 1))) : WellFormed (line body x y tail) := by
  obtain ⟨a, c, rfl⟩ := hline
  have hpre : a ++ dollar :: inner body x y tail ++ [lf] <+: a ++ line body x y tail ++ c := by
    rw [line_eq]
    simp
  have hcurrent : current (a ++ dollar :: inner body x y tail) ++ [lf] = line body x y tail := by
    rw [current_append hlf hdollar, line_eq, List.cons_append]
  obtain ⟨ending, hparsed, hending⟩ := hexact _ lf hpre
  rw [parsed_concat, if_pos rfl, hcurrent, hprocess] at hparsed
  have hsome : ending = some ((line body x y tail).take (nmeaBufLen - 1)) := by
    have h := List.append_cancel_left hparsed
    cases ending with
    | none => cases h
    | some l => rw [(List.cons.inj h).1]
  obtain ⟨hwell, -⟩ := (hending _).mp hsome
  suffices hshort : (line body x y tail).length ≤ nmeaBufLen - 1 by
    rwa [List.take_of_length_le hshort] at hwell
  -- the line feed of a well-formed line is the one at the end, so nothing has been cut off
  by_contra hlong
  have hmem : lf ∈ (line body x y tail).take (nmeaBufLen - 1) := by
    obtain ⟨-, body', x', y', tail', heq, -⟩ := hwell
    rw [heq, line_eq]
    simp
  have hle : nmeaBufLen - 1 ≤ (dollar :: inner body x y tail).length := by
    rw [line_eq, ← List.cons_append, List.length_append, List.length_singleton] at hlong
    omega
  rw [line_eq, ← List.cons_append, List.take_append_of_le_length hle] at hmem
  rcases List.mem_cons.mp (List.mem_of_mem_take hmem) with h | h
  · cases h
  · exact hlf h

lemma spotless_of_exact (hexact : Exact stream) : Spotless stream := by
  intro body x y tail hline hbody hlf hdollar hroom hxor hutf8
  have hmax : nmeaBufLen = 256 := rfl
  have hverify : nmeaVerifyChecksum ((line body x y tail).take (nmeaBufLen - 1)) = true := by
    have hparts : line body x y tail = (dollar :: (body ++ [star, x, y])) ++ (tail ++ [lf]) := by simp [line]
    have hle : (dollar :: (body ++ [star, x, y])).length ≤ nmeaBufLen - 1 := by
      simp only [List.length_cons, List.length_append, List.length_nil]
      omega
    rw [hparts, List.take_append, List.take_of_length_le hle]
    exact (nmeaVerifyChecksum_iff _).mpr ⟨body, x, y,
      (tail ++ [lf]).take (nmeaBufLen - 1 - (dollar :: (body ++ [star, x, y])).length), by simp, hbody, hxor⟩
  obtain ⟨hlength, body', x', y', tail', heq, hbody', htail', high, low, hx, hy, -⟩ :=
    line_of_exact hexact hline hlf hdollar (nmeaProcessSentence_iff.mpr ⟨rfl, hverify, hutf8⟩)
  obtain ⟨rfl, rfl, rfl, rfl⟩ := line_inj hbody (fun h => (hbody' _ h).2.2 rfl) heq
  exact ⟨fun c hc => (hbody' c hc).1, (lt_of_hexDigit hx).2, htail', by omega⟩

end

/-- At every byte of the stream the sentences that have gone on are the well-formed lines, each once and in order, exactly if
the stream is spotless. -/
theorem exact_iff_spotless (stream : List UInt8) : Exact stream ↔ Spotless stream :=
  ⟨spotless_of_exact, exact_of_spotless⟩

/-- Something stands between the checksum and the end of the line. -/
theorem not_exact_of_tail : ¬ Exact (utf8 "$A*41B\n") := by
  intro h
  obtain ⟨-, -, htail, -⟩ := spotless_of_exact h (utf8 "A") 0x34 0x31 (utf8 "B") ⟨[], [], by decide⟩ (by decide) (by decide)
    (by decide) (by decide) (by decide) (by decide)
  exact absurd htail (by decide)

end ThistleOS.MiaM10q
