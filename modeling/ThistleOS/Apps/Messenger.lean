import Mathlib.Tactic.IntervalCases
import ThistleOS.Broadcast
import ThistleOS.CString
import ThistleOS.EspErr
import ThistleOS.LittleEndian

/-!
# The transports of the messenger

A device that has something to say makes up an identity, which is never zero, and puts packets on the air that begin
with it. Over LoRa a packet has a binary header and over Bluetooth it is a line of text. A device that receives drops
its own packets and names the sender of every other one.
-/

open LittleEndian (encode decode)

namespace ThistleOS.Messenger

inductive MsgTransport where
  | lora
  | sms
  | ble
  | internet
  deriving DecidableEq

/-- A call of the callback `cb` of the messenger. -/
structure Told (κ : Type) where
  cb : κ
  transport : MsgTransport
  sender : CStr
  text : CStr

/-- What a transport keeps, with an identity of zero as long as it has none. -/
structure Link (κ : Type) where
  rxCb : Option κ
  deviceId : UInt32

variable {κ : Type}

def Link.new : Link κ := ⟨none, 0⟩

/-- The identity, made up of the time if there is none. -/
def identity (salt fallback : UInt32) (now : UInt64) (id : UInt32) : UInt32 :=
  if id = 0 then
    if now.toUInt32 ^^^ salt = 0 then fallback else now.toUInt32 ^^^ salt
  else id

/-! ### Hexadecimal numbers -/

/-- A digit as `%X` writes it. -/
def hexDigit (d : ℕ) : UInt8 := .ofNat (if d < 10 then 48 + d else 55 + d)

/-- The last digits of a number. -/
def hexDigits : ℕ → ℕ → List UInt8
  | 0, _ => []
  | width + 1, n => hexDigits width (n / 16) ++ [hexDigit (n % 16)]

def hexValue (b : UInt8) : Option ℕ :=
  if 48 ≤ b ∧ b ≤ 57 then some (b.toNat - 48)
  else if 65 ≤ b ∧ b ≤ 70 then some (b.toNat - 55)
  else if 97 ≤ b ∧ b ≤ 102 then some (b.toNat - 87)
  else none

def isSpace (b : UInt8) : Bool := b == 32 || (9 ≤ b && b ≤ 13)

/-- The number of the digits at the start, after those of `acc`. -/
def readHex : List UInt8 → ℕ → ℕ
  | [], acc => acc
  | b :: bs, acc =>
    match hexValue b with
    | none => acc
    | some d => readHex bs (16 * acc + d)

def skipSign : List UInt8 → Bool × List UInt8
  | [] => (false, [])
  | b :: bs => if b = 45 then (true, bs) else if b = 43 then (false, bs) else (false, b :: bs)

/-- What comes after the prefix of a hexadecimal number, which is only a prefix before a digit. -/
def skipHexMark : List UInt8 → List UInt8
  | z :: x :: b :: bs =>
    if z = 48 ∧ (x = 120 ∨ x = 88) ∧ (hexValue b).isSome then b :: bs else z :: x :: b :: bs
  | bs => bs

/-- `strtoul` to the base 16, where an `unsigned long` has 32 bits. -/
def strtoul16 (bs : List UInt8) : UInt32 :=
  let (negative, digits) := skipSign (bs.dropWhile isSpace)
  let n := readHex (skipHexMark digits) 0
  if n < 2 ^ 32 then if negative then -.ofNat n else .ofNat n else 0xFFFFFFFF

section Hex

lemma hexValue_hexDigit {d : ℕ} (h : d < 16) : hexValue (hexDigit d) = some d := by
  interval_cases d <;> rfl

/-- What is not a digit. -/
lemma hexDigit_ne {d : ℕ} (h : d < 16) {b : UInt8} (hb : hexValue b = none) : hexDigit d ≠ b := by
  rintro rfl
  rw [hexValue_hexDigit h] at hb
  cases hb

lemma isSpace_hexDigit {d : ℕ} (h : d < 16) : isSpace (hexDigit d) = false := by
  interval_cases d <;> rfl

@[simp] lemma length_hexDigits (width n : ℕ) : (hexDigits width n).length = width := by
  induction width generalizing n with
  | zero => rfl
  | succ width ih => rw [hexDigits, List.length_append, ih, List.length_singleton]

lemma mem_hexDigits {width n : ℕ} {b : UInt8} (h : b ∈ hexDigits width n) : ∃ d < 16, b = hexDigit d := by
  induction width generalizing n with
  | zero => cases h
  | succ width ih =>
    rw [hexDigits, List.mem_append, List.mem_singleton] at h
    rcases h with h | rfl
    · exact ih h
    · exact ⟨n % 16, Nat.mod_lt n (by decide), rfl⟩

lemma readHex_concat (bs : List UInt8) (hbs : ∀ b ∈ bs, ∃ d < 16, b = hexDigit d) {d : ℕ} (hd : d < 16) (acc : ℕ) :
    readHex (bs ++ [hexDigit d]) acc = 16 * readHex bs acc + d := by
  induction bs generalizing acc with
  | nil => simp only [List.nil_append, readHex, hexValue_hexDigit hd]
  | cons b bs ih =>
    obtain ⟨d', hd', rfl⟩ := hbs b List.mem_cons_self
    simp only [List.cons_append, readHex, hexValue_hexDigit hd']
    exact ih (fun b hb => hbs b (List.mem_cons_of_mem _ hb)) _

lemma readHex_hexDigits {width n : ℕ} (h : n < 16 ^ width) : readHex (hexDigits width n) 0 = n := by
  induction width generalizing n with
  | zero => rw [hexDigits, readHex, Nat.lt_one_iff.mp h]
  | succ width ih =>
    have hdiv : n / 16 < 16 ^ width := Nat.div_lt_of_lt_mul (by rwa [Nat.mul_comm, ← Nat.pow_succ])
    rw [hexDigits, readHex_concat _ (fun b hb => mem_hexDigits hb) (Nat.mod_lt n (by decide)), ih hdiv, Nat.div_add_mod]

lemma skipHexMark_digits {bs : List UInt8} (h : ∀ b ∈ bs, ∃ d < 16, b = hexDigit d) : skipHexMark bs = bs := by
  match bs with
  | [] | [_] | [_, _] => rfl
  | z :: x :: b :: bs =>
    obtain ⟨d, hd, rfl⟩ := h x (List.mem_cons_of_mem _ List.mem_cons_self)
    refine if_neg fun hmark => ?_
    rcases hmark.2.1 with hx | hx
    · exact hexDigit_ne hd rfl hx
    · exact hexDigit_ne hd rfl hx

/-- An identity is read back. -/
lemma strtoul16_hexDigits (id : UInt32) : strtoul16 (hexDigits 8 id.toNat) = id := by
  have hdigits : ∀ b ∈ hexDigits 8 id.toNat, ∃ d < 16, b = hexDigit d := fun b hb => mem_hexDigits hb
  have hnumber : readHex (hexDigits 8 id.toNat) 0 = id.toNat := readHex_hexDigits id.toNat_lt
  generalize hexDigits 8 id.toNat = bs at hdigits hnumber
  have hsign : skipSign (bs.dropWhile isSpace) = (false, bs) := by
    cases bs with
    | nil => rfl
    | cons b bs =>
      obtain ⟨d, hd, rfl⟩ := hdigits b List.mem_cons_self
      rw [List.dropWhile_cons, isSpace_hexDigit hd, if_neg Bool.false_ne_true, skipSign, if_neg (hexDigit_ne hd rfl),
        if_neg (hexDigit_ne hd rfl)]
  rw [strtoul16, hsign]
  dsimp only
  rw [skipHexMark_digits hdigits, hnumber, if_pos id.toNat_lt, if_neg Bool.false_ne_true, UInt32.ofNat_toNat]

end Hex

/-! ### Names -/

def nodePrefix : List UInt8 := utf8 "Node-"

/-- The name of a sender is `Node-%08X` of its identity. -/
def nodeBytes (id : UInt32) : List UInt8 := nodePrefix ++ hexDigits 8 id.toNat

/-- A name has none of the bytes that are neither in the prefix nor a digit. -/
lemma notMem_nodeBytes {b : UInt8} (hmark : b ∉ nodePrefix) (hb : hexValue b = none) (id : UInt32) :
    b ∉ nodeBytes id := by
  intro h
  rcases List.mem_append.mp h with h | h
  · exact hmark h
  · obtain ⟨d, hd, rfl⟩ := mem_hexDigits h
    exact hexDigit_ne hd hb rfl

def nodeName (id : UInt32) : CStr := ⟨nodeBytes id, notMem_nodeBytes (by decide) rfl id⟩

lemma length_nodeBytes (id : UInt32) : (nodeBytes id).length = 13 := by
  rw [nodeBytes, List.length_append, length_hexDigits]
  rfl

/-! ### LoRa -/

def loraMaxText : ℕ := 249

def loraPacket (id : UInt32) (text : CStr) : List UInt8 :=
  encode 4 id.toNat ++ encode 2 (min text.bytes.length loraMaxText) ++ text.bytes.take loraMaxText

/-- What the radio makes of a call: whether there is one, the time and the code that it answers with. -/
structure Radio where
  available : Bool
  now : UInt64
  rc : EspErr

namespace Link

def withLoraId (radio : Radio) (s : Link κ) : Link κ :=
  { s with deviceId := identity 0xDEADBEEF 0xCAFEBABE radio.now s.deviceId }

end Link

/-- The code that a send returns, and the packet that it gives to the radio. -/
def loraSend (radio : Radio) (text : Option CStr) (s : Link κ) : EspErr × Option (List UInt8) × Link κ :=
  if radio.available then
    match text with
    | none => (espErrInvalidArg, none, s)
    | some text =>
      if text.bytes = [] then (espErrInvalidArg, none, s)
      else
        let s := s.withLoraId radio
        (radio.rc, some (loraPacket s.deviceId text), s)
  else (espErrNotSupported, none, s)

def loraStartReceive (radio : Radio) (cb : Option κ) (s : Link κ) : EspErr × Link κ :=
  if radio.available then
    let s := s.withLoraId radio
    (radio.rc, { s with rxCb := if radio.rc = espOk then cb else none })
  else (espErrNotSupported, s)

def loraStopReceive (s : Link κ) : Link κ := { s with rxCb := none }

/-- What the radio's callback makes of a packet. -/
def loraRadioRxShim (data : List UInt8) (s : Link κ) : List (Told κ) :=
  match s.rxCb with
  | none => []
  | some cb =>
    if data.length < 7 then []
    else
      let senderId : UInt32 := .ofNat (decode (data.take 4))
      if senderId = s.deviceId then []
      else
        let msgLen := min (min (decode ((data.drop 4).take 2)) (data.length - 6)) loraMaxText
        [⟨cb, .lora, nodeName senderId, .ofBuffer ((data.drop 6).take msgLen)⟩]

/-! ### Bluetooth -/

def bleMaxText : ℕ := 220
def bleFrameMax : ℕ := bleMaxText + 48

def framePrefix : List UInt8 := utf8 "M1|"

/-- The byte between the sender and the text. -/
def bar : UInt8 := 124

def bleFrame (id : UInt32) (text : CStr) : List UInt8 :=
  framePrefix ++ (nodeBytes id ++ bar :: text.bytes.take bleMaxText)

namespace Link

def withBleId (radio : Radio) (s : Link κ) : Link κ :=
  { s with deviceId := identity 0xB1E01234 0xB1E00001 radio.now s.deviceId }

end Link

def bleSend (radio : Radio) (text : Option CStr) (s : Link κ) : EspErr × Option (List UInt8) × Link κ :=
  if radio.available then
    match text with
    | none => (espErrInvalidArg, none, s)
    | some text =>
      if text.bytes = [] then (espErrInvalidArg, none, s)
      else
        let s := s.withBleId radio
        let frame := bleFrame s.deviceId text
        if bleFrameMax ≤ frame.length then (espErrInvalidSize, none, s) else (radio.rc, some frame, s)
  else (espErrNotSupported, none, s)

def bleStartReceive (radio : Radio) (cb : Option κ) (s : Link κ) : EspErr × Link κ :=
  if radio.available then (radio.rc, { s with rxCb := if radio.rc = espOk then cb else none })
  else (espErrNotSupported, s)

def bleStopReceive (s : Link κ) : Link κ := { s with rxCb := none }

/-- The sender of a frame is the device itself. -/
def isOwn (sender : CStr) (deviceId : UInt32) : Bool :=
  nodePrefix.isPrefixOf sender.bytes && strtoul16 (sender.bytes.drop nodePrefix.length) == deviceId

def bleRxHandler (data : List UInt8) (s : Link κ) : List (Told κ) :=
  match s.rxCb with
  | none => []
  | some cb =>
    if data.length < 6 then []
    else
      let frame := CStr.ofBuffer (data.take (bleFrameMax - 1))
      if framePrefix.isPrefixOf frame.bytes then
        let rest := frame.bytes.drop framePrefix.length
        match rest.dropWhile (· != bar) with
        | [] => []
        | _ :: text =>
          if text = [] then []
          else
            let sender := CStr.ofBuffer (rest.takeWhile (· != bar))
            if isOwn sender s.deviceId then [] else [⟨cb, .ble, sender, .ofBuffer text⟩]
      else []

/-! ### Devices on the air -/

inductive Call (κ : Type) where
  | send (radio : Radio) (text : Option CStr)
  | startReceive (radio : Radio) (cb : Option κ)
  | stopReceive

def lora : Party (Call κ) (List UInt8) (List (Told κ)) (Link κ) where
  call
    | .send radio text, s => (loraSend radio text s).2
    | .startReceive radio cb, s => (none, (loraStartReceive radio cb s).2)
    | .stopReceive, s => (none, loraStopReceive s)
  hear := loraRadioRxShim

def ble : Party (Call κ) (List UInt8) (List (Told κ)) (Link κ) where
  call
    | .send radio text, s => (bleSend radio text s).2
    | .startReceive radio cb, s => (none, (bleStartReceive radio cb s).2)
    | .stopReceive, s => (none, bleStopReceive s)
  hear := bleRxHandler

/-- The text of a send that has a radio and a text. -/
def message : Call κ → Option CStr
  | .send radio text => if radio.available then text.filter fun t => t.bytes ≠ [] else none
  | _ => none

/-- The packet is the text with the identity of the device. -/
def Carries (packet : UInt32 → CStr → List UInt8) (s : Link κ) (text : CStr) (p : List UInt8) : Prop :=
  s.deviceId ≠ 0 ∧ text.bytes ≠ [] ∧ p = packet s.deviceId text

/-- What a device is told of the text of another one. -/
def heard (transport : MsgTransport) (maxText : ℕ) (text : CStr) (sender receiver : Link κ) : List (Told κ) :=
  if sender.deviceId = receiver.deviceId then []
  else receiver.rxCb.toList.map fun cb => ⟨cb, transport, nodeName sender.deviceId, text.take maxText⟩

section Identity

variable {salt fallback id : UInt32} {now : UInt64}

lemma identity_of_ne_zero (h : id ≠ 0) : identity salt fallback now id = id := if_neg h

lemma identity_ne_zero (h : fallback ≠ 0) : identity salt fallback now id ≠ 0 := by
  rw [identity]
  split_ifs with hid hfresh
  · exact h
  · exact hfresh
  · exact hid

end Identity

/-- A send makes sure of the identity and puts the text on the air with it, and no call changes an identity. -/
structure Transports (P : Party (Call κ) (List UInt8) (List (Told κ)) (Link κ)) (packet : UInt32 → CStr → List UInt8)
    (identify : Radio → Link κ → Link κ) : Prop where
  send : ∀ radio text s, P.call (.send radio text) s =
    (message (.send (κ := κ) radio text)).elim (none, s)
      fun text => (some (packet (identify radio s).deviceId text), identify radio s)
  identify_ne_zero : ∀ radio s, (identify radio s).deviceId ≠ 0
  keeps : ∀ o s, s.deviceId ≠ 0 → (P.call o s).2.deviceId = s.deviceId
  silent : ∀ o s, message o = none → (P.call o s).1 = none

lemma message_send (radio : Radio) (text : Option CStr) : message (.send (κ := κ) radio text) =
    if radio.available then text.filter fun t => t.bytes ≠ [] else none := rfl

lemma message_ne_nil {radio : Radio} {text : Option CStr} {said : CStr}
    (h : message (.send (κ := κ) radio text) = some said) : said.bytes ≠ [] := by
  rw [message_send] at h
  split_ifs at h
  rw [Option.filter_eq_some_iff] at h
  exact of_decide_eq_true h.2

lemma Transports.speaks {P : Party (Call κ) (List UInt8) (List (Told κ)) (Link κ)}
    {packet : UInt32 → CStr → List UInt8} {identify : Radio → Link κ → Link κ} (h : Transports P packet identify) :
    P.Speaks message (Carries packet) where
  sends o s := by
    cases hmessage : message o with
    | none =>
      rw [h.silent o s hmessage]
      exact .none
    | some said =>
      cases o with
      | startReceive radio cb => cases hmessage
      | stopReceive => cases hmessage
      | send radio text =>
        rw [h.send, hmessage]
        exact .some ⟨h.identify_ne_zero radio s, message_ne_nil hmessage, rfl⟩
  keeps o s text p hcarries := by
    rw [Carries, h.keeps o s hcarries.1]
    exact hcarries

section Calls

variable {radio : Radio} {text : Option CStr} {s : Link κ}

lemma loraSend_eq : (loraSend radio text s).2 = (message (.send (κ := κ) radio text)).elim (none, s)
    fun text => (some (loraPacket (s.withLoraId radio).deviceId text), s.withLoraId radio) := by
  rw [message_send]
  unfold loraSend
  cases radio.available with
  | false => rfl
  | true =>
    cases text with
    | none => rfl
    | some text =>
      by_cases htext : text.bytes = []
      · simp [htext, Option.filter]
      · simp [htext, Option.filter]

lemma length_bleFrame_lt (id : UInt32) (text : CStr) : (bleFrame id text).length < bleFrameMax := by
  have htext : (text.bytes.take bleMaxText).length ≤ bleMaxText := List.length_take_le _ _
  have hmark : framePrefix.length = 3 := rfl
  simp only [bleFrame, List.length_append, List.length_cons, length_nodeBytes, hmark, bleFrameMax]
  omega

lemma bleSend_eq : (bleSend radio text s).2 = (message (.send (κ := κ) radio text)).elim (none, s)
    fun text => (some (bleFrame (s.withBleId radio).deviceId text), s.withBleId radio) := by
  rw [message_send]
  unfold bleSend
  cases radio.available with
  | false => rfl
  | true =>
    cases text with
    | none => rfl
    | some text =>
      have hfits := Nat.not_le.mpr (length_bleFrame_lt (s.withBleId radio).deviceId text)
      by_cases htext : text.bytes = []
      · simp [htext, Option.filter]
      · simp [htext, hfits, Option.filter]

end Calls

lemma lora_transports : Transports (lora (κ := κ)) loraPacket fun radio s => s.withLoraId radio where
  send _ _ _ := loraSend_eq
  identify_ne_zero _ _ := identity_ne_zero (by decide)
  keeps o s hid := by
    have hsame : ∀ radio, (s.withLoraId radio).deviceId = s.deviceId := fun _ => identity_of_ne_zero hid
    cases o with
    | send radio text =>
      change (loraSend radio text s).2.2.deviceId = _
      rw [loraSend_eq]
      cases message (.send (κ := κ) radio text) with
      | none => rfl
      | some _ => exact hsame radio
    | startReceive radio cb =>
      change (loraStartReceive radio cb s).2.deviceId = _
      rw [loraStartReceive]
      split_ifs
      · exact hsame radio
      · exact hsame radio
      · rfl
    | stopReceive => rfl
  silent o s h := by
    cases o with
    | send radio text =>
      change (loraSend radio text s).2.1 = none
      rw [loraSend_eq, h]
      rfl
    | startReceive radio cb => rfl
    | stopReceive => rfl

lemma ble_transports : Transports (ble (κ := κ)) bleFrame fun radio s => s.withBleId radio where
  send _ _ _ := bleSend_eq
  identify_ne_zero _ _ := identity_ne_zero (by decide)
  keeps o s hid := by
    cases o with
    | send radio text =>
      change (bleSend radio text s).2.2.deviceId = _
      rw [bleSend_eq]
      cases message (.send (κ := κ) radio text) with
      | none => rfl
      | some _ => exact identity_of_ne_zero hid
    | startReceive radio cb =>
      change (bleStartReceive radio cb s).2.deviceId = _
      rw [bleStartReceive]
      split_ifs <;> rfl
    | stopReceive => rfl
  silent o s h := by
    cases o with
    | send radio text =>
      change (bleSend radio text s).2.1 = none
      rw [bleSend_eq, h]
      rfl
    | startReceive radio cb => rfl
    | stopReceive => rfl

/-! ### What a device hears -/

section Heard

variable {id : UInt32} {text : CStr} {s : Link κ}

lemma loraRadioRxShim_loraPacket (htext : text.bytes ≠ []) :
    loraRadioRxShim (loraPacket id text) s = if id = s.deviceId then [] else
      s.rxCb.toList.map fun cb => ⟨cb, .lora, nodeName id, text.take loraMaxText⟩ := by
  have hlen : min text.bytes.length loraMaxText = (text.bytes.take loraMaxText).length := by
    rw [List.length_take, Nat.min_comm]
  have hpos : 0 < (text.bytes.take loraMaxText).length := by
    rw [← hlen]
    exact Nat.lt_min.mpr ⟨List.length_pos_iff.mpr htext, by decide⟩
  have hmax : (text.bytes.take loraMaxText).length ≤ loraMaxText := List.length_take_le _ _
  have hnul : (0 : UInt8) ∉ text.bytes.take loraMaxText := fun h => text.noNul (List.mem_of_mem_take h)
  have hsender : UInt32.ofNat (decode (encode 4 id.toNat)) = id := by
    rw [LittleEndian.decode_encode id.toNat_lt, UInt32.ofNat_toNat]
  have hcount : decode (encode 2 (text.bytes.take loraMaxText).length) = (text.bytes.take loraMaxText).length :=
    LittleEndian.decode_encode (Nat.lt_of_le_of_lt hmax (by decide))
  have hcut : CStr.ofBuffer (text.bytes.take loraMaxText) = text.take loraMaxText := CStr.ofBuffer_of_notMem hnul
  rw [loraPacket, hlen]
  generalize text.bytes.take loraMaxText = body at *
  have hdrop : (encode 4 id.toNat ++ encode 2 body.length ++ body).drop 6 = body :=
    List.drop_left' (by simp)
  have hid : (encode 4 id.toNat ++ encode 2 body.length ++ body).take 4 = encode 4 id.toNat := by
    rw [List.append_assoc]
    exact List.take_left' (by simp)
  have hword : ((encode 4 id.toNat ++ encode 2 body.length ++ body).drop 4).take 2 = encode 2 body.length := by
    rw [List.append_assoc, List.drop_left' (by simp)]
    exact List.take_left' (by simp)
  have hlong : ¬ (encode 4 id.toNat ++ encode 2 body.length ++ body).length < 7 := by
    simp only [List.length_append, LittleEndian.length_encode]
    omega
  have hrest : (encode 4 id.toNat ++ encode 2 body.length ++ body).length - 6 = body.length := by
    simp only [List.length_append, LittleEndian.length_encode]
    omega
  unfold loraRadioRxShim
  cases s.rxCb with
  | none => split_ifs <;> rfl
  | some cb =>
    dsimp only
    rw [if_neg hlong, hid, hsender, hword, hcount, hrest, hdrop, Nat.min_self, Nat.min_eq_left hmax, List.take_length,
      hcut]
    rfl

lemma isOwn_nodeName (id own : UInt32) : isOwn (nodeName id) own = (id == own) := by
  have hmark : nodePrefix.isPrefixOf (nodeBytes id) = true := List.isPrefixOf_iff_prefix.mpr (List.prefix_append _ _)
  have hdigits : (nodeBytes id).drop nodePrefix.length = hexDigits 8 id.toNat := List.drop_left
  change (nodePrefix.isPrefixOf (nodeBytes id) && strtoul16 ((nodeBytes id).drop nodePrefix.length) == own) = _
  rw [hmark, hdigits, strtoul16_hexDigits, Bool.true_and]

lemma bleRxHandler_bleFrame (htext : text.bytes ≠ []) :
    bleRxHandler (bleFrame id text) s = if id = s.deviceId then [] else
      s.rxCb.toList.map fun cb => ⟨cb, .ble, nodeName id, text.take bleMaxText⟩ := by
  have hlt := length_bleFrame_lt id text
  have hnul : (0 : UInt8) ∉ text.bytes.take bleMaxText := fun h => text.noNul (List.mem_of_mem_take h)
  have hcut : CStr.ofBuffer (text.bytes.take bleMaxText) = text.take bleMaxText := CStr.ofBuffer_of_notMem hnul
  have hbody : text.bytes.take bleMaxText ≠ [] := by
    intro h
    rcases List.take_eq_nil_iff.mp h with h | h
    · exact absurd h (by decide)
    · exact htext h
  have hname : CStr.ofBuffer (nodeBytes id) = nodeName id := CStr.ofBuffer_of_notMem (nodeName id).noNul
  have hbar : ∀ b ∈ nodeBytes id, (b != bar) = true := fun b hb =>
    bne_iff_ne.mpr fun h => notMem_nodeBytes (b := bar) (by decide) rfl id (h ▸ hb)
  rw [bleFrame] at hlt ⊢
  generalize text.bytes.take bleMaxText = body at *
  have hframe : (0 : UInt8) ∉ framePrefix ++ (nodeBytes id ++ bar :: body) := by
    simp only [List.mem_append, List.mem_cons, not_or]
    exact ⟨by decide, (nodeName id).noNul, by decide, hnul⟩
  have hlong : ¬ (framePrefix ++ (nodeBytes id ++ bar :: body)).length < 6 := by
    simp only [List.length_append, List.length_cons, length_nodeBytes]
    omega
  have hwhole : (framePrefix ++ (nodeBytes id ++ bar :: body)).take (bleFrameMax - 1) =
      framePrefix ++ (nodeBytes id ++ bar :: body) := List.take_of_length_le (Nat.le_sub_one_of_lt hlt)
  have hmark : framePrefix.isPrefixOf (framePrefix ++ (nodeBytes id ++ bar :: body)) = true :=
    List.isPrefixOf_iff_prefix.mpr (List.prefix_append _ _)
  have hdrop : (framePrefix ++ (nodeBytes id ++ bar :: body)).drop framePrefix.length = nodeBytes id ++ bar :: body :=
    List.drop_left
  have hbarbar : ¬ (bar != bar) = true := by decide
  have hrest : (nodeBytes id ++ bar :: body).dropWhile (· != bar) = bar :: body := by
    rw [List.dropWhile_append_of_pos hbar, List.dropWhile_cons, if_neg hbarbar]
  have hsender : (nodeBytes id ++ bar :: body).takeWhile (· != bar) = nodeBytes id := by
    rw [List.takeWhile_append_of_pos hbar, List.takeWhile_cons, if_neg hbarbar, List.append_nil]
  unfold bleRxHandler
  cases s.rxCb with
  | none => split_ifs <;> rfl
  | some cb =>
    dsimp only
    rw [if_neg hlong, hwhole, CStr.ofBuffer_of_notMem hframe]
    dsimp only
    rw [if_pos hmark, hdrop, hrest]
    dsimp only
    rw [if_neg hbody, hsender, hname, isOwn_nodeName, hcut]
    by_cases hown : id = s.deviceId
    · rw [if_pos (beq_iff_eq.mpr hown), if_pos hown]
    · rw [if_neg (beq_iff_eq.not.mpr hown), if_neg hown]
      rfl

end Heard

/-- However the packets on the air are delayed, lost, repeated and mixed with foreign ones, a packet that reaches a
device tells it exactly the text that a device has sent, cut to what a packet holds and under the name of the sender, if
the two have different identities and the device is receiving. -/
theorem messages_heard {ι : Type} [DecidableEq ι] :
    (∀ ops : List (Party.Event ι (Call κ) (List UInt8)),
      (lora.air.watch (Party.record message)).Along (fun o w => ∀ j k i text, o = .deliver j k →
        w.2[k]? = some (i, text) →
        lora.air.reply o w.1 = some (heard .lora loraMaxText text (w.1.parties i) (w.1.parties j)))
        (⟨fun _ => .new, []⟩, []) ops) ∧
    ∀ ops : List (Party.Event ι (Call κ) (List UInt8)),
      (ble.air.watch (Party.record message)).Along (fun o w => ∀ j k i text, o = .deliver j k →
        w.2[k]? = some (i, text) →
        ble.air.reply o w.1 = some (heard .ble bleMaxText text (w.1.parties i) (w.1.parties j)))
        (⟨fun _ => .new, []⟩, []) ops := by
  constructor
  · intro ops
    refine (lora_transports.speaks.delivered_along _ ops).mono fun o w h j k i text ho hsaid => ?_
    obtain ⟨p, ⟨-, htext, rfl⟩, hreply⟩ := h j k i text ho hsaid
    exact hreply.trans (congrArg some (loraRadioRxShim_loraPacket htext))
  · intro ops
    refine (ble_transports.speaks.delivered_along _ ops).mono fun o w h j k i text ho hsaid => ?_
    obtain ⟨p, ⟨-, htext, rfl⟩, hreply⟩ := h j k i text ho hsaid
    exact hreply.trans (congrArg some (bleRxHandler_bleFrame htext))

end ThistleOS.Messenger
