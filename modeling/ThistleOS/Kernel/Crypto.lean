import ThistleOS.BlockChain
import ThistleOS.Bytes
import ThistleOS.EspErr

/-!
# AES-256 in CBC mode

The kernel's functions that encrypt and decrypt whole blocks in place of the output, in software unless a driver
does it. What a driver is for is the same mode.
-/

open ThistleOS.BlockChain

namespace ThistleOS.Crypto

/-! ### The software -/

/-- The block cipher, whose two directions undo each other. -/
structure Aes256 where
  encryptBlock : Arr 32 → Arr 16 → Arr 16
  decryptBlock : Arr 32 → Arr 16 → Arr 16
  decrypt_encrypt : ∀ key block, decryptBlock key (encryptBlock key block) = block
  encrypt_decrypt : ∀ key block, encryptBlock key (decryptBlock key block) = block

def xorBlock (a b : Arr 16) : Arr 16 := fun j => a j ^^^ b j

/-- The offsets of the blocks of `len` bytes. -/
def offsets (len : ℕ) : List ℕ := (List.range ((len + 15) / 16)).map (16 * ·)

/-- One round at offset `i`, with the previous block of ciphertext and the output so far. -/
def encryptStep (encryptBlock : Arr 16 → Arr 16) (pt : List UInt8) (s : Arr 16 × List UInt8) (i : ℕ) :
    Arr 16 × List UInt8 :=
  let ga := encryptBlock fun j => pt.getD (i + j) 0 ^^^ s.1 j
  let ct := copyInto i ga.bytes s.2
  (.ofSlice (ct.drop i), ct)

def decryptStep (decryptBlock : Arr 16 → Arr 16) (ct : List UInt8) (s : Arr 16 × List UInt8) (i : ℕ) :
    Arr 16 × List UInt8 :=
  let ga := decryptBlock (.ofSlice (ct.drop i))
  (.ofSlice (ct.drop i), copyInto i (Arr.bytes fun j => ga j ^^^ s.1 j) s.2)

def swAes256CbcEncrypt (aes : Aes256) (key : Arr 32) (iv : Arr 16) (pt ct : List UInt8) : List UInt8 :=
  ((offsets pt.length).foldl (encryptStep (aes.encryptBlock key) pt) (iv, ct)).2

def swAes256CbcDecrypt (aes : Aes256) (key : Arr 32) (iv : Arr 16) (ct pt : List UInt8) : List UInt8 :=
  ((offsets ct.length).foldl (decryptStep (aes.decryptBlock key) ct) (iv, pt)).2

/-! ### The exported functions -/

/-- A driver's function, with the input and the output before it. -/
abbrev CbcFn := Arr 32 → Arr 16 → List UInt8 → List UInt8 → EspErr × List UInt8

/-- The functions of a driver, which may be missing. -/
structure HalCryptoDriver where
  aes256CbcEncrypt : Option CbcFn
  aes256CbcDecrypt : Option CbcFn

/-- The input and the output have at least `len` bytes; a null pointer is none. -/
def cbcCall (hardware : Option CbcFn) (software : Arr 32 → Arr 16 → List UInt8 → List UInt8 → List UInt8)
    (key : Option (Arr 32)) (iv : Option (Arr 16)) (input : Option (List UInt8)) (len : ℕ)
    (out : Option (List UInt8)) : EspErr × Option (List UInt8) :=
  match key, iv, input, out with
  | some key, some iv, some input, some slice =>
    if len = 0 ∨ len % 16 ≠ 0 then (espErrInvalidSize, some slice)
    else
      match hardware with
      | some f =>
        let (reply, written) := f key iv (input.take len) (slice.take len)
        (reply, some (written ++ slice.drop len))
      | none => (espOk, some (software key iv (input.take len) (slice.take len) ++ slice.drop len))
  | _, _, _, out => (espErrInvalidArg, out)

def thistleCryptoAes256CbcEncrypt (aes : Aes256) (hw : Option HalCryptoDriver) :=
  cbcCall (hw.bind (·.aes256CbcEncrypt)) (swAes256CbcEncrypt aes)

def thistleCryptoAes256CbcDecrypt (aes : Aes256) (hw : Option HalCryptoDriver) :=
  cbcCall (hw.bind (·.aes256CbcDecrypt)) (swAes256CbcDecrypt aes)

/-! ### Blocks -/

def fromBlocks (bs : List (Arr 16)) : List UInt8 := bs.flatMap Arr.bytes

/-- The bytes of block `k`. -/
def blockAt (k : ℕ) (bytes : List UInt8) : List UInt8 := (bytes.drop (16 * k)).take 16

section

variable {bs bs' : List (Arr 16)} {k n : ℕ}

lemma fromBlocks_cons (b : Arr 16) (bs : List (Arr 16)) : fromBlocks (b :: bs) = b.bytes ++ fromBlocks bs :=
  List.flatMap_cons

lemma fromBlocks_append (bs bs' : List (Arr 16)) : fromBlocks (bs ++ bs') = fromBlocks bs ++ fromBlocks bs' :=
  List.flatMap_append

@[simp] lemma length_fromBlocks (bs : List (Arr 16)) : (fromBlocks bs).length = 16 * bs.length := by
  induction bs with
  | nil => rfl
  | cons b bs ih => rw [fromBlocks_cons, List.length_append, Arr.length_bytes, ih, List.length_cons]; omega

lemma bytes_injective : Function.Injective (Arr.bytes : Arr 16 → List UInt8) := fun _ _ h => List.ofFn_injective h

lemma fromBlocks_injective : Function.Injective fromBlocks := by
  intro bs bs' h
  have hlength : bs.length = bs'.length := by
    have := congrArg List.length h
    rw [length_fromBlocks, length_fromBlocks] at this
    omega
  induction bs generalizing bs' with
  | nil => exact (List.eq_nil_of_length_eq_zero hlength.symm).symm
  | cons b bs ih =>
    match bs' with
    | [] => cases hlength
    | b' :: bs' =>
      rw [fromBlocks_cons, fromBlocks_cons] at h
      obtain ⟨hb, hbs⟩ := List.append_inj h (by rw [Arr.length_bytes, Arr.length_bytes])
      rw [bytes_injective hb, ih hbs (Nat.succ.inj hlength)]

lemma fromBlocks_take (bs : List (Arr 16)) (n : ℕ) : fromBlocks (bs.take n) = (fromBlocks bs).take (16 * n) := by
  induction bs generalizing n with
  | nil => simp [fromBlocks]
  | cons b bs ih =>
    cases n with
    | zero => rfl
    | succ n =>
      have hlength : b.bytes.length ≤ 16 * (n + 1) := by rw [Arr.length_bytes]; omega
      have hrest : 16 * (n + 1) - b.bytes.length = 16 * n := by rw [Arr.length_bytes]; omega
      rw [List.take_succ_cons, fromBlocks_cons, fromBlocks_cons, ih, List.take_append, List.take_of_length_le hlength,
        hrest]

lemma blockAt_fromBlocks (bs : List (Arr 16)) (k : ℕ) :
    blockAt k (fromBlocks bs) = (bs[k]?).elim [] Arr.bytes := by
  induction bs generalizing k with
  | nil => simp [fromBlocks, blockAt]
  | cons b bs ih =>
    have hlength : b.bytes.length = 16 := Arr.length_bytes b
    cases k with
    | zero =>
      rw [blockAt, fromBlocks_cons, Nat.mul_zero, List.drop_zero, List.take_left' hlength]
      rfl
    | succ k =>
      rw [blockAt, fromBlocks_cons, Nat.mul_succ, Nat.add_comm, ← List.drop_drop, List.drop_left' hlength,
        List.getElem?_cons_succ, ← ih, blockAt]

lemma blockAt_inj (hlength : bs.length = bs'.length) :
    blockAt k (fromBlocks bs) = blockAt k (fromBlocks bs') ↔ bs[k]? = bs'[k]? := by
  rw [blockAt_fromBlocks, blockAt_fromBlocks]
  by_cases hk : k < bs.length
  · rw [List.getElem?_eq_getElem hk, List.getElem?_eq_getElem (hlength ▸ hk)]
    exact ⟨fun h => congrArg some (bytes_injective h), fun h => congrArg Arr.bytes (Option.some.inj h)⟩
  · rw [List.getElem?_eq_none (Nat.le_of_not_lt hk), List.getElem?_eq_none (hlength ▸ Nat.le_of_not_lt hk)]
    exact iff_of_true rfl rfl

/-- Whole blocks. -/
lemma exists_blocks {bytes : List UInt8} (h : bytes.length = 16 * n) :
    ∃ bs, bs.length = n ∧ bytes = fromBlocks bs := by
  induction n generalizing bytes with
  | zero => exact ⟨[], rfl, List.eq_nil_of_length_eq_zero h⟩
  | succ n ih =>
    obtain ⟨bs, hbs, hrest⟩ := @ih (bytes.drop 16) (by rw [List.length_drop]; omega)
    have hfirst : (Arr.ofSlice (bytes.take 16) : Arr 16).bytes = bytes.take 16 :=
      Arr.bytes_ofSlice (List.length_take_of_le (by omega))
    refine ⟨.ofSlice (bytes.take 16) :: bs, by rw [List.length_cons, hbs], ?_⟩
    rw [fromBlocks_cons, ← hrest, hfirst, List.take_append_drop]

/-! ### The loops are block chaining -/

lemma offsets_blocks (n : ℕ) : offsets (16 * n) = (List.range' 0 n).map (16 * ·) := by
  have h : (16 * n + 15) / 16 = n := by omega
  rw [offsets, h, List.range_eq_range']

lemma ofSlice_drop (pre : List (Arr 16)) (b : Arr 16) (bs : List (Arr 16)) :
    Arr.ofSlice ((fromBlocks (pre ++ b :: bs)).drop (16 * pre.length)) = b := by
  rw [fromBlocks_append, fromBlocks_cons, List.drop_left' (length_fromBlocks pre), Arr.ofSlice_append]

lemma fromBlocks_concat (done : List (Arr 16)) (b : Arr 16) :
    fromBlocks (done ++ [b]) = fromBlocks done ++ b.bytes := by
  rw [fromBlocks_append, fromBlocks_cons]
  exact congrArg _ (List.append_nil _)

/-- The rounds from a block on, after the blocks of `done`. -/
lemma foldl_encryptStep (enc : Arr 16 → Arr 16) (pre bs done : List (Arr 16)) (hdone : done.length = pre.length)
    (prev : Arr 16) (slice : List UInt8) :
    ((List.range' pre.length bs.length).map (16 * ·)).foldl (encryptStep enc (fromBlocks (pre ++ bs)))
        (prev, fromBlocks done ++ slice.drop (fromBlocks done).length) =
      (last enc xorBlock prev bs, fromBlocks (done ++ chain enc xorBlock prev bs) ++
        slice.drop (fromBlocks (done ++ chain enc xorBlock prev bs)).length) := by
  induction bs generalizing pre done prev with
  | nil => simp [last, chain]
  | cons b bs ih =>
    have hoffset : 16 * pre.length = (fromBlocks done).length := by rw [length_fromBlocks, hdone]
    have hblock : (fun j : Fin 16 => (fromBlocks (pre ++ b :: bs)).getD (16 * pre.length + j) 0 ^^^ prev j) =
        xorBlock b prev := by
      funext j
      rw [xorBlock, ← congrFun (ofSlice_drop pre b bs) j, Arr.ofSlice, List.getD_eq_getElem?_getD,
        List.getD_eq_getElem?_getD, List.getElem?_drop]
    have hstep : encryptStep enc (fromBlocks (pre ++ b :: bs))
        (prev, fromBlocks done ++ slice.drop (fromBlocks done).length) (16 * pre.length) =
        (enc (xorBlock b prev), fromBlocks (done ++ [enc (xorBlock b prev)]) ++
          slice.drop (fromBlocks (done ++ [enc (xorBlock b prev)])).length) := by
      rw [encryptStep, hblock, hoffset, copyInto_append, fromBlocks_concat, List.append_assoc, List.drop_left,
        Arr.ofSlice_append]
    have hnext := ih (pre ++ [b]) (done ++ [enc (xorBlock b prev)]) (by simp [hdone]) (enc (xorBlock b prev))
    rw [List.length_append, List.length_singleton, List.append_assoc, List.append_assoc, List.singleton_append,
      List.singleton_append] at hnext
    rw [List.length_cons, List.range'_succ, List.map_cons, List.foldl_cons, hstep, hnext, chain, last_cons]

lemma foldl_decryptStep (dec : Arr 16 → Arr 16) (pre cs done : List (Arr 16)) (hdone : done.length = pre.length)
    (prev : Arr 16) (slice : List UInt8) :
    (((List.range' pre.length cs.length).map (16 * ·)).foldl (decryptStep dec (fromBlocks (pre ++ cs)))
        (prev, fromBlocks done ++ slice.drop (fromBlocks done).length)).2 =
      fromBlocks (done ++ unchain dec xorBlock prev cs) ++
        slice.drop (fromBlocks (done ++ unchain dec xorBlock prev cs)).length := by
  induction cs generalizing pre done prev with
  | nil => simp [unchain]
  | cons c cs ih =>
    have hoffset : 16 * pre.length = (fromBlocks done).length := by rw [length_fromBlocks, hdone]
    have hstep : decryptStep dec (fromBlocks (pre ++ c :: cs))
        (prev, fromBlocks done ++ slice.drop (fromBlocks done).length) (16 * pre.length) =
        (c, fromBlocks (done ++ [xorBlock (dec c) prev]) ++
          slice.drop (fromBlocks (done ++ [xorBlock (dec c) prev])).length) := by
      rw [decryptStep, ofSlice_drop, hoffset, copyInto_append, fromBlocks_concat]
      rfl
    have hnext := ih (pre ++ [c]) (done ++ [xorBlock (dec c) prev]) (by simp [hdone]) c
    rw [List.length_append, List.length_singleton, List.append_assoc, List.append_assoc, List.singleton_append,
      List.singleton_append] at hnext
    rw [List.length_cons, List.range'_succ, List.map_cons, List.foldl_cons, hstep, hnext, unchain]

lemma swAes256CbcEncrypt_eq (aes : Aes256) (key : Arr 32) (iv : Arr 16) (bs : List (Arr 16)) {ct : List UInt8}
    (hct : ct.length = 16 * bs.length) :
    swAes256CbcEncrypt aes key iv (fromBlocks bs) ct =
      fromBlocks (chain (aes.encryptBlock key) xorBlock iv bs) := by
  have hloop := foldl_encryptStep (aes.encryptBlock key) [] bs [] rfl iv ct
  rw [List.nil_append, List.nil_append] at hloop
  rw [swAes256CbcEncrypt, length_fromBlocks, offsets_blocks]
  refine (congrArg Prod.snd hloop).trans ?_
  rw [List.drop_eq_nil_of_le (by rw [length_fromBlocks, length_chain]; exact Nat.le_of_eq hct), List.append_nil]

lemma swAes256CbcDecrypt_eq (aes : Aes256) (key : Arr 32) (iv : Arr 16) (cs : List (Arr 16)) {pt : List UInt8}
    (hpt : pt.length = 16 * cs.length) :
    swAes256CbcDecrypt aes key iv (fromBlocks cs) pt =
      fromBlocks (unchain (aes.decryptBlock key) xorBlock iv cs) := by
  have hloop := foldl_decryptStep (aes.decryptBlock key) [] cs [] rfl iv pt
  rw [List.nil_append, List.nil_append] at hloop
  rw [swAes256CbcDecrypt, length_fromBlocks, offsets_blocks]
  refine hloop.trans ?_
  rw [List.drop_eq_nil_of_le (by rw [length_fromBlocks, length_unchain]; exact Nat.le_of_eq hpt), List.append_nil]

/-! ### The exported functions -/

/-- A driver's functions do the same mode. -/
structure HalCryptoDriver.Conforms (aes : Aes256) (d : HalCryptoDriver) : Prop where
  encrypt : ∀ f ∈ d.aes256CbcEncrypt, ∀ key iv bs slice, f key iv (fromBlocks bs) slice =
    (espOk, fromBlocks (chain (aes.encryptBlock key) xorBlock iv bs))
  decrypt : ∀ f ∈ d.aes256CbcDecrypt, ∀ key iv cs slice, f key iv (fromBlocks cs) slice =
    (espOk, fromBlocks (unchain (aes.decryptBlock key) xorBlock iv cs))

variable {aes : Aes256} {hw : Option HalCryptoDriver} {key : Arr 32} {iv : Arr 16}

lemma xorBlock_xorBlock (a b : Arr 16) : xorBlock (xorBlock a b) b = a := by
  funext j
  rw [xorBlock, xorBlock, UInt8.xor_assoc, UInt8.xor_self, UInt8.xor_zero]

lemma xorBlock_comm (a b : Arr 16) : xorBlock a b = xorBlock b a := funext fun _ => UInt8.xor_comm _ _

lemma xorBlock_injective_left (b : Arr 16) : Function.Injective fun a => xorBlock a b :=
  Function.LeftInverse.injective (g := fun a => xorBlock a b) fun a => xorBlock_xorBlock a b

lemma xorBlock_injective (b : Arr 16) : Function.Injective (xorBlock b) := by
  intro a a' h
  rw [xorBlock_comm b, xorBlock_comm b] at h
  exact xorBlock_injective_left b h

lemma encryptBlock_injective (aes : Aes256) (key : Arr 32) : Function.Injective (aes.encryptBlock key) :=
  Function.LeftInverse.injective (aes.decrypt_encrypt key)

/-- What a call that writes `written` for blocks `bs` comes to. -/
lemma cbcCall_blocks {hardware : Option CbcFn} {software : Arr 32 → Arr 16 → List UInt8 → List UInt8 → List UInt8}
    {bs : List (Arr 16)} {written slice : List UInt8} (hbs : bs ≠ []) (hslice : slice.length = 16 * bs.length)
    (hhw : ∀ f ∈ hardware, f key iv (fromBlocks bs) slice = (espOk, written))
    (hsw : software key iv (fromBlocks bs) slice = written) :
    cbcCall hardware software (some key) (some iv) (some (fromBlocks bs)) (16 * bs.length) (some slice) =
      (espOk, some written) := by
  have hpos : 0 < bs.length := List.length_pos_iff.mpr hbs
  have hlen : ¬ (16 * bs.length = 0 ∨ 16 * bs.length % 16 ≠ 0) := by omega
  simp only [cbcCall, if_neg hlen, List.take_of_length_le (Nat.le_of_eq (length_fromBlocks bs)),
    List.take_of_length_le (Nat.le_of_eq hslice), List.drop_eq_nil_of_le (Nat.le_of_eq hslice), List.append_nil]
  cases hardware with
  | none => simp only [hsw]
  | some f => simp only [hhw f rfl]

lemma encrypt_blocks (hhw : ∀ d ∈ hw, d.Conforms aes) {bs : List (Arr 16)} (hbs : bs ≠ []) {slice : List UInt8}
    (hslice : slice.length = 16 * bs.length) :
    thistleCryptoAes256CbcEncrypt aes hw (some key) (some iv) (some (fromBlocks bs)) (16 * bs.length) (some slice) =
      (espOk, some (fromBlocks (chain (aes.encryptBlock key) xorBlock iv bs))) := by
  refine cbcCall_blocks hbs hslice (fun f hf => ?_) (swAes256CbcEncrypt_eq aes key iv bs hslice)
  obtain ⟨d, hd, hf⟩ := Option.bind_eq_some_iff.mp hf
  exact (hhw d hd).encrypt f hf key iv bs slice

lemma decrypt_blocks (hhw : ∀ d ∈ hw, d.Conforms aes) {cs : List (Arr 16)} (hcs : cs ≠ []) {slice : List UInt8}
    (hslice : slice.length = 16 * cs.length) :
    thistleCryptoAes256CbcDecrypt aes hw (some key) (some iv) (some (fromBlocks cs)) (16 * cs.length) (some slice) =
      (espOk, some (fromBlocks (unchain (aes.decryptBlock key) xorBlock iv cs))) := by
  refine cbcCall_blocks hcs hslice (fun f hf => ?_) (swAes256CbcDecrypt_eq aes key iv cs hslice)
  obtain ⟨d, hd, hf⟩ := Option.bind_eq_some_iff.mp hf
  exact (hhw d hd).decrypt f hf key iv cs slice

/-- An input that a call takes is encrypted to `ct`, whatever the output held before. -/
def Encrypts (aes : Aes256) (hw : Option HalCryptoDriver) (key : Arr 32) (iv : Arr 16) (pt ct : List UInt8) : Prop :=
  ∀ slice : List UInt8, slice.length = pt.length →
    thistleCryptoAes256CbcEncrypt aes hw (some key) (some iv) (some pt) pt.length (some slice) = (espOk, some ct)

def Decrypts (aes : Aes256) (hw : Option HalCryptoDriver) (key : Arr 32) (iv : Arr 16) (ct pt : List UInt8) : Prop :=
  ∀ slice : List UInt8, slice.length = ct.length →
    thistleCryptoAes256CbcDecrypt aes hw (some key) (some iv) (some ct) ct.length (some slice) = (espOk, some pt)

def Whole (bytes : List UInt8) : Prop := 0 < bytes.length ∧ bytes.length % 16 = 0

/-- A length that is not one of whole blocks is refused. -/
structure Refuses (f : Option (Arr 32) → Option (Arr 16) → Option (List UInt8) → ℕ → Option (List UInt8) →
    EspErr × Option (List UInt8)) : Prop where
  length : ∀ key iv input len slice, len = 0 ∨ len % 16 ≠ 0 →
    f (some key) (some iv) (some input) len (some slice) = (espErrInvalidSize, some slice)
  null : ∀ key iv input len out, key = none ∨ iv = none ∨ input = none ∨ out = none →
    f key iv input len out = (espErrInvalidArg, out)

/-- A block of ciphertext is made of the blocks of plaintext up to it, and changes with each of them and with the
initialisation vector. -/
structure Depends (aes : Aes256) (hw : Option HalCryptoDriver) (key : Arr 32) : Prop where
  upTo : ∀ iv pt pt' ct ct' k, Whole pt → Whole pt' → Encrypts aes hw key iv pt ct → Encrypts aes hw key iv pt' ct' →
    pt.take (16 * (k + 1)) = pt'.take (16 * (k + 1)) → blockAt k ct = blockAt k ct'
  onIv : ∀ iv iv' pt ct ct' k, Whole pt → Encrypts aes hw key iv pt ct → Encrypts aes hw key iv' pt ct' →
    iv ≠ iv' → 16 * k < pt.length → blockAt k ct ≠ blockAt k ct'
  onBlock : ∀ iv pt pt' ct ct' j k, Whole pt → pt'.length = pt.length → Encrypts aes hw key iv pt ct →
    Encrypts aes hw key iv pt' ct' → (∀ i, blockAt i pt = blockAt i pt' ↔ i ≠ j) → j ≤ k → 16 * k < pt.length →
    blockAt k ct ≠ blockAt k ct'

lemma Whole.blocks {bytes : List UInt8} (h : Whole bytes) : ∃ bs, bs ≠ [] ∧ bytes = fromBlocks bs := by
  obtain ⟨hpos, hmod⟩ := h
  obtain ⟨bs, hbs, rfl⟩ := @exists_blocks (bytes.length / 16) bytes (by omega)
  refine ⟨bs, ?_, rfl⟩
  rintro rfl
  exact absurd hpos (Nat.lt_irrefl 0)

lemma encrypts_iff (hhw : ∀ d ∈ hw, d.Conforms aes) {bs : List (Arr 16)} (hbs : bs ≠ []) {ct : List UInt8} :
    Encrypts aes hw key iv (fromBlocks bs) ct ↔ ct = fromBlocks (chain (aes.encryptBlock key) xorBlock iv bs) := by
  have hcall : Encrypts aes hw key iv (fromBlocks bs) (fromBlocks (chain (aes.encryptBlock key) xorBlock iv bs)) := by
    intro slice hslice
    rw [length_fromBlocks] at hslice ⊢
    exact encrypt_blocks hhw hbs hslice
  constructor
  · intro h
    have heq := (h (fromBlocks bs) rfl).symm.trans (hcall (fromBlocks bs) rfl)
    exact Option.some.inj (congrArg Prod.snd heq)
  · rintro rfl
    exact hcall

lemma depends (hhw : ∀ d ∈ hw, d.Conforms aes) (key : Arr 32) : Depends aes hw key where
  upTo := by
    intro iv pt pt' ct ct' k hpt hpt' hct hct' htake
    obtain ⟨bs, hbs, rfl⟩ := hpt.blocks
    obtain ⟨bs', hbs', rfl⟩ := hpt'.blocks
    obtain rfl := (encrypts_iff hhw hbs).mp hct
    obtain rfl := (encrypts_iff hhw hbs').mp hct'
    rw [← fromBlocks_take, ← fromBlocks_take] at htake
    have hchain := congrArg (chain (aes.encryptBlock key) xorBlock iv) (fromBlocks_injective htake)
    rw [← chain_take, ← chain_take] at hchain
    have hblock := congrArg (·[k]?) hchain
    simp only [List.getElem?_take_of_lt (Nat.lt_succ_self k)] at hblock
    rw [blockAt_fromBlocks, blockAt_fromBlocks, hblock]
  onIv := by
    intro iv iv' pt ct ct' k hpt hct hct' hne hk heq
    obtain ⟨bs, hbs, rfl⟩ := hpt.blocks
    obtain rfl := (encrypts_iff hhw hbs).mp hct
    obtain rfl := (encrypts_iff hhw hbs).mp hct'
    rw [length_fromBlocks] at hk
    have hk' : k < bs.length := by omega
    rw [blockAt_inj (by rw [length_chain, length_chain])] at heq
    exact hne (prev_eq_of_getElem? (encryptBlock_injective aes key) xorBlock_injective hk' heq)
  onBlock := by
    intro iv pt pt' ct ct' j k hpt hlength hct hct' hdiffer hjk hk heq
    have hpt' : Whole pt' := by
      rw [Whole, hlength]
      exact hpt
    obtain ⟨bs, hbs, rfl⟩ := hpt.blocks
    obtain ⟨bs', hbs', rfl⟩ := hpt'.blocks
    obtain rfl := (encrypts_iff hhw hbs).mp hct
    obtain rfl := (encrypts_iff hhw hbs').mp hct'
    rw [length_fromBlocks, length_fromBlocks] at hlength
    rw [length_fromBlocks] at hk
    have hlength' : bs'.length = bs.length := by omega
    rw [blockAt_inj (by rw [length_chain, length_chain, hlength'])] at heq
    have hj : j < bs.length := by omega
    obtain ⟨pre, a, a', post, hpre, rfl, rfl, hne⟩ := exists_split_of_differ hj hlength' fun i => by
      rw [← hdiffer i, blockAt_inj hlength'.symm]
    exact hne (block_eq_of_getElem? (encryptBlock_injective aes key) xorBlock_injective xorBlock_injective_left
      (hpre ▸ hjk) (by omega) heq)

lemma refuses (hardware : Option CbcFn) (software : Arr 32 → Arr 16 → List UInt8 → List UInt8 → List UInt8) :
    Refuses (cbcCall hardware software) where
  length key iv input len slice hlen := by simp only [cbcCall, if_pos hlen]
  null key iv input len out h := by
    rw [cbcCall.eq_def]
    split
    · simp at h
    · rfl

/-- Decryption undoes encryption, a block of ciphertext depends on the initialisation vector and the blocks of
plaintext up to it, and an input that is not of whole blocks is refused. -/
theorem cbc_decrypts (aes : Aes256) (hw : Option HalCryptoDriver) (hhw : ∀ d ∈ hw, d.Conforms aes) (key : Arr 32) :
    (∀ iv pt, Whole pt → ∃ ct, ct.length = pt.length ∧ Encrypts aes hw key iv pt ct ∧ Decrypts aes hw key iv ct pt) ∧
      Depends aes hw key ∧ Refuses (thistleCryptoAes256CbcEncrypt aes hw) ∧
      Refuses (thistleCryptoAes256CbcDecrypt aes hw) := by
  refine ⟨fun iv pt hpt => ?_, depends hhw key, refuses _ _, refuses _ _⟩
  obtain ⟨bs, hbs, rfl⟩ := hpt.blocks
  have hcs : chain (aes.encryptBlock key) xorBlock iv bs ≠ [] := by
    rw [← List.length_pos_iff, length_chain]
    exact List.length_pos_iff.mpr hbs
  refine ⟨_, by rw [length_fromBlocks, length_fromBlocks, length_chain], (encrypts_iff hhw hbs).mpr rfl, ?_⟩
  intro slice hslice
  rw [length_fromBlocks] at hslice ⊢
  have hundo := unchain_chain (aes.decrypt_encrypt key) xorBlock_xorBlock iv bs
  exact (decrypt_blocks hhw hcs hslice).trans (by rw [hundo])

/-- A cipher that xors a block with the first half of the key. -/
def xorAes : Aes256 where
  encryptBlock key block := xorBlock block fun j => key (j.castLE (by decide))
  decryptBlock key block := xorBlock block fun j => key (j.castLE (by decide))
  decrypt_encrypt key block := xorBlock_xorBlock block _
  encrypt_decrypt key block := xorBlock_xorBlock block _

/-- A driver that can only encrypt. -/
def xorDriver : HalCryptoDriver where
  aes256CbcEncrypt := some fun key iv pt _ => (espOk, swAes256CbcEncrypt xorAes key iv pt pt)
  aes256CbcDecrypt := none

lemma conforms_xorDriver : xorDriver.Conforms xorAes where
  encrypt f hf key iv bs slice := by
    obtain rfl := Option.some.inj hf
    exact congrArg _ (swAes256CbcEncrypt_eq xorAes key iv bs (length_fromBlocks bs))
  decrypt f hf := by cases hf

theorem cbc_decrypts_xorDriver : ∃ ct, ct.length = 16 ∧
    Encrypts xorAes (some xorDriver) .zero .zero (List.replicate 16 1) ct ∧
    Decrypts xorAes (some xorDriver) .zero .zero ct (List.replicate 16 1) :=
  (cbc_decrypts xorAes (some xorDriver) (fun _ hd => Option.some.inj hd ▸ conforms_xorDriver) .zero).1 .zero
    (List.replicate 16 1) ⟨by decide, by decide⟩

end

end ThistleOS.Crypto
