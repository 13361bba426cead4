import ThistleOS.Bytes
import ThistleOS.Component
import ThistleOS.Recovery.ArtifactManifest

/-!
# Authorization of Recovery's requests

A session accepts the requests that carry its token and a nonce greater than that of every request it
has accepted, until it expires.
-/

namespace ThistleOS.Auth

inductive AuthFailure
  | unauthorized
  | replay
  | expired
  deriving DecidableEq

structure RecoverySession where
  token : String
  expiresAtMs : UInt64
  lastNonce : UInt64
  active : Bool
  deriving DecidableEq

def saturatingAdd (a b : UInt64) : UInt64 := UInt64.ofNat (min (a.toNat + b.toNat) 0xFFFFFFFFFFFFFFFF)

/-- The bytes of `supplied` are xored with those of `expected`, and where it is shorter with zero. -/
def constantTimeEq (expected supplied : List UInt8) : Bool :=
  expected.zipIdx.foldl (fun difference p => difference ||| (p.1 ^^^ supplied.getD p.2 0).toNat)
    (expected.length ^^^ supplied.length) == 0

def parseNonce (suppliedNonce : Option String) : Option UInt64 :=
  ((suppliedNonce.bind (ArtifactManifest.parseDecimal 0x10000000000000000)).map UInt64.ofNat).filter
    (0 < ·)

namespace RecoverySession

def new (token : String) (nowMs ttlMs : UInt64) : RecoverySession :=
  ⟨token, saturatingAdd nowMs ttlMs, 0, true⟩

def expire (session : RecoverySession) : RecoverySession :=
  { session with active := false, token := "" }

def authorize (suppliedToken suppliedNonce : Option String) (nowMs : UInt64)
    (session : RecoverySession) : Except AuthFailure Unit × RecoverySession :=
  if !session.active || session.expiresAtMs ≤ nowMs then (.error .expired, session.expire)
  else
    match suppliedToken with
    | none => (.error .unauthorized, session)
    | some token =>
      if !constantTimeEq (utf8 session.token) (utf8 token) then (.error .unauthorized, session)
      else
        match parseNonce suppliedNonce with
        | none => (.error .unauthorized, session)
        | some nonce =>
          if nonce ≤ session.lastNonce then (.error .replay, session)
          else (.ok (), { session with lastNonce := nonce })

def nextNonce (session : RecoverySession) : UInt64 := saturatingAdd session.lastNonce 1

end RecoverySession

/-! ### Runs -/

inductive AuthOp
  | authorize (suppliedToken suppliedNonce : Option String) (nowMs : UInt64)
  | expire

def AuthOp.Reply : AuthOp → Type
  | .authorize _ _ _ => Except AuthFailure Unit
  | .expire => Unit

def recoverySession : Component AuthOp AuthOp.Reply RecoverySession where
  step
    | .authorize token nonce nowMs, session => session.authorize token nonce nowMs
    | .expire, session => ((), session.expire)

/-- The nonces of the accepted requests, and whether the session has been closed or has been called at
a time at which it was over. -/
structure History where
  accepted : List UInt64
  expired : Bool

def record (expiresAtMs : UInt64) : (o : AuthOp) → o.Reply → History → History
  | .authorize _ nonce nowMs, .ok _, h =>
    ⟨h.accepted ++ (parseNonce nonce).toList, h.expired || decide (expiresAtMs ≤ nowMs)⟩
  | .authorize _ _ nowMs, .error _, h => ⟨h.accepted, h.expired || decide (expiresAtMs ≤ nowMs)⟩
  | .expire, _, h => ⟨h.accepted, true⟩

def watched (expiresAtMs : UInt64) := recoverySession.watch (record expiresAtMs)

/-- What is accepted comes before the end of the session, carries its token and has a nonce. What is
rejected leaves the nonces as they are. -/
def Sound (token : String) (expiresAtMs : UInt64) : AuthOp → RecoverySession × History → Prop
  | .authorize suppliedToken suppliedNonce nowMs, w =>
    ((w.1.authorize suppliedToken suppliedNonce nowMs).1 = .ok () →
      w.2.expired = false ∧ nowMs < expiresAtMs ∧ (parseNonce suppliedNonce).isSome ∧
        ∃ supplied, suppliedToken = some supplied ∧ utf8 supplied = utf8 token) ∧
    ∀ e, (w.1.authorize suppliedToken suppliedNonce nowMs).1 = .error e →
      (w.1.authorize suppliedToken suppliedNonce nowMs).2.lastNonce = w.1.lastNonce
  | .expire, w => w.1.expire.lastNonce = w.1.lastNonce

/-! ### The comparison -/

lemma nat_xor_eq_zero {a b : Nat} : a ^^^ b = 0 ↔ a = b := by
  constructor
  · intro h
    calc a = a ^^^ (b ^^^ b) := by rw [Nat.xor_self, Nat.xor_zero]
      _ = a ^^^ b ^^^ b := (Nat.xor_assoc a b b).symm
      _ = b := by rw [h, Nat.zero_xor]
  · rintro rfl
    exact Nat.xor_self a

lemma xor_toNat_eq_zero {a b : UInt8} : (a ^^^ b).toNat = 0 ↔ a = b := by
  rw [← UInt8.toNat_zero, UInt8.toNat_inj, UInt8.xor_eq_zero_iff]

/-- The comparison in constant time is equality of the slices. -/
lemma constantTimeEq_iff {expected supplied : List UInt8} :
    constantTimeEq expected supplied = true ↔ expected = supplied := by
  have hor : ∀ a b : Nat, a ||| b = 0 ↔ a = 0 ∧ b = 0 := fun a b => Nat.or_eq_zero_iff
  rw [constantTimeEq, beq_iff_eq, foldl_or_eq_zero hor, nat_xor_eq_zero]
  constructor
  · rintro ⟨hlen, hbytes⟩
    refine List.ext_getElem hlen fun i hi hi' => ?_
    have hbyte := hbytes (expected[i], i) (List.mk_mem_zipIdx_iff_getElem?.mpr (by simp [hi]))
    rw [xor_toNat_eq_zero] at hbyte
    simpa [List.getD_eq_getElem?_getD, hi'] using hbyte
  · rintro rfl
    refine ⟨rfl, fun p hp => ?_⟩
    rw [xor_toNat_eq_zero, List.getD_eq_getElem?_getD, List.mem_zipIdx_iff_getElem?.mp hp]
    rfl

/-! ### One call -/

variable {token nonce : Option String} {nowMs expiresAtMs : UInt64} {session : RecoverySession}
  {w : RecoverySession × History} {sessionToken : String}

/-- What a request does. -/
lemma authorize_cases (token nonce : Option String) (nowMs : UInt64) (session : RecoverySession) :
    ((session.active = false ∨ session.expiresAtMs ≤ nowMs) ∧
      session.authorize token nonce nowMs = (.error .expired, session.expire)) ∨
    (session.active = true ∧ nowMs < session.expiresAtMs ∧
      ((∃ e, session.authorize token nonce nowMs = (.error e, session)) ∨
        ∃ supplied n, token = some supplied ∧ utf8 session.token = utf8 supplied ∧
          parseNonce nonce = some n ∧ session.lastNonce < n ∧
          session.authorize token nonce nowMs = (.ok (), { session with lastNonce := n }))) := by
  unfold RecoverySession.authorize
  split_ifs with hover
  · exact .inl ⟨by simpa using hover, rfl⟩
  · simp only [Bool.or_eq_true, Bool.not_eq_true', decide_eq_true_eq, not_or, Bool.not_eq_false] at hover
    refine .inr ⟨hover.1, UInt64.not_le.mp hover.2, ?_⟩
    cases token with
    | none => exact .inl ⟨_, rfl⟩
    | some supplied =>
      dsimp only
      split_ifs with htoken
      · exact .inl ⟨_, rfl⟩
      · simp only [Bool.not_eq_true', Bool.not_eq_false] at htoken
        cases hnonce : parseNonce nonce with
        | none => exact .inl ⟨_, rfl⟩
        | some n =>
          dsimp only
          split_ifs with hreplay
          · exact .inl ⟨_, rfl⟩
          · exact .inr ⟨supplied, n, rfl, constantTimeEq_iff.mp htoken, rfl,
              UInt64.not_le.mp hreplay, rfl⟩

/-! ### The invariant -/

/-- The accepted nonces increase up to the last one. The session stays closed after it has been over. -/
structure Guarded (sessionToken : String) (expiresAtMs : UInt64) (w : RecoverySession × History) :
    Prop where
  increasing : w.2.accepted.Pairwise (· < ·)
  last : ∀ n ∈ w.2.accepted, n ≤ w.1.lastNonce
  expiry : w.1.expiresAtMs = expiresAtMs
  token : w.1.active = true → w.1.token = sessionToken
  closed : w.2.expired = true → w.1.active = false

lemma Guarded.expire (h : Guarded sessionToken expiresAtMs w) :
    Guarded sessionToken expiresAtMs (w.1.expire, ⟨w.2.accepted, true⟩) :=
  ⟨h.increasing, h.last, h.expiry, fun hactive => absurd hactive Bool.false_ne_true, fun _ => rfl⟩

lemma Guarded.step (h : Guarded sessionToken expiresAtMs w) (o : AuthOp) :
    Guarded sessionToken expiresAtMs ((watched expiresAtMs).next o w) := by
  cases o with
  | expire => exact h.expire
  | authorize token nonce nowMs =>
    change Guarded sessionToken expiresAtMs ((w.1.authorize token nonce nowMs).2,
      record expiresAtMs (.authorize token nonce nowMs) (w.1.authorize token nonce nowMs).1 w.2)
    rcases authorize_cases token nonce nowMs w.1 with
      ⟨-, heq⟩ | ⟨hactive, hnow, ⟨e, heq⟩ | ⟨supplied, n, -, -, hnonce, hlast, heq⟩⟩
    · rw [heq]
      exact ⟨h.increasing, h.last, h.expiry, h.expire.token, fun _ => rfl⟩
    · rw [heq]
      refine ⟨h.increasing, h.last, h.expiry, h.token, fun hexpired => h.closed ?_⟩
      rw [h.expiry] at hnow
      simpa [record, UInt64.not_le.mpr hnow] using hexpired
    · rw [heq]
      have haccepted : (record expiresAtMs (.authorize token nonce nowMs) (.ok ()) w.2).accepted =
          w.2.accepted ++ [n] := by simp [record, hnonce]
      refine ⟨?_, ?_, h.expiry, h.token, fun hexpired => h.closed ?_⟩
      · rw [haccepted, List.pairwise_append]
        refine ⟨h.increasing, List.pairwise_singleton _ _, fun m hm n' hn' => ?_⟩
        rw [List.mem_singleton.mp hn']
        exact UInt64.lt_of_le_of_lt (h.last m hm) hlast
      · intro m hm
        rw [haccepted] at hm
        rcases List.mem_append.mp hm with hm | hm
        · exact UInt64.le_of_lt (UInt64.lt_of_le_of_lt (h.last m hm) hlast)
        · rw [List.mem_singleton.mp hm]
          exact UInt64.le_refl n
      · rw [h.expiry] at hnow
        simpa [record, UInt64.not_le.mpr hnow] using hexpired

lemma Guarded.sound (h : Guarded sessionToken expiresAtMs w) (o : AuthOp) :
    Sound sessionToken expiresAtMs o w := by
  cases o with
  | expire => rfl
  | authorize token nonce nowMs =>
    rcases authorize_cases token nonce nowMs w.1 with
      ⟨-, heq⟩ | ⟨hactive, hnow, ⟨e, heq⟩ | ⟨supplied, n, htoken, hbytes, hnonce, -, heq⟩⟩
    · refine ⟨fun hok => ?_, fun _ _ => ?_⟩
      · rw [heq] at hok
        cases hok
      · rw [heq]
        rfl
    · refine ⟨fun hok => ?_, fun _ _ => ?_⟩
      · rw [heq] at hok
        cases hok
      · rw [heq]
    · refine ⟨fun _ => ⟨?_, h.expiry ▸ hnow, ?_, supplied, htoken, ?_⟩, fun e herr => ?_⟩
      · refine Bool.eq_false_iff.mpr fun hexpired => ?_
        rw [h.closed hexpired] at hactive
        cases hactive
      · rw [hnonce]
        rfl
      · rw [← hbytes, h.token hactive]
      · rw [heq] at herr
        cases herr

/-- In every run of a session, whatever the tokens, the nonces and the clock, the accepted nonces
increase strictly, nothing is accepted once the session has been over, what is accepted carries the
token of the session, and what is rejected leaves the nonces as they are. -/
theorem requests_authorized (sessionToken : String) (nowMs ttlMs : UInt64) (ops : List AuthOp) :
    ((watched (saturatingAdd nowMs ttlMs)).run (.new sessionToken nowMs ttlMs, ⟨[], false⟩)
        ops).2.accepted.Pairwise (· < ·) ∧
      (watched (saturatingAdd nowMs ttlMs)).Along (Sound sessionToken (saturatingAdd nowMs ttlMs))
        (.new sessionToken nowMs ttlMs, ⟨[], false⟩) ops := by
  have hstart : Guarded sessionToken (saturatingAdd nowMs ttlMs)
      (.new sessionToken nowMs ttlMs, ⟨[], false⟩) :=
    ⟨List.Pairwise.nil, fun _ hn => absurd hn List.not_mem_nil, rfl, fun _ => rfl, fun h => by cases h⟩
  have hany : (watched (saturatingAdd nowMs ttlMs)).Along (fun _ _ => True)
      (.new sessionToken nowMs ttlMs, ⟨[], false⟩) ops := fun _ _ _ _ => trivial
  obtain ⟨halong, hlast⟩ := Component.along_of_preserved (C := watched (saturatingAdd nowMs ttlMs))
    (I := Guarded sessionToken (saturatingAdd nowMs ttlMs)) (fun o _ hw _ => hw.step o) hstart hany
  exact ⟨hlast.increasing, halong.mono fun o _ hw => hw.1.sound o⟩

end ThistleOS.Auth
