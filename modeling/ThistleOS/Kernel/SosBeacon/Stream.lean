import ThistleOS.CString
import ThistleOS.Kernel.SosBeacon.Codec

/-!
# What a receiver of the beacon hears

The packets that the exported functions hand out make up alarms, one after the other: each counts its packets from zero
on, keeps its status, and ends with the only packet that cancels it.
-/

namespace ThistleOS.Sos

open SosMessage

/-! ### The exported functions -/

def rsSosBeaconActivate (status : UInt8) (msg : Option CStr) (beacon : SosBeacon) : EspErr × SosBeacon :=
  match SosStatus.fromU8 status with
  | none => (espErrInvalidArg, beacon)
  | some sosStatus =>
    match beacon.activate sosStatus (msg.bind CStr.toStr) with
    | (.ok (), beacon) => (espOk, beacon)
    | (.error e, beacon) => (e, beacon)

def rsSosBeaconCancel (beacon : SosBeacon) : EspErr × SosBeacon :=
  match beacon.cancel with
  | (.ok (), beacon) => (espOk, beacon)
  | (.error e, beacon) => (e, beacon)

def rsSosBeaconUpdatePosition (pos : Option HalGpsPosition) (beacon : SosBeacon) : EspErr × SosBeacon :=
  match pos with
  | none => (espErrInvalidArg, beacon)
  | some pos => (espOk, beacon.updatePosition pos)

def rsSosBeaconUpdateBattery (pct : UInt8) (beacon : SosBeacon) : EspErr × SosBeacon :=
  (espOk, beacon.updateBattery pct)

/-- The code, and the packet that is in the buffer then. -/
def rsSosBeaconNextPacket (bufLen : Option ℕ) (beacon : SosBeacon) : Int32 × Option (List UInt8) × SosBeacon :=
  match bufLen with
  | none => (espErrInvalidArg, none, beacon)
  | some bufLen =>
    if bufLen < sosPacketSize then (espErrInvalidArg, none, beacon)
    else
      match beacon.nextPacket with
      | (some packet, beacon) => (Int32.ofNat sosPacketSize, some packet, beacon)
      | (none, beacon) => (0, none, beacon)

/-- The functions that fail leave the beacon as it is, or do what the method does. -/
lemma activate_cases (status : UInt8) (msg : Option CStr) (s : SosBeacon) :
    (rsSosBeaconActivate status msg s).2 = s ∨
      ∃ sosStatus message, (rsSosBeaconActivate status msg s).2 = (s.activate sosStatus message).2 := by
  rw [rsSosBeaconActivate]
  split
  · exact .inl rfl
  · rename_i sosStatus _
    refine .inr ⟨sosStatus, msg.bind CStr.toStr, ?_⟩
    split <;> rename_i heq <;> rw [heq]

lemma cancel_eq (s : SosBeacon) : (rsSosBeaconCancel s).2 = s.cancel.2 := by
  rw [rsSosBeaconCancel]
  split <;> rename_i heq <;> rw [heq]

lemma nextPacket_cases (bufLen : Option ℕ) (s : SosBeacon) :
    (rsSosBeaconNextPacket bufLen s).2 = (none, s) ∨ (rsSosBeaconNextPacket bufLen s).2 = s.nextPacket := by
  unfold rsSosBeaconNextPacket
  split
  · exact .inl rfl
  · split_ifs
    · exact .inl rfl
    · refine .inr ?_
      split <;> rename_i heq <;> rw [heq]

/-! ### A beacon and its receiver -/

inductive Call
  | activate (status : UInt8) (msg : Option CStr)
  | cancel
  | updatePosition (pos : Option HalGpsPosition)
  | updateBattery (pct : UInt8)
  | nextPacket (bufLen : Option ℕ)

/-- A beacon with the packets that have been sent. -/
def radio : Component Call (fun _ => Int32) (SosBeacon × List (List UInt8)) where
  step
    | .activate status msg, w => let r := rsSosBeaconActivate status msg w.1; (r.1, (r.2, w.2))
    | .cancel, w => let r := rsSosBeaconCancel w.1; (r.1, (r.2, w.2))
    | .updatePosition pos, w => let r := rsSosBeaconUpdatePosition pos w.1; (r.1, (r.2, w.2))
    | .updateBattery pct, w => let r := rsSosBeaconUpdateBattery pct w.1; (r.1, (r.2, w.2))
    | .nextPacket bufLen, w =>
      let r := rsSosBeaconNextPacket bufLen w.1
      (r.1, (r.2.2, w.2 ++ r.2.1.toList))

/-- What a packet says about its alarm. -/
structure Header where
  deviceId : Arr 8
  sequence : UInt16
  status : SosStatus
  messageLen : UInt8
  message : Arr sosMessageMax

def SosMessage.header (m : SosMessage) : Header := ⟨m.deviceId, m.sequence, m.status, m.messageLen, m.message⟩

/-- An alarm of a device. Its status is not the one that cancels. -/
structure Alarm where
  deviceId : Arr 8
  status : SosStatus
  messageLen : UInt8
  message : Arr sosMessageMax
  raised : status ≠ .cancel

namespace Alarm

def header (a : Alarm) (status : SosStatus) (i : ℕ) : Header :=
  ⟨a.deviceId, UInt16.ofNat i, status, a.messageLen, a.message⟩

/-- The first packets of an alarm. -/
def headers (a : Alarm) (n : ℕ) : List Header := (List.range n).map (a.header a.status)

/-- The packets of an alarm that has been cancelled. -/
def cancelled (a : Alarm) (n : ℕ) : List Header := a.headers n ++ [a.header .cancel n]

lemma headers_succ (a : Alarm) (n : ℕ) : a.headers (n + 1) = a.headers n ++ [a.header a.status n] := by
  rw [headers, List.range_succ, List.map_append, List.map_singleton, headers]

end Alarm

/-- The alarm of an active beacon, of which so many packets have been sent. -/
structure Current (a : Alarm) (n : ℕ) (s : SosBeacon) : Prop where
  deviceId : a.deviceId = s.deviceId
  status : s.status = some a.status ∨ s.status = some .cancel
  sequence : s.sequence = UInt16.ofNat n
  messageLen : s.messageLen = a.messageLen
  message : s.message = a.message

/-- The headers are those of alarms that have been cancelled and of the alarm of the beacon. -/
def Heard (deviceId : Arr 8) (s : SosBeacon) (headers : List Header) : Prop :=
  ∃ past : List (Alarm × ℕ), (∀ a ∈ past, a.1.deviceId = deviceId) ∧
    if s.active then ∃ a n, Current a n s ∧ headers = (past.flatMap fun a => a.1.cancelled a.2) ++ a.headers n
    else headers = past.flatMap fun a => a.1.cancelled a.2

/-- What has been sent is received as messages of alarms. -/
structure Received (deviceId : Arr 8) (w : SosBeacon × List (List UInt8)) : Prop where
  device : w.1.deviceId = deviceId
  heard : ∃ ms : List SosMessage, w.2.map fromBytes = ms.map .ok ∧ Heard deviceId w.1 (ms.map SosMessage.header)

section Received

variable {deviceId : Arr 8} {s s' : SosBeacon} {sent : List (List UInt8)}

/-- A beacon whose alarm does not change. -/
lemma Received.of_same (h : Received deviceId (s, sent)) (hdevice : s'.deviceId = s.deviceId)
    (hactive : s'.active = s.active) (hcurrent : s.active = true → ∀ a n, Current a n s → Current a n s') :
    Received deviceId (s', sent) := by
  obtain ⟨ms, hms, past, hpast, hheard⟩ := h.heard
  refine ⟨hdevice.trans h.device, ms, hms, past, hpast, ?_⟩
  rw [hactive]
  split_ifs at hheard ⊢ with hs
  · obtain ⟨a, n, ha, heq⟩ := hheard
    exact ⟨a, n, hcurrent hs a n ha, heq⟩
  · exact hheard

lemma Received.cancel (h : Received deviceId (s, sent)) : Received deviceId (s.cancel.2, sent) := by
  rw [SosBeacon.cancel]
  split_ifs with hs
  · exact h
  · exact h.of_same rfl rfl fun _ a n ha => ⟨ha.deviceId, .inr rfl, ha.sequence, ha.messageLen, ha.message⟩

lemma Received.activate (h : Received deviceId (s, sent)) (status : SosStatus) (message : Option String) :
    Received deviceId ((s.activate status message).2, sent) := by
  rw [SosBeacon.activate]
  split_ifs with hs hcancel
  · exact h
  · exact h.cancel
  · -- an alarm begins, and no packet of it has been sent
    have hne : status ≠ .cancel := fun he => hcancel (beq_iff_eq.mpr he)
    have hinactive : s.active = false := by
      cases hactive : s.active with
      | false => rfl
      | true => exact absurd (by simp [hactive, hne]) hs
    obtain ⟨ms, hms, past, hpast, hheard⟩ := h.heard
    rw [hinactive, if_neg (by decide)] at hheard
    cases message with
    | none =>
      refine ⟨h.device, ms, hms, past, hpast, ?_⟩
      exact ⟨⟨s.deviceId, status, 0, .zero, hne⟩, 0, ⟨rfl, .inl rfl, rfl, rfl, rfl⟩,
        hheard.trans (List.append_nil _).symm⟩
    | some msg =>
      refine ⟨h.device, ms, hms, past, hpast, ?_⟩
      exact ⟨⟨s.deviceId, status, _, _, hne⟩, 0, ⟨rfl, .inl rfl, rfl, rfl, rfl⟩,
        hheard.trans (List.append_nil _).symm⟩

/-- The header of the packet that is sent. -/
lemma header_nextMessage {a : Alarm} {n : ℕ} (h : Current a n s) {status : SosStatus} (hstatus : s.status = some status)
    (crc : UInt16) : ({ s.nextMessage with checksum := crc } : SosMessage).header = a.header status n := by
  have hgetD : s.status.getD .active = status := by rw [hstatus, Option.getD_some]
  rw [SosMessage.header, SosBeacon.nextMessage, Alarm.header]
  dsimp only
  rw [h.deviceId, h.sequence, hgetD, h.messageLen, h.message]

lemma Received.nextPacket (h : Received deviceId (s, sent)) :
    Received deviceId (s.nextPacket.2, sent ++ s.nextPacket.1.toList) := by
  cases hs : s.active with
  | false =>
    rw [SosBeacon.nextPacket, hs, Bool.not_false, if_pos rfl, Option.toList_none, List.append_nil]
    exact h
  | true =>
    obtain ⟨ms, hms, past, hpast, hheard⟩ := h.heard
    rw [if_pos hs] at hheard
    obtain ⟨a, n, ha, hheaders⟩ := hheard
    have hdecoded := fromBytes_toBytes (magic_nextMessage s)
    generalize hcrc : crc16Ccitt s.nextMessage.fields = crc at hdecoded
    have hms' : (sent ++ [s.nextMessage.toBytes]).map fromBytes =
        (ms ++ [({ s.nextMessage with checksum := crc } : SosMessage)]).map .ok := by
      rw [List.map_append, List.map_append, hms, List.map_singleton, List.map_singleton, hdecoded]
    rw [SosBeacon.nextPacket, hs, Bool.not_true, if_neg Bool.false_ne_true]
    dsimp only
    by_cases hcancel : s.status = some .cancel
    · -- the last packet of the alarm
      rw [if_pos hcancel]
      refine ⟨h.device, _, hms', past ++ [(a, n)], ?_, ?_⟩
      · intro b hb
        rcases List.mem_append.mp hb with hb | hb
        · exact hpast b hb
        · rw [List.mem_singleton.mp hb]
          exact ha.deviceId.trans h.device
      · rw [if_neg Bool.false_ne_true, List.map_append, hheaders, List.map_singleton,
          header_nextMessage ha hcancel, List.flatMap_append, List.flatMap_singleton, Alarm.cancelled,
          List.append_assoc]
    · rw [if_neg hcancel]
      have hstatus : s.status = some a.status := ha.status.resolve_right hcancel
      refine ⟨h.device, _, hms', past, hpast, ?_⟩
      rw [if_pos rfl]
      refine ⟨a, n + 1, ⟨ha.deviceId, .inl hstatus, ?_, ha.messageLen, ha.message⟩, ?_⟩
      · change s.sequence + 1 = _
        rw [ha.sequence, UInt16.ofNat_add]
        rfl
      · rw [List.map_append, hheaders, List.map_singleton, header_nextMessage ha hstatus, Alarm.headers_succ,
          List.append_assoc]

end Received

/-! ### Runs -/

lemma received_next {deviceId : Arr 8} (o : Call) (w : SosBeacon × List (List UInt8)) (h : Received deviceId w) :
    Received deviceId (radio.next o w) := by
  obtain ⟨s, sent⟩ := w
  cases o with
  | activate status msg =>
    change Received deviceId ((rsSosBeaconActivate status msg s).2, sent)
    rcases activate_cases status msg s with heq | ⟨sosStatus, message, heq⟩
    · rw [heq]
      exact h
    · rw [heq]
      exact h.activate sosStatus message
  | cancel =>
    change Received deviceId ((rsSosBeaconCancel s).2, sent)
    rw [cancel_eq]
    exact h.cancel
  | updatePosition pos =>
    cases pos with
    | none => exact h
    | some pos =>
      exact h.of_same rfl rfl fun _ a n ha => ⟨ha.deviceId, ha.status, ha.sequence, ha.messageLen, ha.message⟩
  | updateBattery pct =>
    exact h.of_same rfl rfl fun _ a n ha => ⟨ha.deviceId, ha.status, ha.sequence, ha.messageLen, ha.message⟩
  | nextPacket bufLen =>
    change Received deviceId ((rsSosBeaconNextPacket bufLen s).2.2, sent ++ (rsSosBeaconNextPacket bufLen s).2.1.toList)
    rcases nextPacket_cases bufLen s with heq | heq
    · rw [heq, Option.toList_none, List.append_nil]
      exact h
    · rw [heq]
      exact h.nextPacket

lemma received_run (deviceId : Arr 8) (calls : List Call) :
    Received deviceId (radio.run (.new deviceId, []) calls) := by
  have hstart : Received deviceId (.new deviceId, []) := ⟨rfl, [], rfl, [], (fun _ h => nomatch h), rfl⟩
  exact (Component.along_of_preserved (C := radio) (P := fun _ _ => True) (I := Received deviceId)
    (fun o w h _ => received_next o w h) hstart fun _ _ _ _ => trivial).2

/-! ### What the packets report -/

/-- The position that a call records. -/
def Call.position : Call → Option HalGpsPosition
  | .updatePosition pos => pos
  | _ => none

/-- The level of the battery that a call records, at most 100. -/
def Call.level : Call → Option UInt8
  | .updateBattery pct => some (if 100 < pct then 100 else pct)
  | _ => none

def SosBeacon.position (s : SosBeacon) : HalGpsPosition :=
  ⟨s.latitude, s.longitude, s.altitudeM, s.satellites, s.timestamp⟩

def SosMessage.position (m : SosMessage) : HalGpsPosition :=
  ⟨m.latitude, m.longitude, m.altitudeM, m.satellites, m.timestamp⟩

section Reports

variable (s : SosBeacon)

/-- What a beacon reports. -/
def SosBeacon.report : HalGpsPosition × UInt8 := (s.position, s.batteryPct)

lemma report_cancel : s.cancel.2.report = s.report := by
  rw [SosBeacon.cancel]
  split_ifs <;> rfl

lemma report_activate (status : SosStatus) (message : Option String) :
    (s.activate status message).2.report = s.report := by
  rw [SosBeacon.activate]
  split_ifs
  · rfl
  · exact report_cancel s
  · cases message <;> rfl

lemma report_nextPacket : s.nextPacket.2.report = s.report := by
  rw [SosBeacon.nextPacket]
  dsimp only
  split_ifs <;> rfl

lemma report_next (o : Call) (w : SosBeacon × List (List UInt8)) :
    (radio.next o w).1.report = (o.position.getD w.1.position, o.level.getD w.1.batteryPct) := by
  obtain ⟨s, sent⟩ := w
  cases o with
  | activate status msg =>
    change (rsSosBeaconActivate status msg s).2.report = s.report
    rcases activate_cases status msg s with heq | ⟨sosStatus, message, heq⟩
    · rw [heq]
    · rw [heq, report_activate]
  | cancel =>
    change (rsSosBeaconCancel s).2.report = s.report
    rw [cancel_eq, report_cancel]
  | updatePosition pos => cases pos <;> rfl
  | updateBattery pct => rfl
  | nextPacket bufLen =>
    change (rsSosBeaconNextPacket bufLen s).2.2.report = s.report
    rcases nextPacket_cases bufLen s with heq | heq
    · rw [heq]
    · rw [heq, report_nextPacket]

/-- A beacon reports what has been recorded last. -/
lemma report_run (calls : List Call) (w : SosBeacon × List (List UInt8)) : (radio.run w calls).1.report =
    ((calls.filterMap Call.position).getLastD w.1.position, (calls.filterMap Call.level).getLastD w.1.batteryPct) := by
  induction calls generalizing w with
  | nil => rfl
  | cons o calls ih =>
    have hnext := Prod.mk.inj (report_next o w)
    rw [Component.run_cons, ih, hnext.1, hnext.2]
    congr 1
    · cases hposition : o.position with
      | none => rw [List.filterMap_cons_none hposition, Option.getD_none]
      | some pos => rw [List.filterMap_cons_some hposition, List.getLastD_cons, Option.getD_some]
    · cases hlevel : o.level with
      | none => rw [List.filterMap_cons_none hlevel, Option.getD_none]
      | some pct => rw [List.filterMap_cons_some hlevel, List.getLastD_cons, Option.getD_some]

end Reports

/-- Whatever the exported functions are called for, the packets that they hand out are received as alarms of the device,
each cancelled before the next one, and each packet reports the position and the level of the battery that have been
recorded last. -/
theorem alarms_received (deviceId : Arr 8) (calls : List Call) :
    (∃ ms : List SosMessage, (radio.run (.new deviceId, []) calls).2.map fromBytes = ms.map .ok ∧
      Heard deviceId (radio.run (.new deviceId, []) calls).1 (ms.map SosMessage.header)) ∧
    ∀ bufLen packet, (rsSosBeaconNextPacket bufLen (radio.run (.new deviceId, []) calls).1).2.1 = some packet →
      ∃ m, fromBytes packet = .ok m ∧
        m.position = (calls.filterMap Call.position).getLastD ⟨0, 0, 0, 0, 0⟩ ∧
        m.batteryPct = (calls.filterMap Call.level).getLastD 0 := by
  refine ⟨(received_run deviceId calls).heard, fun bufLen packet h => ?_⟩
  have hreport := Prod.mk.inj (report_run calls (.new deviceId, []))
  generalize (radio.run (.new deviceId, []) calls).1 = s at h hreport
  have hpacket : s.nextPacket.1 = some packet := by
    rcases nextPacket_cases bufLen s with heq | heq
    · rw [heq] at h
      cases h
    · rw [← heq]
      exact h
  have hsent := nextPacket_of_active (active_of_nextPacket hpacket)
  rw [hpacket] at hsent
  obtain rfl := Option.some.inj hsent
  exact ⟨_, fromBytes_toBytes (magic_nextMessage s), hreport.1, hreport.2⟩

end ThistleOS.Sos
