import OemAaMod.Common.VbsNaviHud
import OemAaMod.Hud.Lane
import Mathlib.Data.Vector.Basic

/-!
# The two HUD transports

`svcnavi_tx.cpp` and `vbs_tx.cpp` share their shape: producers write a
seqlock-protected snapshot, a sender thread reads it and sends. A
seqlock-framed write and a successful read are one step each here; the protocol
between them is the subject of `Hud.Wakeup`.

* `TxCall`, `Tx.call` — the producers, which write only while `g_active`;
* `Sender.iterate` — one turn of the sender's loop, over either `send_one`;
* `View` — what a snapshot shows: its road as a C string and the other fields;
* `HudMsg.Shows` — what it means for a message to carry a view.

`sendOne_shows`: whatever a sender sends carries the view of the snapshot it
read.
-/

namespace OemAaMod

open CStr (Bytes CharBuf cstr)

/-! ## The snapshot and its producers -/

/-- `NaviSnapshot`, zero-initialised. -/
structure NaviSnapshot where
  roadName     : CharBuf 64 := .zero 64
  dirIcon      : UInt32 := 0
  distanceDec  : Int32 := 0
  distanceUnit : UInt8 := 0
  lanes        : Vector UInt8 8 := .replicate 8 0
deriving DecidableEq

/-- A call of one of the producers `*_tx_status/next_turn/distance/lanes`. A
pointer argument is the memory it shows, or null. -/
inductive TxCall
  | status (status : UInt32)
  | nextTurn (roadName : Option Bytes) (dirIcon : UInt32)
  | distance (distDec : Int32) (distUnit : UInt8)
  | lanes (lanes : Option (Vector UInt8 8))
deriving DecidableEq

/-- The write between `seqlock_begin` and `seqlock_end`; a START status only
wakes the sender. -/
def TxCall.write (s : NaviSnapshot) : TxCall → Option NaviSnapshot
  | status st => if st ≠ 1 then some {} else none
  | nextTurn road icon =>
    some { s with
      roadName := match road with
        | some road => .ofStrncpy 64 road
        | none => s.roadName.clearFirst
      dirIcon := icon }
  | distance dec unit => some { s with distanceDec := dec, distanceUnit := unit }
  | lanes codes => some { s with lanes := codes.getD (.replicate 8 OEM_LANE_NONE) }

/-- The transport's globals the producers and the sender share. -/
structure Tx where
  snapshot : NaviSnapshot := {}
  seq      : UInt32 := 0
  active   : Bool := false
deriving DecidableEq

/-- A producer call: dropped while the pipeline is not live. -/
def Tx.call (t : Tx) (c : TxCall) : Tx :=
  if t.active then
    match c.write t.snapshot with
    | some s => { t with snapshot := s, seq := t.seq + 2 }
    | none => t
  else t

/-! ## The sender -/

inductive Backend
  | svcnavi
  | vbs
deriving DecidableEq, Repr

/-- What reaches the OEM side. -/
inductive HudMsg
  /-- `GuidanceChangedForHUD` -/
  | guidance (dirIcon maneuverDist distUnit : Int32) (street : Bytes) (speedLimit speedUnit : Int32)
      (lanes : List Int32)
  /-- `VBS_NAVI_SetHUDDisplayMsgReq` -/
  | display (disp : VbsNaviHudDisplay)
  /-- `VBS_NAVI_TMC_SetHUD_Display_Msg2` -/
  | strip (msg2 : VbsNaviHudMsg2)
  /-- `VBS_NAVI_SetRecommLaneReq` -/
  | recommLane (wire : List UInt8)
deriving DecidableEq

/-- The sender thread's locals. `prev` and `sync_bit` are used by vbs only. -/
structure Sender where
  prev          : NaviSnapshot := {}
  syncBit       : UInt8 := 0
  lastProcessed : UInt32 := 0
deriving DecidableEq

/-- `emit_guidance`; the arguments after the street are the speed sentinel, the
speed unit, and the lane codes as they are. -/
def emitGuidance (dirIcon : UInt32) (maneuverDist : Int32) (distUnit : UInt8) (street : Bytes)
    (lanes : Vector UInt8 8) : HudMsg :=
  .guidance dirIcon.toInt32 maneuverDist (Int32.ofNat distUnit.toNat) street
    (Int32.ofNat kAapSpeedSentinel.toNat) 0 (lanes.toList.map fun l => Int32.ofNat l.toNat)

/-- `send_one` of svcnavi: every fresh snapshot goes out. -/
def svcnaviSendOne (cur : NaviSnapshot) : List HudMsg :=
  [emitGuidance cur.dirIcon cur.distanceDec cur.distanceUnit cur.roadName.str cur.lanes]

def kVbsLaneHidden : UInt8 := 0xFF

/-- A lane code on the direct wire. -/
def vbsLane (code : UInt8) : UInt8 :=
  if code = OEM_LANE_NONE then kVbsLaneHidden else oemLaneGlyph code .a

/-- `send_one` of vbs: the fields that differ from the previous snapshot, with
the sync bit advanced on a new maneuver, street or lane array. -/
def vbsSendOne (hudAbsent : Bool) (cur prev : NaviSnapshot) (syncBit : UInt8) :
    List HudMsg × UInt8 :=
  if hudAbsent then ([], syncBit)
  else
    let eventChanged := cur.roadName.str ≠ prev.roadName.str ∨ cur.dirIcon ≠ prev.dirIcon
    let distanceChanged := eventChanged ∨ cur.distanceDec ≠ prev.distanceDec ∨
      cur.distanceUnit ≠ prev.distanceUnit
    let lanesChanged := cur.lanes ≠ prev.lanes
    if ¬eventChanged ∧ ¬distanceChanged ∧ ¬lanesChanged then ([], syncBit)
    else
      let sendMsg2 := eventChanged ∨ lanesChanged
      let sendDisp := distanceChanged ∨ sendMsg2
      let curLanesVisible := ∃ i : Fin 8, cur.lanes[i] ≠ OEM_LANE_NONE
      let sendLanes := lanesChanged ∨ (sendMsg2 ∧ curLanesVisible)
      let sync := if sendMsg2 then syncBit % 7 + 1 else syncBit
      let disp : VbsNaviHudDisplay :=
        { nextManeuverInfo := cur.dirIcon
          distanceValue := cur.distanceDec.toUInt32.toUInt16
          distanceUnit := cur.distanceUnit
          displaySpeedLimit := 0
          displaySpeedUnit := 0
          textID3 := sync }
      ((if sendDisp then [.display disp] else []) ++
        (if sendMsg2 then [.strip ⟨some cur.roadName.str, sync⟩] else []) ++
        (if sendLanes then [.recommLane (cur.lanes.toList.map vbsLane)] else []), sync)

/-- `send_one` of either backend: the messages, and the sync bit after them. -/
def sendOne (b : Backend) (hudAbsent : Bool) (cur prev : NaviSnapshot) (syncBit : UInt8) :
    List HudMsg × UInt8 :=
  match b with
  | .svcnavi => (svcnaviSendOne cur, syncBit)
  | .vbs => vbsSendOne hudAbsent cur prev syncBit

/-- One turn of the loop of `sender_main`: a seqlock read, and a send if the
sequence number moved. -/
def Sender.iterate (b : Backend) (hudAbsent : Bool) (t : Tx) (s : Sender) : Sender × List HudMsg :=
  if t.seq ≠ s.lastProcessed then
    let r := sendOne b hudAbsent t.snapshot s.prev s.syncBit
    (⟨t.snapshot, r.2, t.seq⟩, r.1)
  else (s, [])

/-- `sender_teardown` of either backend: the HUD is blanked, not the strip. -/
def teardownMsgs (b : Backend) (hudAbsent : Bool) : List HudMsg :=
  match b with
  | .svcnavi => [emitGuidance 0 0 0 [] (.replicate 8 0)]
  | .vbs =>
    if hudAbsent then []
    else [.display ⟨0, 0, 0, 0, 0, 0⟩, .recommLane (List.replicate 8 kVbsLaneHidden)]

/-! ## What is shown -/

/-- What a snapshot shows. -/
@[ext] structure View where
  glyph : UInt32
  road  : Bytes
  dist  : Int32
  unit  : UInt8
  lanes : Vector UInt8 8
deriving DecidableEq

/-- The blank HUD. -/
def View.blank : View := ⟨0, [], 0, 0, .replicate 8 OEM_LANE_NONE⟩

def NaviSnapshot.view (s : NaviSnapshot) : View :=
  ⟨s.dirIcon, s.roadName.str, s.distanceDec, s.distanceUnit, s.lanes⟩

/-- The message carries `v`, as far as a message of its kind carries anything. -/
def HudMsg.Shows (v : View) : HudMsg → Prop
  | guidance icon dist unit street _ _ lanes =>
    icon = v.glyph.toInt32 ∧ dist = v.dist ∧ unit = Int32.ofNat v.unit.toNat ∧ street = v.road ∧
      lanes = v.lanes.toList.map fun l => Int32.ofNat l.toNat
  | display disp =>
    disp.nextManeuverInfo = v.glyph ∧ disp.distanceValue = v.dist.toUInt32.toUInt16 ∧
      disp.distanceUnit = v.unit
  | strip msg2 => msg2.guidancePointName = some v.road
  | recommLane wire => wire = v.lanes.toList.map vbsLane

instance (v : View) : (m : HudMsg) → Decidable (m.Shows v)
  | .guidance .. => inferInstanceAs (Decidable (_ = _ ∧ _ = _ ∧ _ = _ ∧ _ = _ ∧ _ = _))
  | .display _ => inferInstanceAs (Decidable (_ = _ ∧ _ = _ ∧ _ = _))
  | .strip _ => inferInstanceAs (Decidable (_ = _))
  | .recommLane _ => inferInstanceAs (Decidable (_ = _))

@[simp] theorem view_zero : ({} : NaviSnapshot).view = View.blank := by
  unfold NaviSnapshot.view View.blank
  rw [CharBuf.zero_str]
  rfl

/-- **A sender sends what it read.** -/
theorem sendOne_shows (b : Backend) (hudAbsent : Bool) (cur prev : NaviSnapshot) (syncBit : UInt8) :
    ∀ m ∈ (sendOne b hudAbsent cur prev syncBit).1, m.Shows cur.view := by
  cases b with
  | svcnavi =>
    intro m hm
    have hm : m = _ := List.mem_singleton.mp hm
    subst hm
    exact ⟨rfl, rfl, rfl, rfl, rfl⟩
  | vbs =>
    intro m hm
    simp only [sendOne, vbsSendOne] at hm
    split at hm
    · exact absurd hm (by simp)
    · split at hm
      · exact absurd hm (by simp)
      · -- maneuver frame, strip and lanes, each if it is sent
        simp only [List.mem_append] at hm
        rcases hm with (hm | hm) | hm
        · split at hm
          · rw [List.mem_singleton] at hm
            subst hm
            exact ⟨rfl, rfl, rfl⟩
          · exact absurd hm (by simp)
        · split at hm
          · rw [List.mem_singleton] at hm
            subst hm
            rfl
          · exact absurd hm (by simp)
        · split at hm
          · rw [List.mem_singleton] at hm
            subst hm
            rfl
          · exact absurd hm (by simp)

theorem iterate_shows (b : Backend) (hudAbsent : Bool) (t : Tx) (s : Sender) :
    ∀ m ∈ (s.iterate b hudAbsent t).2, m.Shows t.snapshot.view := by
  unfold Sender.iterate
  split
  · exact sendOne_shows b hudAbsent _ _ _
  · intro m hm
    exact absurd hm (by simp)

theorem teardownMsgs_shows (b : Backend) (hudAbsent : Bool) :
    ∀ m ∈ teardownMsgs b hudAbsent, m.Shows View.blank := by
  intro m hm
  cases b with
  | svcnavi =>
    have hm : m = _ := List.mem_singleton.mp hm
    subst hm
    exact ⟨rfl, rfl, rfl, rfl, rfl⟩
  | vbs =>
    cases hudAbsent with
    | true => exact absurd hm (by simp [teardownMsgs])
    | false =>
      simp only [teardownMsgs, Bool.false_eq_true, if_false, List.mem_cons, List.not_mem_nil,
        or_false] at hm
      rcases hm with rfl | rfl
      · exact ⟨rfl, rfl, rfl⟩
      · show List.replicate 8 kVbsLaneHidden = View.blank.lanes.toList.map vbsLane
        decide

/-! ## Producers, seen through views -/

/-- The view after a call that is written. -/
def TxCall.apply (v : View) : TxCall → View
  | status st => if st ≠ 1 then .blank else v
  | nextTurn road icon => { v with road := ((road.map cstr).getD []).take 63, glyph := icon }
  | distance dec unit => { v with dist := dec, unit := unit }
  | lanes codes => { v with lanes := codes.getD (.replicate 8 OEM_LANE_NONE) }

theorem write_view (s : NaviSnapshot) (c : TxCall) :
    ((c.write s).getD s).view = c.apply s.view := by
  cases c with
  | status st =>
    by_cases h : st = 1
    · simp [TxCall.write, TxCall.apply, h]
    · simp [TxCall.write, TxCall.apply, h]
  | nextTurn road icon =>
    cases road with
    | none => simp [TxCall.write, TxCall.apply, NaviSnapshot.view]
    | some road => simp [TxCall.write, TxCall.apply, NaviSnapshot.view]
  | distance dec unit => rfl
  | lanes codes => rfl

theorem Tx.call_snapshot (t : Tx) (c : TxCall) (h : t.active = true) :
    (t.call c).snapshot = (c.write t.snapshot).getD t.snapshot := by
  unfold Tx.call
  rw [if_pos h]
  cases c.write t.snapshot <;> rfl

/-- On a live pipeline a call acts on the view. -/
theorem Tx.call_view (t : Tx) (c : TxCall) (h : t.active = true) :
    (t.call c).snapshot.view = c.apply t.snapshot.view := by
  rw [Tx.call_snapshot t c h, write_view]

theorem Tx.call_active (t : Tx) (c : TxCall) : (t.call c).active = t.active := by
  unfold Tx.call
  split
  · split <;> rfl
  · rfl

/-- On a pipeline that is not live a call is dropped. -/
theorem Tx.call_inactive (t : Tx) (c : TxCall) (h : t.active = false) : t.call c = t := by
  unfold Tx.call
  rw [if_neg (by simp [h])]

end OemAaMod
