import Mathlib.Data.Vector.Basic
import Mathlib.Data.Fintype.Basic
import OemAaMod.Lib.Motion

/-!
# The touch sender

`touch_send.cpp` gets a snapshot of the ten slots of the panel on every
`SYN_REPORT`, compares it with the one before and sends the phone what changed.

* `Finger`, `MtState` — a snapshot, `SnapEntry` — an entry of an event's list;
* `sendEvent` — the event that goes out, if the OEM's gates let it;
* `buildSurvivors`, `insertSorted`, `categorise` — the comparison;
* `touchOnFrame` — the events of a frame;
* `sendEvent_motion` — what a receiver reads of an event.
-/

namespace OemAaMod

/-! ## Snapshots -/

def kMaxFingers : Nat := 10

abbrev Slot := Fin kMaxFingers

/-- A contact as the panel reports it; the tracking id of an empty slot is −1. -/
structure Finger where
  trackingId : Int32
  x          : UInt32
  y          : UInt32
deriving DecidableEq

structure MtState where
  fingers : Vector Finger kMaxFingers
  nActive : Nat
deriving DecidableEq

/-- The state the fix-up of `g_prev` puts in place. -/
def noFingers : MtState := ⟨.replicate kMaxFingers ⟨-1, 0, 0⟩, 0⟩

def MtState.finger (m : MtState) (s : Slot) : Finger := m.fingers.get s

def MtState.id (m : MtState) (s : Slot) : Int32 := (m.finger s).trackingId

structure SnapEntry where
  slot : Slot
  fg   : Finger
deriving DecidableEq

/-! ## Events -/

/-- `AAPTouchAction`: the codes 1 to 5 are `DOWN`, `UP`, `MOVE`, `POINTER_DOWN`
and `POINTER_UP`. -/
abbrev AapTouchAction := Motion.Action

/-- `AAP_TouchEvent`. -/
structure AapTouchEvent where
  deviceType  : UInt32
  fingerCount : UInt32
  x           : Vector UInt32 kMaxFingers
  y           : Vector UInt32 kMaxFingers
  pointerId   : Vector UInt32 kMaxFingers
  action      : AapTouchAction
  actionIndex : UInt32
  count_pos   : 1 ≤ fingerCount.toNat
  count_le    : fingerCount.toNat ≤ kMaxFingers
deriving DecidableEq

def kDisplayWidth : UInt64 := 800
def kDisplayHeight : UInt64 := 480
def kRawMax : UInt64 := 4099

def scaleX (v : UInt32) : UInt32 := (v.toUInt64 * kDisplayWidth / kRawMax).toUInt32
def scaleY (v : UInt32) : UInt32 := (v.toUInt64 * kDisplayHeight / kRawMax).toUInt32

/-- What the OEM answers: whether there is an `AapProc`, whether its video has the
focus, and whether it has a `RaceAap`. -/
structure OemTouch where
  aapProc      : Bool
  videoInFocus : Bool
  raceAap      : Bool

/-- An array of the event, zero behind the entries. -/
def fillArray (f : Finger → UInt32) (entries : List SnapEntry) : Vector UInt32 kMaxFingers :=
  .ofFn fun i => (entries[i.val]?.map fun e => f e.fg).getD 0

theorem toNat_count {n : Nat} (h : n ≤ kMaxFingers) : (UInt32.ofNat n).toNat = n := by
  have hle : n ≤ 10 := h
  rw [UInt32.toNat_ofNat']
  omega

/-- The event handed to `RaceAap::SendTouchInput`, if any. -/
def sendEvent (oem : OemTouch) (entries : List SnapEntry) (action : AapTouchAction)
    (actionIndex : Nat) : Option AapTouchEvent :=
  if h : entries.length = 0 ∨ kMaxFingers < entries.length then none
  else if ¬oem.aapProc then none
  else if ¬oem.videoInFocus then none
  else if ¬oem.raceAap then none
  else some {
    deviceType  := 1
    fingerCount := .ofNat entries.length
    x           := fillArray (fun fg => scaleX fg.x) entries
    y           := fillArray (fun fg => scaleY fg.y) entries
    pointerId   := fillArray (fun fg => fg.trackingId.toUInt32) entries
    action
    actionIndex := .ofNat actionIndex
    count_pos   := by
      rw [toNat_count (by omega)]
      omega
    count_le    := by
      rw [toNat_count (by omega)]
      omega }

/-! ## Comparing two snapshots -/

/-- The contacts of both snapshots, where they are now. -/
def buildSurvivors (prev cur : MtState) : List SnapEntry :=
  (List.finRange kMaxFingers).filterMap fun slot =>
    if 0 ≤ prev.id slot ∧ cur.id slot = prev.id slot then some ⟨slot, cur.finger slot⟩ else none

/-- Inserted before the first entry of a later slot; also the place. -/
def insertSorted (arr : List SnapEntry) (slot : Slot) (fg : Finger) : List SnapEntry × Nat :=
  let pos := arr.findIdx fun e => slot < e.slot
  (arr.insertIdx pos ⟨slot, fg⟩, pos)

structure Transitions where
  falling  : List Slot := []
  rising   : List Slot := []
  anyMoved : Bool := false

def Transitions.add (prev cur : MtState) (t : Transitions) (s : Slot) : Transitions :=
  let pid := prev.id s
  let cid := cur.id s
  if pid < 0 ∧ cid < 0 then t
  else if pid < 0 ∧ 0 ≤ cid then { t with rising := t.rising ++ [s] }
  else if 0 ≤ pid ∧ cid < 0 then { t with falling := t.falling ++ [s] }
  else if pid ≠ cid then
    -- another finger in the same slot: a release and a landing
    { t with falling := t.falling ++ [s], rising := t.rising ++ [s] }
  else if (prev.finger s).x ≠ (cur.finger s).x ∨ (prev.finger s).y ≠ (cur.finger s).y then
    { t with anyMoved := true }
  else t

/-- The per-slot loop of `touch_on_frame`. -/
def categorise (prev cur : MtState) : Transitions :=
  (List.finRange kMaxFingers).foldl (.add prev cur) {}

/-! ## `touch_on_frame` -/

/-- Step 1: each falling finger with the survivors. -/
def fallingEvents (oem : OemTouch) (prev : MtState) (survivors : List SnapEntry)
    (falling : List Slot) : List AapTouchEvent :=
  falling.flatMap fun slot =>
    let (snap, idx) := insertSorted survivors slot (prev.finger slot)
    let n := snap.length
    (sendEvent oem snap (if n = 1 then .up else .pointerUp) (if n = 1 then 0 else idx)).toList

/-- Step 2: the risen fingers, one more each time. -/
def risingEvents (oem : OemTouch) (cur : MtState) : List SnapEntry → List Slot → List AapTouchEvent
  | _, [] => []
  | inc, slot :: rising =>
    let (inc', idx) := insertSorted inc slot (cur.finger slot)
    let n := inc'.length
    (sendEvent oem inc' (if n = 1 then .down else .pointerDown) (if n = 1 then 0 else idx)).toList ++
      risingEvents oem cur inc' rising

/-- All current fingers, in slot order. -/
def moveSnap (cur : MtState) : List SnapEntry :=
  (List.finRange kMaxFingers).filterMap fun s =>
    if cur.id s < 0 then none else some ⟨s, cur.finger s⟩

def frameEvents (oem : OemTouch) (prev cur : MtState) : List AapTouchEvent :=
  let t := categorise prev cur
  let survivors := buildSurvivors prev cur
  fallingEvents oem prev survivors t.falling ++ risingEvents oem cur survivors t.rising ++
    if t.falling = [] ∧ t.rising = [] ∧ t.anyMoved then
      (sendEvent oem (moveSnap cur) .move 0).toList
    else []

/-- `g_prev`, `g_prev_init`. -/
structure TouchSend where
  prev     : MtState
  prevInit : Bool

def touchSendReset (st : TouchSend) : TouchSend := { st with prevInit := false }

def touchOnFrame (oem : OemTouch) (st : TouchSend) (cur : MtState) :
    List AapTouchEvent × TouchSend :=
  let prev := if st.prevInit then st.prev else noFingers
  (frameEvents oem prev cur, ⟨cur, true⟩)

/-! ## What the receiver reads -/

/-- The first `finger_count` pointers are the ones listed. -/
def AapTouchEvent.motion (e : AapTouchEvent) : Motion.Event UInt32 :=
  ⟨e.action, e.pointerId.toList.take e.fingerCount.toNat, e.actionIndex.toNat⟩

/-- The OEM with video focus, and sends that succeed. -/
def OemTouch.ready : OemTouch := ⟨true, true, true⟩

/-- The pointers of a list of entries. -/
def pointers (entries : List SnapEntry) : List UInt32 :=
  entries.map fun e => e.fg.trackingId.toUInt32

theorem take_fillArray (f : Finger → UInt32) {entries : List SnapEntry}
    (h : entries.length ≤ kMaxFingers) :
    (fillArray f entries).toList.take entries.length = entries.map fun e => f e.fg := by
  refine List.ext_getElem? fun i => ?_
  rcases Nat.lt_or_ge i entries.length with hi | hi
  · have hlt : i < kMaxFingers := by omega
    have hlen : i < (fillArray f entries).toList.length := by
      rw [Vector.length_toList]
      exact hlt
    rw [List.getElem?_take_of_lt hi, List.getElem?_map, List.getElem?_eq_getElem hlen,
      List.getElem?_eq_getElem hi, Vector.getElem_toList]
    simp [fillArray, hi]
  · rw [List.getElem?_eq_none (by simp [hi]), List.getElem?_eq_none (by simpa using hi)]

/-- An event whose list has one to ten entries goes out as it is. -/
theorem sendEvent_motion {entries : List SnapEntry} (action : AapTouchAction) {i : Nat}
    (hne : entries ≠ []) (hle : entries.length ≤ kMaxFingers) (hi : i ≤ kMaxFingers) :
    (sendEvent .ready entries action i).toList.map AapTouchEvent.motion =
      [⟨action, pointers entries, i⟩] := by
  have hpos : 0 < entries.length := List.length_pos_iff.mpr hne
  unfold sendEvent
  rw [dif_neg (by omega)]
  simp only [OemTouch.ready, not_true_eq_false, if_false, Option.toList_some, List.map_cons,
    List.map_nil, AapTouchEvent.motion, toNat_count hle, toNat_count hi]
  rw [take_fillArray _ hle]
  rfl

end OemAaMod
