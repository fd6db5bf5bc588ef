import OemAaMod.Lib.WriteLog
import OemAaMod.Touch.Diff

/-!
# The evdev reader

`touch.cpp` follows the type-B protocol of the panel: a slot is selected and stays
selected, an id or a coordinate goes to the selected slot, and every `SYN_REPORT`
hands the ten slots to `touch_on_frame`. A slot that the panel selects outside 0..9
is taken for slot 0.

* `InputEvent`, `Reader`, `readerStep`, `readerFrames` — the loop of `reader_main`;
* `DeviceLog` — what the panel reported, under the slots as it numbers them;
* `ReadsPanel` — the reader holds, in each slot, the newest reports that reach it;
* `readerFrames_iff` — its snapshots are the panel's exactly as long as slot 0 shows
  nothing newer from outside.
-/

namespace OemAaMod

open WriteLog (newest store)

/-! ## `reader_main` -/

def EV_SYN : UInt16 := 0
def EV_ABS : UInt16 := 3
def SYN_REPORT : UInt16 := 0
def SYN_DROPPED : UInt16 := 3
def ABS_MT_SLOT : UInt16 := 0x2f
def ABS_MT_POSITION_X : UInt16 := 0x35
def ABS_MT_POSITION_Y : UInt16 := 0x36
def ABS_MT_TRACKING_ID : UInt16 := 0x39

/-- `input_event`, without its time. -/
structure InputEvent where
  type  : UInt16
  code  : UInt16
  value : Int32
deriving DecidableEq

/-- `init_state`. -/
def initState : MtState := noFingers

/-- `recount_active`. -/
def recountActive (m : MtState) : MtState :=
  { m with nActive := (List.finRange kMaxFingers).countP fun i => decide (0 ≤ m.id i) }

def slotZero : Slot := ⟨0, Nat.succ_pos 9⟩

/-- The slot that `ABS_MT_SLOT` selects. -/
def slotOf (value : Int32) : Slot :=
  if h : 0 ≤ value.toInt ∧ value.toInt < 10 then
    ⟨value.toInt.toNat, (Int.toNat_lt h.1).mpr h.2⟩
  else slotZero

/-- The locals of the loop. -/
structure Reader where
  cur        : MtState := initState
  activeSlot : Slot := slotZero

/-- An assignment to `cur.fingers[active_slot]`. -/
def Reader.assign (r : Reader) (g : Finger → Finger) : Reader :=
  let fg := g (r.cur.finger r.activeSlot)
  { r with cur := { r.cur with fingers := r.cur.fingers.set r.activeSlot.val fg r.activeSlot.isLt } }

/-- One event, and the snapshot that goes to `touch_on_frame`, if any. -/
def readerStep (r : Reader) (ev : InputEvent) : Reader × Option MtState :=
  if ev.type = EV_ABS then
    if ev.code = ABS_MT_SLOT then ({ r with activeSlot := slotOf ev.value }, none)
    else if ev.code = ABS_MT_TRACKING_ID then
      (r.assign fun fg => { fg with trackingId := ev.value }, none)
    else if ev.code = ABS_MT_POSITION_X then
      (r.assign fun fg => { fg with x := ev.value.toUInt32 }, none)
    else if ev.code = ABS_MT_POSITION_Y then
      (r.assign fun fg => { fg with y := ev.value.toUInt32 }, none)
    else (r, none)
  else if ev.type = EV_SYN then
    if ev.code = SYN_REPORT then
      ({ r with cur := recountActive r.cur }, some (recountActive r.cur))
    else if ev.code = SYN_DROPPED then ({ r with cur := initState }, some initState)
    -- `SYN_MT_REPORT` is type A
    else (r, none)
  else (r, none)

/-- The snapshots of the events read one after the other. -/
def readerFrames : Reader → List InputEvent → List MtState
  | _, [] => []
  | r, ev :: evs => (readerStep r ev).2.toList ++ readerFrames (readerStep r ev).1 evs

/-! ## What the panel reports -/

/-- What a report is about. -/
inductive Field
  | trackingId
  | x
  | y
deriving DecidableEq

/-- Before any report. -/
def blank : Field → Int32
  | .trackingId => -1
  | .x => 0
  | .y => 0

def fingerOf (value : Field → Int32) : Finger :=
  ⟨value .trackingId, (value .x).toUInt32, (value .y).toUInt32⟩

/-- The field of an event that reports one. -/
def InputEvent.field (ev : InputEvent) : Option Field :=
  if ev.type ≠ EV_ABS then none
  else if ev.code = ABS_MT_TRACKING_ID then some .trackingId
  else if ev.code = ABS_MT_POSITION_X then some .x
  else if ev.code = ABS_MT_POSITION_Y then some .y
  else none

def InputEvent.IsSlot (ev : InputEvent) : Prop := ev.type = EV_ABS ∧ ev.code = ABS_MT_SLOT

def InputEvent.IsReport (ev : InputEvent) : Prop := ev.type = EV_SYN ∧ ev.code = SYN_REPORT

def InputEvent.IsDropped (ev : InputEvent) : Prop := ev.type = EV_SYN ∧ ev.code = SYN_DROPPED

instance (ev : InputEvent) : Decidable ev.IsSlot := inferInstanceAs (Decidable (_ ∧ _))
instance (ev : InputEvent) : Decidable ev.IsReport := inferInstanceAs (Decidable (_ ∧ _))
instance (ev : InputEvent) : Decidable ev.IsDropped := inferInstanceAs (Decidable (_ ∧ _))

/-- The current slot of the panel, whatever its number, and what was reported under
which slot, the newest first. -/
structure DeviceLog where
  slot    : Int32 := 0
  reports : List ((Int32 × Field) × Int32) := []

def DeviceLog.report (l : DeviceLog) (f : Field) (v : Int32) : DeviceLog :=
  { l with reports := ((l.slot, f), v) :: l.reports }

/-- A drop makes all reports void; the slot stays. -/
def DeviceLog.step (l : DeviceLog) (ev : InputEvent) : DeviceLog :=
  if ev.IsSlot then { l with slot := ev.value }
  else if ev.IsDropped then { l with reports := [] }
  else match ev.field with
    | some f => l.report f ev.value
    | none => l

/-- The number of a slot, as the panel gives it. -/
def numberOf (s : Slot) : Int32 := Int32.ofInt s.val

/-- What the panel last reported of a slot. -/
def DeviceLog.finger (l : DeviceLog) (s : Slot) : Finger :=
  fingerOf fun f => (newest (fun a => decide (a = (numberOf s, f))) l.reports).getD (blank f)

/-- The type-B state of the slots 0..9. -/
def DeviceLog.state (l : DeviceLog) : MtState :=
  let fingers := Vector.ofFn l.finger
  ⟨fingers, (MtState.live ⟨fingers, 0⟩).card⟩

/-- The panel's state at every snapshot. -/
def deviceFrames : DeviceLog → List InputEvent → List MtState
  | _, [] => []
  | l, ev :: evs =>
    (if ev.IsReport ∨ ev.IsDropped then [(l.step ev).state] else []) ++
      deviceFrames (l.step ev) evs

def Outside (slot : Int32) : Prop := slot.toInt < 0 ∨ 10 ≤ slot.toInt

instance (slot : Int32) : Decidable (Outside slot) := inferInstanceAs (Decidable (_ ∨ _))

/-- Of what was reported of slot 0 and of the slots outside 0..9, the newest is what slot
0 itself shows. -/
def SlotZeroOwn (l : DeviceLog) : Prop :=
  ∀ f, (newest (fun a => decide ((a.1 = numberOf slotZero ∨ Outside a.1) ∧ a.2 = f))
      l.reports).getD (blank f) =
    (newest (fun a => decide (a = (numberOf slotZero, f))) l.reports).getD (blank f)

/-! ## Slots -/

theorem numberOf_toInt : ∀ s : Slot, (numberOf s).toInt = s.val := by decide

/-- Slot 0 stands for itself and for every slot outside. -/
theorem slotOf_eq_slotZero {v : Int32} : slotOf v = slotZero ↔ v = numberOf slotZero ∨ Outside v := by
  have hzero : v = numberOf slotZero ↔ v.toInt = 0 := by
    rw [← Int32.toInt_inj, numberOf_toInt]
    rfl
  rw [hzero]
  unfold slotOf Outside
  by_cases h : 0 ≤ v.toInt ∧ v.toInt < 10
  · rw [dif_pos h, Fin.ext_iff]
    show v.toInt.toNat = 0 ↔ _
    omega
  · rw [dif_neg h]
    exact iff_of_true rfl (by omega)

/-- Every other slot is reached by its own number only. -/
theorem slotOf_eq_iff {v : Int32} {s : Slot} (hs : s ≠ slotZero) :
    slotOf v = s ↔ v = numberOf s := by
  have hpos : s.val ≠ 0 := fun h => hs (Fin.ext h)
  have hlt : s.val < 10 := s.isLt
  rw [← Int32.toInt_inj, numberOf_toInt]
  unfold slotOf
  by_cases h : 0 ≤ v.toInt ∧ v.toInt < 10
  · rw [dif_pos h, Fin.ext_iff]
    show v.toInt.toNat = s.val ↔ _
    omega
  · rw [dif_neg h]
    exact iff_of_false (fun h' => hs h'.symm) (by omega)

theorem slotOf_numberOf : ∀ s : Slot, slotOf (numberOf s) = s := by decide

/-! ## Snapshots -/

theorem finger_assign (r : Reader) (g : Finger → Finger) (s : Slot) :
    (r.assign g).cur.finger s = if r.activeSlot = s then g (r.cur.finger s) else r.cur.finger s := by
  show (r.cur.fingers.set r.activeSlot.val (g (r.cur.finger r.activeSlot))
    r.activeSlot.isLt)[s.val] = _
  rw [Vector.getElem_set]
  by_cases h : r.activeSlot = s
  · rw [if_pos (congrArg Fin.val h), if_pos h, h]
  · rw [if_neg fun h' => h (Fin.ext h'), if_neg h]
    rfl

theorem finger_initState : ∀ s : Slot, initState.finger s = fingerOf blank := by decide

theorem fingerOf_inj {v w : Field → Int32} : fingerOf v = fingerOf w ↔ ∀ f, v f = w f := by
  constructor
  · intro h f
    obtain ⟨hid, hx, hy⟩ := Finger.mk.inj h
    cases f with
    | trackingId => exact hid
    | x => exact congrArg UInt32.toInt32 hx
    | y => exact congrArg UInt32.toInt32 hy
  · intro h
    rw [funext h]

/-- The live slots as they are counted. -/
theorem countP_live (m : MtState) :
    (List.finRange kMaxFingers).countP (fun i => decide (0 ≤ m.id i)) = m.live.card := by
  rw [List.countP_eq_length_filter, MtState.live]
  rfl

theorem fingers_eq {m m' : MtState} (h : ∀ s, m.finger s = m'.finger s) :
    m.fingers = m'.fingers :=
  Vector.ext fun i hi => h ⟨i, hi⟩

theorem finger_state (l : DeviceLog) (s : Slot) : l.state.finger s = l.finger s := by
  show (Vector.ofFn l.finger)[s.val] = l.finger s
  rw [Vector.getElem_ofFn]

/-- A counted snapshot is determined by its fingers. -/
theorem recountActive_eq_iff (m : MtState) (l : DeviceLog) :
    recountActive m = l.state ↔ ∀ s, m.finger s = l.finger s := by
  constructor
  · intro h s
    rw [← finger_state, ← h]
    rfl
  · intro h
    have hfingers : m.fingers = l.state.fingers :=
      fingers_eq fun s => (h s).trans (finger_state l s).symm
    unfold recountActive
    rw [countP_live]
    -- the live slots are read off the fingers
    have hlive : m.live = l.state.live := by
      ext s
      rw [mem_live, mem_live, MtState.id, MtState.id, h s, finger_state]
    rw [hlive, hfingers]
    rfl

/-! ## The reader tracks the panel -/

/-- The register of a reported field. -/
def reach (a : Int32 × Field) : Slot × Field := (slotOf a.1, a.2)

/-- The reader's slot is the one the panel's number selects, and every slot holds the
newest reports that reached it. -/
structure ReadsPanel (r : Reader) (l : DeviceLog) : Prop where
  slot    : r.activeSlot = slotOf l.slot
  fingers : ∀ s, r.cur.finger s = fingerOf fun f => store reach (fun i => blank i.2) l.reports (s, f)

theorem readsPanel_init : ReadsPanel {} {} where
  slot    := rfl
  fingers := finger_initState

/-- A report goes to the slot of the panel, as the reader numbers it. -/
theorem ReadsPanel.assign {r : Reader} {l : DeviceLog} (h : ReadsPanel r l) (f : Field) {v : Int32}
    {g : Finger → Finger}
    (hg : ∀ w : Field → Int32, g (fingerOf w) = fingerOf (Function.update w f v)) :
    ReadsPanel (r.assign g) (l.report f v) where
  slot := h.slot
  fingers := by
    intro s
    rw [finger_assign, h.fingers s, hg]
    by_cases hs : r.activeSlot = s
    · rw [if_pos hs, fingerOf_inj]
      intro f'
      rw [DeviceLog.report, WriteLog.store_cons, Function.update_apply]
      -- of the selected slot, only the field reported changes
      have hreach : reach (l.slot, f) = (s, f') ↔ f' = f := by
        unfold reach
        rw [Prod.mk.injEq, ← h.slot]
        exact ⟨fun h' => h'.2.symm, fun h' => ⟨hs, h'.symm⟩⟩
      by_cases hf : f' = f
      · rw [if_pos hf, if_pos (hreach.mpr hf)]
      · rw [if_neg hf, if_neg fun h' => hf (hreach.mp h')]
    · rw [if_neg hs, fingerOf_inj]
      intro f'
      rw [DeviceLog.report, WriteLog.store_cons, if_neg]
      intro h'
      exact hs (h.slot.trans (Prod.mk.inj h').1)

/-- **One event keeps the reader on the panel's reports**, out of range or not. -/
theorem ReadsPanel.step {r : Reader} {l : DeviceLog} (h : ReadsPanel r l) (ev : InputEvent) :
    ReadsPanel (readerStep r ev).1 (l.step ev) := by
  unfold readerStep DeviceLog.step InputEvent.field
  by_cases habs : ev.type = EV_ABS
  · have hsyn : ¬ev.IsDropped := by
      rintro ⟨hsyn, -⟩
      rw [habs] at hsyn
      exact absurd hsyn (by decide)
    by_cases hslot : ev.code = ABS_MT_SLOT
    · rw [if_pos habs, if_pos hslot, if_pos ⟨habs, hslot⟩]
      exact ⟨rfl, h.fingers⟩
    · have hkeep : ¬ev.IsSlot := fun h' => hslot h'.2
      rw [if_pos habs, if_neg hslot, if_neg hkeep, if_neg hsyn, if_neg (not_not_intro habs)]
      by_cases hid : ev.code = ABS_MT_TRACKING_ID
      · rw [if_pos hid, if_pos hid]
        dsimp only
        exact h.assign .trackingId fun w => rfl
      · rw [if_neg hid, if_neg hid]
        by_cases hx : ev.code = ABS_MT_POSITION_X
        · rw [if_pos hx, if_pos hx]
          dsimp only
          exact h.assign .x fun w => rfl
        · rw [if_neg hx, if_neg hx]
          by_cases hy : ev.code = ABS_MT_POSITION_Y
          · rw [if_pos hy, if_pos hy]
            dsimp only
            exact h.assign .y fun w => rfl
          · rw [if_neg hy, if_neg hy]
            exact h
  · have hkeep : ¬ev.IsSlot := fun h' => habs h'.1
    rw [if_neg habs, if_neg hkeep, if_pos habs]
    by_cases hsyn : ev.type = EV_SYN
    · rw [if_pos hsyn]
      by_cases hreport : ev.code = SYN_REPORT
      · -- counting leaves the fingers alone, and a report is no drop
        have hdrop : ¬ev.IsDropped := by
          rintro ⟨-, hdrop⟩
          rw [hreport] at hdrop
          exact absurd hdrop (by decide)
        rw [if_pos hreport, if_neg hdrop]
        exact ⟨h.slot, h.fingers⟩
      · rw [if_neg hreport]
        by_cases hdrop : ev.code = SYN_DROPPED
        · rw [if_pos hdrop, if_pos ⟨hsyn, hdrop⟩]
          exact ⟨h.slot, finger_initState⟩
        · have hstay : ¬ev.IsDropped := fun h' => hdrop h'.2
          rw [if_neg hdrop, if_neg hstay]
          exact h
    · have hstay : ¬ev.IsDropped := fun h' => hsyn h'.1
      rw [if_neg hsyn, if_neg hstay]
      exact h

theorem readerStep_frame (r : Reader) (ev : InputEvent) :
    (readerStep r ev).2 =
      if ev.IsReport then some (recountActive r.cur)
      else if ev.IsDropped then some initState else none := by
  unfold readerStep
  by_cases hsyn : ev.type = EV_SYN
  · have habs : ¬ev.type = EV_ABS := by
      rw [hsyn]
      decide
    have hreport : ev.IsReport ↔ ev.code = SYN_REPORT := and_iff_right hsyn
    have hdrop : ev.IsDropped ↔ ev.code = SYN_DROPPED := and_iff_right hsyn
    simp only [if_neg habs, if_pos hsyn, hreport, hdrop]
    split_ifs <;> rfl
  · -- anything else has no snapshot
    have hreport : ¬ev.IsReport := fun h => hsyn h.1
    have hdrop : ¬ev.IsDropped := fun h => hsyn h.1
    rw [if_neg hreport, if_neg hdrop, if_neg hsyn]
    split_ifs <;> rfl

/-! ## The snapshots -/

theorem step_of_report {l : DeviceLog} {ev : InputEvent} (h : ev.IsReport) : l.step ev = l := by
  obtain ⟨htype, hcode⟩ := h
  unfold DeviceLog.step InputEvent.field
  rw [if_neg fun h' => absurd (htype.symm.trans h'.1) (by decide),
    if_neg fun h' => absurd (hcode.symm.trans h'.2) (by decide),
    if_pos (by rw [htype]; decide)]

theorem state_of_dropped {l : DeviceLog} {ev : InputEvent} (h : ev.IsDropped) :
    (l.step ev).state = initState := by
  have hvoid : (l.step ev).reports = [] := by
    obtain ⟨htype, hcode⟩ := h
    unfold DeviceLog.step
    rw [if_neg fun h' => absurd (htype.symm.trans h'.1) (by decide), if_pos ⟨htype, hcode⟩]
  have hcount : recountActive initState = initState := by decide
  rw [← hcount]
  refine ((recountActive_eq_iff _ _).mpr fun s => ?_).symm
  rw [finger_initState, DeviceLog.finger, hvoid]
  rfl

/-- What the reader holds is the panel's state exactly when slot 0 is its own. -/
theorem ReadsPanel.state_iff {r : Reader} {l : DeviceLog} (h : ReadsPanel r l) :
    recountActive r.cur = l.state ↔ SlotZeroOwn l := by
  rw [recountActive_eq_iff]
  -- all but slot 0 are right in any case
  have hother : ∀ s, s ≠ slotZero → r.cur.finger s = l.finger s := by
    intro s hs
    rw [h.fingers s, DeviceLog.finger, fingerOf_inj]
    intro f
    refine WriteLog.store_eq_of_own reach _ ?_ fun w _ hw => ?_
    · exact Prod.ext (slotOf_numberOf s) rfl
    · obtain ⟨hslot, hfield⟩ := Prod.mk.inj hw
      exact Prod.ext ((slotOf_eq_iff hs).mp hslot) hfield
  have hzero : r.cur.finger slotZero = l.finger slotZero ↔ SlotZeroOwn l := by
    rw [h.fingers slotZero, DeviceLog.finger, fingerOf_inj]
    unfold SlotZeroOwn
    refine forall_congr' fun f => ?_
    rw [WriteLog.store_eq_newest]
    have hreach : ∀ a : Int32 × Field, decide (reach a = (slotZero, f)) =
        decide ((a.1 = numberOf slotZero ∨ Outside a.1) ∧ a.2 = f) := by
      intro a
      rw [decide_eq_decide, ← slotOf_eq_slotZero]
      exact Prod.mk.injEq _ _ _ _ ▸ Iff.rfl
    simp only [hreach]
  constructor
  · exact fun hall => hzero.mp (hall slotZero)
  · intro hown s
    by_cases hs : s = slotZero
    · rw [hs]
      exact hzero.mpr hown
    · exact hother s hs

/-- The condition on a run: at every report, slot 0 is its own. -/
def OwnReports (l : DeviceLog) (evs : List InputEvent) : Prop :=
  ∀ hist ev rest, evs = hist ++ ev :: rest → ev.IsReport → SlotZeroOwn (hist.foldl .step l)

theorem ownReports_nil (l : DeviceLog) : OwnReports l [] := by
  intro hist ev rest h
  simp at h

theorem ownReports_cons {l : DeviceLog} {ev : InputEvent} {evs : List InputEvent} :
    OwnReports l (ev :: evs) ↔ (ev.IsReport → SlotZeroOwn l) ∧ OwnReports (l.step ev) evs := by
  constructor
  · intro h
    refine ⟨h [] ev evs rfl, fun hist ev' rest hevs => ?_⟩
    exact h (ev :: hist) ev' rest (by rw [hevs, List.cons_append])
  · rintro ⟨hhead, htail⟩ hist ev' rest hevs hreport
    cases hist with
    | nil =>
      obtain ⟨rfl, -⟩ := List.cons.inj hevs
      exact hhead hreport
    | cons e hist =>
      obtain ⟨rfl, htl⟩ := List.cons.inj hevs
      exact htail hist ev' rest htl hreport

theorem readerFrames_readsPanel (evs : List InputEvent) :
    ∀ (r : Reader) (l : DeviceLog), ReadsPanel r l →
      (readerFrames r evs = deviceFrames l evs ↔ OwnReports l evs) := by
  induction evs with
  | nil => exact fun r l _ => iff_of_true rfl (ownReports_nil l)
  | cons ev evs ih =>
    intro r l h
    rw [readerFrames, deviceFrames, readerStep_frame, ownReports_cons, ← ih _ _ (h.step ev)]
    by_cases hreport : ev.IsReport
    · rw [if_pos hreport, if_pos (Or.inl hreport), step_of_report hreport, ← h.state_iff]
      simp [hreport]
    · rw [if_neg hreport]
      by_cases hdrop : ev.IsDropped
      · rw [if_pos hdrop, if_pos (Or.inr hdrop), state_of_dropped hdrop]
        simp [hreport]
      · rw [if_neg hdrop, if_neg fun h' => h'.elim hreport hdrop]
        simp [hreport]

/-- **The reader's snapshots are the panel's state**, slot by slot and with the slots
counted, exactly as long as slot 0 is its own at every report. -/
theorem readerFrames_iff (evs : List InputEvent) :
    readerFrames {} evs = deviceFrames {} evs ↔ OwnReports {} evs :=
  readerFrames_readsPanel evs {} {} readsPanel_init

/-- A contact in slot 10 replaces the one in slot 0. -/
theorem eleventh_contact_corrupts :
    readerFrames {} [⟨EV_ABS, ABS_MT_TRACKING_ID, 5⟩, ⟨EV_ABS, ABS_MT_SLOT, 10⟩,
        ⟨EV_ABS, ABS_MT_TRACKING_ID, 6⟩, ⟨EV_SYN, SYN_REPORT, 0⟩] ≠
      deviceFrames {} [⟨EV_ABS, ABS_MT_TRACKING_ID, 5⟩, ⟨EV_ABS, ABS_MT_SLOT, 10⟩,
        ⟨EV_ABS, ABS_MT_TRACKING_ID, 6⟩, ⟨EV_SYN, SYN_REPORT, 0⟩] := by
  decide +kernel

/-! ## Panels with at most ten slots -/

/-- What is reported of a slot outside 0..9 is not part of the panel's state. -/
theorem finger_report_outside {l : DeviceLog} (h : Outside l.slot) (f : Field) (v : Int32)
    (s : Slot) : (l.report f v).finger s = l.finger s := by
  have hne : ∀ f', (l.slot, f) ≠ (numberOf s, f') := by
    intro f' heq
    have hslot : l.slot.toInt = s.val := by rw [(Prod.mk.inj heq).1, numberOf_toInt]
    have hlt : s.val < 10 := s.isLt
    unfold Outside at h
    omega
  unfold DeviceLog.finger DeviceLog.report
  rw [fingerOf_inj]
  intro f'
  rw [WriteLog.newest_cons, if_neg (by simpa using hne f')]

/-- Only slots 0..9 were ever selected. -/
structure Inside (l : DeviceLog) : Prop where
  slot    : ¬Outside l.slot
  reports : ∀ w ∈ l.reports, ¬Outside w.1.1

theorem Inside.step {l : DeviceLog} (h : Inside l) {ev : InputEvent}
    (hev : ev.IsSlot → ¬Outside ev.value) : Inside (l.step ev) := by
  unfold DeviceLog.step
  split
  · rename_i hslot
    exact ⟨hev hslot, h.reports⟩
  · split
    · exact ⟨h.slot, fun w hw => absurd hw List.not_mem_nil⟩
    · split
      · refine ⟨h.slot, fun w hw => ?_⟩
        rcases List.mem_cons.mp hw with rfl | hw
        · exact h.slot
        · exact h.reports w hw
      · exact h

theorem Inside.own {l : DeviceLog} (h : Inside l) : SlotZeroOwn l := by
  intro f
  congr 1
  refine WriteLog.newest_congr fun w hw => ?_
  rw [decide_eq_decide, Prod.ext_iff]
  -- with nothing from outside, slot 0's number is the only one that counts
  exact and_congr_left fun _ => or_iff_left (h.reports w hw)

theorem Inside.ownReports {evs : List InputEvent}
    (hevs : ∀ ev ∈ evs, ev.IsSlot → ¬Outside ev.value) :
    ∀ l : DeviceLog, Inside l → OwnReports l evs := by
  induction evs with
  | nil => exact fun l _ => ownReports_nil l
  | cons ev evs ih =>
    intro l h
    rw [ownReports_cons]
    refine ⟨fun _ => h.own, ?_⟩
    exact ih (fun ev' hev' => hevs ev' (List.mem_cons_of_mem ev hev')) _
      (h.step (hevs ev List.mem_cons_self))

/-- **A panel that selects only the slots 0..9 is followed exactly.** -/
theorem readerFrames_of_inside {evs : List InputEvent}
    (h : ∀ ev ∈ evs, ev.IsSlot → ¬Outside ev.value) :
    readerFrames {} evs = deviceFrames {} evs := by
  have hinside : Inside {} := ⟨by decide, fun w hw => absurd hw List.not_mem_nil⟩
  exact (readerFrames_readsPanel evs {} {} readsPanel_init).mpr (Inside.ownReports h {} hinside)

end OemAaMod
