import OemAaMod.Hud.Frames
import OemAaMod.Lib.ChangeGate
import OemAaMod.Lib.Image

/-!
# The change gate of the 1.6 callbacks

`nav16_emit_if_changed` compares the accumulator with the last one fed, byte by byte,
and the callbacks keep the bytes that do not show at zero.

* `AaNav16HudState.image`, `Canonical`, `SameFrame` — the bytes compared, the
  accumulators whose hidden bytes are zero, and equality of what shows;
* `image_eq_iff` — on canonical accumulators the two equalities coincide;
* `HudRx.handed` — what a callback hands to the transport;
* `Fed`, `Told` — what the callbacks keep of the gate and of the distance;
* `gate_transparent` — the gate only collapses equal neighbours, and the distance is the
  shown maneuver's.
-/

namespace OemAaMod

open CStr (Bytes CharBuf cstr)
open ChangeGate (collapse held passed)
open Image (leBytes)

/-! ## The bytes compared -/

def AaLane.image (lane : AaLane) : Bytes :=
  leBytes 2 lane.presentMask.toNat ++ leBytes 2 lane.highlightMask.toNat

/-- The 108 bytes of `AaNav16HudState`; the two at the end are padding, which nothing
writes. -/
def AaNav16HudState.image (acc : AaNav16HudState) : Bytes :=
  leBytes 4 acc.glyph.toNat ++ (leBytes 4 acc.distDec.toUInt32.toNat ++
    (leBytes 1 acc.distUnit.toNat ++ (leBytes 1 acc.nLanes.val ++
      (acc.road.bytes ++ (acc.lanes.toList.flatMap AaLane.image ++ [0, 0])))))

theorem AaLane.image_injective : Function.Injective AaLane.image := by
  intro lane lane' h
  obtain ⟨hpresent, hhighlight⟩ := List.append_inj h (by simp)
  have hpresent := Image.leBytes_inj lane.presentMask.toNat_lt lane'.presentMask.toNat_lt hpresent
  have hhighlight :=
    Image.leBytes_inj lane.highlightMask.toNat_lt lane'.highlightMask.toNat_lt hhighlight
  cases lane
  cases lane'
  simp only [AaLane.mk.injEq]
  exact ⟨UInt16.toNat_inj.mp hpresent, UInt16.toNat_inj.mp hhighlight⟩

/-- The bytes tell accumulators apart, whatever their hidden bytes are. -/
theorem AaNav16HudState.image_inj {acc acc' : AaNav16HudState} :
    acc.image = acc'.image ↔ acc = acc' := by
  constructor
  · -- field by field, each of its own width
    intro h
    obtain ⟨hglyph, h⟩ := List.append_inj h (by simp)
    obtain ⟨hdist, h⟩ := List.append_inj h (by simp)
    obtain ⟨hunit, h⟩ := List.append_inj h (by simp)
    obtain ⟨hn, h⟩ := List.append_inj h (by simp)
    obtain ⟨hroad, h⟩ := List.append_inj h (acc.road.length_eq.trans acc'.road.length_eq.symm)
    have hlanes := List.append_cancel_right h
    have hglyph := Image.leBytes_inj acc.glyph.toNat_lt acc'.glyph.toNat_lt hglyph
    have hdist := Image.leBytes_inj acc.distDec.toUInt32.toNat_lt acc'.distDec.toUInt32.toNat_lt hdist
    have hunit := Image.leBytes_inj acc.distUnit.toNat_lt acc'.distUnit.toNat_lt hunit
    have hn := Image.leBytes_inj (n := 1) (by omega) (by omega) hn
    have hlanes := Image.flatMap_inj (n := 4) (by decide) (fun lane => by simp [AaLane.image])
      AaLane.image_injective hlanes
    cases acc
    cases acc'
    simp only [AaNav16HudState.mk.injEq]
    refine ⟨UInt32.toNat_inj.mp hglyph, ?_, UInt8.toNat_inj.mp hunit, Fin.ext hn,
      CharBuf.ext hroad, Vector.toList_inj.mp hlanes⟩
    exact congrArg UInt32.toInt32 (UInt32.toNat_inj.mp hdist)
  · rintro rfl
    rfl

/-- What `memcmp` compares decides the gate. -/
theorem shut_iff_image (g : Nav16Gate) :
    g.Shut ↔ g.haveLast = true ∧ g.acc.image = g.last.image := by
  rw [AaNav16HudState.image_inj]
  rfl

/-! ## What shows -/

/-- The lanes that count. -/
def AaNav16HudState.shownLanes (acc : AaNav16HudState) : List AaLane :=
  acc.lanes.toList.take acc.nLanes.val

/-- Equal glyph, distance, unit, road and lanes. -/
structure AaNav16HudState.SameFrame (acc acc' : AaNav16HudState) : Prop where
  glyph    : acc.glyph = acc'.glyph
  distDec  : acc.distDec = acc'.distDec
  distUnit : acc.distUnit = acc'.distUnit
  road     : acc.road.str = acc'.road.str
  lanes    : acc.shownLanes = acc'.shownLanes

instance : DecidableRel AaNav16HudState.SameFrame := fun acc acc' =>
  decidable_of_iff (acc.glyph = acc'.glyph ∧ acc.distDec = acc'.distDec ∧
      acc.distUnit = acc'.distUnit ∧ acc.road.str = acc'.road.str ∧
      acc.shownLanes = acc'.shownLanes)
    ⟨fun ⟨hglyph, hdist, hunit, hroad, hlanes⟩ => ⟨hglyph, hdist, hunit, hroad, hlanes⟩,
      fun h => ⟨h.glyph, h.distDec, h.distUnit, h.road, h.lanes⟩⟩

theorem AaNav16HudState.SameFrame.refl (acc : AaNav16HudState) : acc.SameFrame acc :=
  ⟨rfl, rfl, rfl, rfl, rfl⟩

/-- The bytes that do not show are zero: behind the road, and the lanes behind the last. -/
structure AaNav16HudState.Canonical (acc : AaNav16HudState) : Prop where
  road  : acc.road = .ofStrncpy 64 acc.road.bytes
  lanes : acc.lanes.toList = acc.shownLanes ++ List.replicate (8 - acc.nLanes.val) ({} : AaLane)

theorem ofStrncpy_congr {n : Nat} {src src' : Bytes} (h : cstr src = cstr src') :
    CharBuf.ofStrncpy n src = CharBuf.ofStrncpy n src' := by
  unfold CharBuf.ofStrncpy
  simp only [h]

/-- **Equality of the bytes is equality of what shows.** -/
theorem AaNav16HudState.Canonical.eq {acc acc' : AaNav16HudState} (h : acc.Canonical)
    (h' : acc'.Canonical) (hsame : acc.SameFrame acc') : acc = acc' := by
  have hroad : acc.road = acc'.road := by
    rw [h.road, h'.road]
    exact ofStrncpy_congr hsame.road
  -- the lanes that count are as many
  have hlength (a : AaNav16HudState) : a.shownLanes.length = a.nLanes.val := by
    unfold shownLanes
    rw [List.length_take, Vector.length_toList]
    omega
  have hn : acc.nLanes = acc'.nLanes := by
    refine Fin.ext ?_
    rw [← hlength acc, ← hlength acc', hsame.lanes]
  have hlanes : acc.lanes = acc'.lanes := by
    rw [← Vector.toList_inj, h.lanes, h'.lanes, hsame.lanes, hn]
  obtain ⟨hglyph, hdist, hunit, -, -⟩ := hsame
  cases acc
  cases acc'
  simp only [AaNav16HudState.mk.injEq]
  exact ⟨hglyph, hdist, hunit, hn, hroad, hlanes⟩

theorem image_eq_iff {acc acc' : AaNav16HudState} (h : acc.Canonical) (h' : acc'.Canonical) :
    acc.image = acc'.image ↔ acc.SameFrame acc' := by
  rw [AaNav16HudState.image_inj]
  constructor
  · rintro rfl
    exact .refl acc
  · exact h.eq h'

/-! ### What the callbacks leave -/

theorem canonical_zero : ({} : AaNav16HudState).Canonical where
  road := by decide +kernel
  lanes := by decide +kernel

theorem ofStrncpy_idem (n : Nat) (hn : 0 < n) (src : Bytes) :
    CharBuf.ofStrncpy n (CharBuf.ofStrncpy n src).bytes = .ofStrncpy n src := by
  have hstr : cstr (CharBuf.ofStrncpy n src).bytes = (cstr src).take (n - 1) :=
    CharBuf.ofStrncpy_str hn src
  unfold CharBuf.ofStrncpy at hstr ⊢
  simp only [hstr, List.take_take, Nat.min_self]

/-- `nav16_on_guidance` pads the road and zeroes the lanes that do not count. -/
theorem canonical_guidance (hudFoldLatin : Bool) (acc : AaNav16HudState) (g : AaGuidance) :
    (nav16OnGuidance hudFoldLatin acc g).Canonical where
  road := (ofStrncpy_idem 64 (by decide) _).symm
  lanes := by
    show (Vector.ofFn fun i : Fin 8 => if i.val < g.nLanes.val then g.lanes.get i else {}).toList =
      (Vector.ofFn fun i : Fin 8 =>
        if i.val < g.nLanes.val then g.lanes.get i else {}).toList.take g.nLanes.val ++
        List.replicate (8 - g.nLanes.val) ({} : AaLane)
    -- a lane below the count is the same on both sides, one above it zero
    refine List.ext_getElem ?_ fun i hi hi' => ?_
    · simp only [Vector.length_toList, List.length_append, List.length_take, List.length_replicate]
      omega
    · rw [Vector.length_toList] at hi
      by_cases hcount : i < g.nLanes.val
      · rw [List.getElem_append_left (by simp; omega), List.getElem_take]
      · rw [List.getElem_append_right (by simp; omega), List.getElem_replicate]
        simp [hcount]

/-- `nav16_on_position` writes the distance and the unit only. -/
theorem canonical_position {acc acc' : AaNav16HudState} {p : AaPosition} (h : acc.Canonical)
    (hp : nav16OnPosition acc p = some acc') : acc'.Canonical := by
  unfold nav16OnPosition at hp
  split at hp
  · obtain rfl := Option.some_inj.mp hp
    exact ⟨h.road, h.lanes⟩
  · exact absurd hp (by simp)

/-! ## What is handed to the transport -/

/-- The accumulator a callback asks `nav16_emit_if_changed` to emit. -/
def HudRx.offered (hudFoldLatin : Bool) (s : HudRx) : SinkCall → Option AaNav16HudState
  | .guidance g => some (nav16OnGuidance hudFoldLatin s.gate.acc g)
  | .position p => nav16OnPosition s.gate.acc p
  | .status _ => none

/-- The accumulator it hands to the transport, behind the gate. -/
def HudRx.handed (hudFoldLatin : Bool) (s : HudRx) (c : SinkCall) : Option AaNav16HudState :=
  (s.offered hudFoldLatin c).filter fun acc => ¬Nav16Gate.Shut { s.gate with acc }

/-- What it would emit without a gate, or a break if it clears the HUD. -/
def HudRx.items (hudFoldLatin : Bool) (s : HudRx) (c : SinkCall) : List (Option AaNav16HudState) :=
  match c with
  | .status st => if st.Clears then [none] else []
  | c => ((s.offered hudFoldLatin c).map some).toList

def callbacks (hudFoldLatin : Bool) (s : HudRx) (calls : List SinkCall) : HudRx :=
  calls.foldl (HudRx.callback hudFoldLatin) s

def handedAll (hudFoldLatin : Bool) (s : HudRx) : List SinkCall → List AaNav16HudState
  | [] => []
  | c :: calls =>
    (s.handed hudFoldLatin c).toList ++ handedAll hudFoldLatin (s.callback hudFoldLatin c) calls

def itemsAll (hudFoldLatin : Bool) (s : HudRx) : List SinkCall → List (Option AaNav16HudState)
  | [] => []
  | c :: calls =>
    s.items hudFoldLatin c ++ itemsAll hudFoldLatin (s.callback hudFoldLatin c) calls

variable {hudFoldLatin : Bool} {s : HudRx} {c : SinkCall} {calls : List SinkCall}

theorem callback_offered {acc : AaNav16HudState} (h : s.offered hudFoldLatin c = some acc) :
    s.callback hudFoldLatin c = s.emitIfChanged acc ∧ s.items hudFoldLatin c = [some acc] := by
  cases c with
  | guidance g =>
    obtain rfl := Option.some_inj.mp h
    exact ⟨rfl, rfl⟩
  | position p =>
    have hp : nav16OnPosition s.gate.acc p = some acc := h
    refine ⟨?_, ?_⟩
    · simp only [HudRx.callback, hp, Option.elim_some]
    · simp only [HudRx.items, HudRx.offered, hp, Option.map_some, Option.toList_some]
  | status st => exact absurd h (by simp [HudRx.offered])

/-- **Where the values go**: what is handed is emitted; without it the transport gets the
clear of a status or nothing. -/
theorem callback_tx (s : HudRx) (c : SinkCall) :
    (s.callback hudFoldLatin c).tx = (s.handed hudFoldLatin c).elim
      (if s.items hudFoldLatin c = [none] then s.tx.call (.status 2) else s.tx) s.tx.emit := by
  unfold HudRx.handed
  cases hoffered : s.offered hudFoldLatin c with
  | some acc =>
    obtain ⟨hcallback, hitems⟩ := callback_offered hoffered
    rw [hcallback, hitems, Option.filter_some]
    unfold HudRx.emitIfChanged
    dsimp only
    by_cases hshut : Nav16Gate.Shut { s.gate with acc }
    · -- shut: nothing is handed, and nothing emitted
      rw [if_pos hshut, if_neg (by simpa using hshut)]
      simp
    · rw [if_neg hshut, if_pos (by simpa using hshut)]
      rfl
  | none =>
    rw [Option.filter_none]
    cases c with
    | guidance g => exact absurd hoffered (by simp [HudRx.offered])
    | position p =>
      have hp : nav16OnPosition s.gate.acc p = none := hoffered
      simp only [HudRx.callback, HudRx.items, HudRx.offered, hp, Option.elim_none, Option.map_none,
        Option.toList_none]
      simp
    | status st =>
      simp only [HudRx.callback, HudRx.items]
      split <;> simp

/-! ## The gate -/

/-- The gate against the value held: the accumulator and the last value are canonical, and
the last one is there as long as something is held. -/
structure Fed (s : HudRx) (h : Option AaNav16HudState) : Prop where
  acc   : s.gate.acc.Canonical
  value : h = if s.gate.haveLast then some s.gate.last else none
  last  : s.gate.haveLast = true → s.gate.last.Canonical

theorem canonical_offered {acc : AaNav16HudState} (hacc : s.gate.acc.Canonical)
    (h : s.offered hudFoldLatin c = some acc) : acc.Canonical := by
  cases c with
  | guidance g =>
    obtain rfl := Option.some_inj.mp h
    exact canonical_guidance hudFoldLatin s.gate.acc g
  | position p => exact canonical_position hacc h
  | status st => exact absurd h (by simp [HudRx.offered])

/-- **Step lemma.** The gate passes what differs from the value held. -/
theorem Fed.step (hudFoldLatin : Bool) {h : Option AaNav16HudState} (hfed : Fed s h)
    (c : SinkCall) :
    Fed (s.callback hudFoldLatin c) (held AaNav16HudState.SameFrame h (s.items hudFoldLatin c)) ∧
      (s.handed hudFoldLatin c).toList =
        passed AaNav16HudState.SameFrame h (s.items hudFoldLatin c) := by
  unfold HudRx.handed
  cases hoffered : s.offered hudFoldLatin c with
  | some acc =>
    obtain ⟨hcallback, hitems⟩ := callback_offered hoffered
    have hacc := canonical_offered hfed.acc hoffered
    rw [hcallback, hitems, Option.filter_some, ChangeGate.passed_singleton]
    unfold HudRx.emitIfChanged
    dsimp only
    by_cases hshut : Nav16Gate.Shut { s.gate with acc }
    · -- shut: the value held is offered again
      have hboth : s.gate.haveLast = true ∧ acc = s.gate.last := hshut
      obtain ⟨hhave, heq⟩ := hboth
      have hheld : h = some s.gate.last := by rw [hfed.value, if_pos hhave]
      have hsame : s.gate.last.SameFrame acc := heq ▸ .refl acc
      rw [if_pos hshut, if_neg (by simpa using hshut), hheld]
      refine ⟨⟨hacc, ?_, hfed.last⟩, ?_⟩
      · simp [held, ChangeGate.next, hsame, hhave]
      · simp [ChangeGate.emits, hsame]
    · -- open: nothing is held, or it differs in what shows
      have hdiffers : ∀ last, h = some last → ¬last.SameFrame acc := by
        intro last hlast hsame
        have hhave : s.gate.haveLast = true := by
          by_contra hnone
          rw [hfed.value, if_neg hnone] at hlast
          exact absurd hlast (by simp)
        rw [hfed.value, if_pos hhave] at hlast
        obtain rfl := Option.some_inj.mp hlast
        exact hshut ⟨hhave, ((hfed.last hhave).eq hacc hsame).symm⟩
      have hpass : ChangeGate.emits AaNav16HudState.SameFrame h (some acc) = some acc ∧
          ChangeGate.next AaNav16HudState.SameFrame h (some acc) = some acc := by
        cases h with
        | none => exact ⟨rfl, rfl⟩
        | some last => exact ⟨if_neg (hdiffers last rfl), if_neg (hdiffers last rfl)⟩
      rw [if_neg hshut, if_pos (by simpa using hshut), hpass.1]
      refine ⟨⟨hacc, ?_, fun _ => hacc⟩, rfl⟩
      exact hpass.2
  | none =>
    rw [Option.filter_none]
    cases c with
    | guidance g => exact absurd hoffered (by simp [HudRx.offered])
    | position p =>
      -- a position without a step distance offers nothing
      have hp : nav16OnPosition s.gate.acc p = none := hoffered
      have hitems : s.items hudFoldLatin (.position p) = [] := by
        simp only [HudRx.items, HudRx.offered, hp, Option.map_none, Option.toList_none]
      have hcallback : s.callback hudFoldLatin (.position p) = s := by
        simp only [HudRx.callback, hp, Option.elim_none]
      rw [hitems, hcallback]
      exact ⟨hfed, rfl⟩
    | status st =>
      by_cases hclears : st.Clears
      · -- a clear resets the gate, and nothing is held
        have hitems : s.items hudFoldLatin (.status st) = [none] := if_pos hclears
        have hcallback : s.callback hudFoldLatin (.status st) =
            ⟨hudFeedNav16Reset s.gate, s.tx.call (.status 2)⟩ := if_pos hclears
        rw [hitems, hcallback]
        refine ⟨⟨canonical_zero, ?_, fun hhave => absurd hhave (by simp [hudFeedNav16Reset])⟩, ?_⟩
        · cases h <;> rfl
        · cases h <;> rfl
      · have hitems : s.items hudFoldLatin (.status st) = [] := if_neg hclears
        have hcallback : s.callback hudFoldLatin (.status st) = s := if_neg hclears
        rw [hitems, hcallback]
        exact ⟨hfed, rfl⟩

/-- **Run lemma.** -/
theorem Fed.run (hudFoldLatin : Bool) (calls : List SinkCall) :
    ∀ {s : HudRx} {h : Option AaNav16HudState}, Fed s h →
      (∃ h', Fed (callbacks hudFoldLatin s calls) h') ∧
        handedAll hudFoldLatin s calls =
          passed AaNav16HudState.SameFrame h (itemsAll hudFoldLatin s calls) := by
  induction calls with
  | nil => exact fun hfed => ⟨⟨_, hfed⟩, rfl⟩
  | cons c calls ih =>
    intro s h hfed
    obtain ⟨hstep, hhanded⟩ := hfed.step hudFoldLatin c
    obtain ⟨hend, hrest⟩ := ih hstep
    refine ⟨hend, ?_⟩
    rw [handedAll, itemsAll, ChangeGate.passed_append, hhanded, hrest]

theorem fed_reset (g : Nav16Gate) (tx : Tx) : Fed ⟨hudFeedNav16Reset g, tx⟩ none :=
  ⟨canonical_zero, rfl, fun h => absurd h (by simp [hudFeedNav16Reset])⟩

/-! ## The distance -/

theorem callbacks_concat (hudFoldLatin : Bool) (s : HudRx) (calls : List SinkCall) (c : SinkCall) :
    callbacks hudFoldLatin s (calls ++ [c]) =
      (callbacks hudFoldLatin s calls).callback hudFoldLatin c := List.foldl_append

theorem emitIfChanged_acc (s : HudRx) (acc : AaNav16HudState) :
    (s.emitIfChanged acc).gate.acc = acc := by
  unfold HudRx.emitIfChanged
  dsimp only
  split <;> rfl

/-- The same glyph and road. -/
def AaNav16HudState.SameManeuver (acc acc' : AaNav16HudState) : Prop :=
  acc.glyph = acc'.glyph ∧ acc.road.str = acc'.road.str

/-- A distance that shows came with a position, and from there on the maneuver has been
the one that shows. -/
def Told (hudFoldLatin : Bool) (s : HudRx) (calls : List SinkCall) : Prop :=
  (callbacks hudFoldLatin s calls).gate.acc.distDec ≠ 0 →
    ∃ before p after, calls = before ++ .position p :: after ∧ p.haveStep = true ∧
      (callbacks hudFoldLatin s calls).gate.acc.distUnit = positionUnit p ∧
      (callbacks hudFoldLatin s calls).gate.acc.distDec =
        quantizeDistX10 (parseDistX10 p.stepDisplay.bytes) (positionUnit p) ∧
      ∀ l, l <+: .position p :: after →
        (callbacks hudFoldLatin s (before ++ l)).gate.acc.SameManeuver
          (callbacks hudFoldLatin s calls).gate.acc

/-- A callback that leaves distance, unit and maneuver alone. -/
theorem Told.keep (h : Told hudFoldLatin s calls) {acc acc' : AaNav16HudState}
    (hacc : (callbacks hudFoldLatin s calls).gate.acc = acc)
    (hacc' : (callbacks hudFoldLatin s (calls ++ [c])).gate.acc = acc')
    (hdist : acc'.distDec = acc.distDec) (hunit : acc'.distUnit = acc.distUnit)
    (hsame : acc.SameManeuver acc') : Told hudFoldLatin s (calls ++ [c]) := by
  intro hne
  rw [hacc', hdist] at hne
  unfold Told at h
  rw [hacc] at h
  obtain ⟨before, p, after, hcalls, hstep, hunit', hdist', hprefix⟩ := h hne
  refine ⟨before, p, after ++ [c], ?_, hstep, ?_, ?_, fun l hl => ?_⟩
  · rw [hcalls, List.append_assoc]
    rfl
  · rw [hacc', hunit, hunit']
  · rw [hacc', hdist, hdist']
  · rw [hacc']
    rcases List.prefix_concat_iff.mp (show l <+: (.position p :: after) ++ [c] from hl) with rfl | hl
    · -- up to the new callback: it keeps the maneuver
      rw [← List.append_assoc, ← hcalls, hacc']
      exact ⟨rfl, rfl⟩
    · obtain ⟨hglyph, hroad⟩ := hprefix l hl
      exact ⟨hglyph.trans hsame.1, hroad.trans hsame.2⟩

/-- **Step lemma.** -/
theorem Told.step (h : Told hudFoldLatin s calls) (c : SinkCall) :
    Told hudFoldLatin s (calls ++ [c]) := by
  have hnext := callbacks_concat hudFoldLatin s calls c
  cases c with
  | guidance g =>
    have hacc' : (callbacks hudFoldLatin s (calls ++ [.guidance g])).gate.acc =
        nav16OnGuidance hudFoldLatin (callbacks hudFoldLatin s calls).gate.acc g := by
      rw [hnext]
      exact emitIfChanged_acc _ _
    generalize hacc : (callbacks hudFoldLatin s calls).gate.acc = acc at hacc'
    by_cases hmoved : guidanceGlyph g ≠ acc.glyph ∨
        (guidanceRoad hudFoldLatin g).str ≠ acc.road.str
    · -- another maneuver: there is no distance yet
      intro hne
      rw [hacc'] at hne
      exact absurd (if_pos hmoved) hne
    · -- the same maneuver: the distance stays with it
      refine h.keep hacc hacc' (if_neg hmoved) (if_neg hmoved) ?_
      rw [not_or, not_not, not_not] at hmoved
      refine ⟨hmoved.1.symm, ?_⟩
      show acc.road.str = (CharBuf.ofStrncpy 64 (guidanceRoad hudFoldLatin g).bytes).str
      rw [CharBuf.ofStrncpy_str (by decide)]
      show acc.road.str = (guidanceRoad hudFoldLatin g).str.take 63
      rw [hmoved.2, AaNav16HudState.take_road]
  | position p =>
    cases hp : nav16OnPosition (callbacks hudFoldLatin s calls).gate.acc p with
    | some acc =>
      have hacc : (callbacks hudFoldLatin s (calls ++ [.position p])).gate.acc = acc := by
        rw [hnext]
        simp only [HudRx.callback, hp, Option.elim_some]
        exact emitIfChanged_acc _ _
      unfold nav16OnPosition at hp
      split at hp
      · -- the position that the distance came with
        rename_i hstep
        obtain rfl := Option.some_inj.mp hp
        intro _
        refine ⟨calls, p, [], rfl, hstep, ?_, ?_, fun l hl => ?_⟩
        · rw [hacc]
        · rw [hacc]
        · -- the position leaves glyph and road alone
          rcases List.prefix_cons_iff.mp hl with rfl | ⟨t, rfl, ht⟩
          · rw [List.append_nil, hacc]
            exact ⟨rfl, rfl⟩
          · rw [List.prefix_nil.mp ht]
            exact ⟨rfl, rfl⟩
      · exact absurd hp (by simp)
    | none =>
      refine h.keep rfl rfl ?_ ?_ ?_ <;> rw [hnext] <;> simp only [HudRx.callback, hp, Option.elim_none]
      exact ⟨rfl, rfl⟩
  | status st =>
    by_cases hclears : st.Clears
    · -- a clear leaves no distance
      intro hne
      rw [hnext] at hne
      simp only [HudRx.callback, if_pos hclears] at hne
      exact absurd rfl hne
    · refine h.keep rfl rfl ?_ ?_ ?_ <;> rw [hnext] <;> simp only [HudRx.callback, if_neg hclears]
      exact ⟨rfl, rfl⟩

/-! ## Results -/

/-- **The gate is transparent.** Behind a reset, the values handed to the transport are
those of every guidance and every position with a step distance, equal neighbours
collapsed from clear to clear; each callback emits what it hands, and without it the clear of
a status or nothing. The bytes compared are equal exactly when what shows is, and a distance
that shows was received for the maneuver that shows. -/
theorem gate_transparent (hudFoldLatin : Bool) (g : Nav16Gate) (tx : Tx) (calls : List SinkCall) :
    handedAll hudFoldLatin ⟨hudFeedNav16Reset g, tx⟩ calls =
        collapse AaNav16HudState.SameFrame (itemsAll hudFoldLatin ⟨hudFeedNav16Reset g, tx⟩ calls) ∧
      (∀ c, let s := callbacks hudFoldLatin ⟨hudFeedNav16Reset g, tx⟩ calls
        (s.callback hudFoldLatin c).tx = (s.handed hudFoldLatin c).elim
          (if s.items hudFoldLatin c = [none] then s.tx.call (.status 2) else s.tx) s.tx.emit) ∧
      (∀ c acc, (callbacks hudFoldLatin ⟨hudFeedNav16Reset g, tx⟩ calls).offered hudFoldLatin c =
          some acc →
        (callbacks hudFoldLatin ⟨hudFeedNav16Reset g, tx⟩ calls).gate.haveLast = true →
        (acc.image = (callbacks hudFoldLatin ⟨hudFeedNav16Reset g, tx⟩ calls).gate.last.image ↔
          acc.SameFrame (callbacks hudFoldLatin ⟨hudFeedNav16Reset g, tx⟩ calls).gate.last)) ∧
      Told hudFoldLatin ⟨hudFeedNav16Reset g, tx⟩ calls := by
  obtain ⟨⟨h, hfed⟩, hhanded⟩ := (fed_reset g tx).run hudFoldLatin calls
  refine ⟨?_, fun c => callback_tx _ c, ?_, ?_⟩
  · rw [hhanded, ChangeGate.passed_eq_collapse]
  · intro c acc hoffered hhave
    exact image_eq_iff (canonical_offered hfed.acc hoffered) (hfed.last hhave)
  · clear hhanded hfed
    induction calls using List.reverseRecOn with
    | nil => exact fun hne => absurd rfl hne
    | append_singleton calls c ih => exact ih.step c

end OemAaMod
