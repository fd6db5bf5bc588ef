import OemAaMod.Hud.Transport

/-!
# The direct sender's diffs, put together

`send_one` of `vbs_tx.cpp` sends a maneuver frame, a street strip and a lane array,
each only when something in it is new. The HUD keeps the latest of each kind.

* `vbsSendOne_cases` — nothing, a frame alone, or a new generation;
* `VbsHud` — the latest of each kind, blank to begin with;
* `VbsRun.turn` — a turn of the loop of `sender_main`, with what has been sent;
* `vbs_diffs_mirror` — after every turn the HUD shows the snapshot that was read.
-/

namespace OemAaMod

open CStr (Bytes)

/-! ## One call -/

/-- The maneuver frame of a snapshot. -/
def vbsFrame (cur : NaviSnapshot) (sync : UInt8) : VbsNaviHudDisplay where
  nextManeuverInfo := cur.dirIcon
  distanceValue := cur.distanceDec.toUInt32.toUInt16
  distanceUnit := cur.distanceUnit
  displaySpeedLimit := 0
  displaySpeedUnit := 0
  textID3 := sync

/-- The maneuver and street frames of a generation. -/
def vbsGeneration (cur : NaviSnapshot) (sync : UInt8) : List HudMsg :=
  [.display (vbsFrame cur sync), .strip ⟨some cur.roadName.str, sync⟩]

/-- The lane array of a snapshot. -/
def vbsLanes (cur : NaviSnapshot) : List UInt8 := cur.lanes.toList.map vbsLane

/-- Road, glyph and lanes are the same; the distance may not be. -/
def SameManeuver (cur prev : NaviSnapshot) : Prop :=
  cur.roadName.str = prev.roadName.str ∧ cur.dirIcon = prev.dirIcon ∧ cur.lanes = prev.lanes

instance (cur prev : NaviSnapshot) : Decidable (SameManeuver cur prev) :=
  inferInstanceAs (Decidable (_ ∧ _ ∧ _))

/-- What a call sends, and the sync bit after it. -/
inductive VbsSent (cur prev : NaviSnapshot) (sync : UInt8) : List HudMsg × UInt8 → Prop
  | quiet (hsame : SameManeuver cur prev) (hdist : cur.distanceDec = prev.distanceDec)
      (hunit : cur.distanceUnit = prev.distanceUnit) : VbsSent cur prev sync ([], sync)
  | tick (hsame : SameManeuver cur prev) :
      VbsSent cur prev sync ([.display (vbsFrame cur sync)], sync)
  | generation (hnew : ¬SameManeuver cur prev) (hlanes : cur.lanes = prev.lanes) :
      VbsSent cur prev sync (vbsGeneration cur (sync % 7 + 1), sync % 7 + 1)
  | lanes (hnew : ¬SameManeuver cur prev) :
      VbsSent cur prev sync
        (vbsGeneration cur (sync % 7 + 1) ++ [.recommLane (vbsLanes cur)], sync % 7 + 1)

/-- **Inversion.** With a HUD present a call sends nothing, a frame in the running
generation, or a new generation with or without its lanes. -/
theorem vbsSendOne_cases (cur prev : NaviSnapshot) (sync : UInt8) :
    VbsSent cur prev sync (vbsSendOne false cur prev sync) := by
  by_cases hsame : SameManeuver cur prev
  · obtain ⟨hroad, hicon, hlanes⟩ := id hsame
    by_cases hdist : cur.distanceDec = prev.distanceDec ∧ cur.distanceUnit = prev.distanceUnit
    · have hquiet : vbsSendOne false cur prev sync = ([], sync) := by
        simp [vbsSendOne, hroad, hicon, hlanes, hdist.1, hdist.2]
      rw [hquiet]
      exact .quiet hsame hdist.1 hdist.2
    · have hchanged : cur.distanceDec ≠ prev.distanceDec ∨
          cur.distanceUnit ≠ prev.distanceUnit := by
        rwa [not_and_or] at hdist
      have htick : vbsSendOne false cur prev sync = ([.display (vbsFrame cur sync)], sync) := by
        simp [vbsSendOne, hroad, hicon, hlanes, hchanged, vbsFrame]
      rw [htick]
      exact .tick hsame
  · have hnew : (cur.roadName.str ≠ prev.roadName.str ∨ cur.dirIcon ≠ prev.dirIcon) ∨
        cur.lanes ≠ prev.lanes := by
      by_contra hall
      simp only [not_or, not_not] at hall
      exact hsame ⟨hall.1.1, hall.1.2, hall.2⟩
    -- the frames of a new generation go out; the lanes if new or if any is visible
    by_cases hlanes : cur.lanes ≠ prev.lanes ∨ ∃ i : Fin 8, cur.lanes[i] ≠ OEM_LANE_NONE
    · have hall : vbsSendOne false cur prev sync =
          (vbsGeneration cur (sync % 7 + 1) ++ [.recommLane (vbsLanes cur)], sync % 7 + 1) := by
        unfold vbsSendOne
        rw [if_neg (by simp)]
        dsimp only
        rw [if_neg (by tauto), if_pos hnew, if_pos (.inr hnew), if_pos (by tauto), if_pos (by tauto)]
        rfl
      rw [hall]
      exact .lanes hsame
    · have hframes : vbsSendOne false cur prev sync =
          (vbsGeneration cur (sync % 7 + 1), sync % 7 + 1) := by
        unfold vbsSendOne
        rw [if_neg (by simp)]
        dsimp only
        rw [if_neg (by tauto), if_pos hnew, if_pos (.inr hnew), if_pos (by tauto), if_neg (by tauto)]
        rfl
      rw [hframes]
      rw [not_or, not_not] at hlanes
      exact .generation hsame hlanes.1

/-! ## The HUD -/

/-- What the HUD has last got of each kind; blank, with its lanes hidden, to begin
with. -/
structure VbsHud where
  disp  : VbsNaviHudDisplay := ⟨0, 0, 0, 0, 0, 0⟩
  strip : Option VbsNaviHudMsg2 := none
  lanes : List UInt8 := List.replicate 8 kVbsLaneHidden

def VbsHud.receive (h : VbsHud) : HudMsg → VbsHud
  | .display disp => { h with disp }
  | .strip msg2 => { h with strip := some msg2 }
  | .recommLane lanes => { h with lanes }
  | .guidance .. => h

/-- The street shown. -/
def VbsHud.road (h : VbsHud) : Bytes := (h.strip.bind (·.guidancePointName)).getD []

/-- The HUD shows the snapshot: the distance on 16 bits, a hidden lane as 0xFF. -/
structure VbsHud.Shows (h : VbsHud) (s : NaviSnapshot) : Prop where
  glyph : h.disp.nextManeuverInfo = s.dirIcon
  dist  : (h.disp.distanceValue.toNat : Int) = s.distanceDec.toInt % 2 ^ 16
  unit  : h.disp.distanceUnit = s.distanceUnit
  road  : h.road = s.roadName.str
  lanes : h.lanes = s.lanes.toList.map fun code =>
    if code = OEM_LANE_NONE then 0xFF else oemLaneGlyph code .a

/-- Once there is a strip, it and the maneuver frame are of one generation. -/
def VbsHud.Coupled (h : VbsHud) : Prop := ∀ m, h.strip = some m → h.disp.textID3 = m.syncBit

/-! ### One call, received -/

theorem toUInt16_eq_emod (d : Int32) :
    (d.toUInt32.toUInt16.toNat : Int) = d.toInt % 2 ^ 16 := by
  have hcond := BitVec.toInt_eq_toNat_cond d.toBitVec
  have hint : d.toBitVec.toInt = d.toInt := rfl
  have hnat : d.toBitVec.toNat = d.toUInt32.toNat := rfl
  have hlt := d.toUInt32.toNat_lt
  rw [UInt32.toNat_toUInt16]
  rw [hint, hnat] at hcond
  split at hcond
  · omega
  · omega

theorem shows_blank : ({} : VbsHud).Shows {} where
  glyph := rfl
  dist := by decide
  unit := rfl
  road := by
    rw [CStr.CharBuf.zero_str]
    rfl
  lanes := by decide

/-- A frame shows the glyph and the distance of its snapshot. -/
theorem shows_of_frame {h : VbsHud} {cur : NaviSnapshot} (sync : UInt8)
    (hdisp : h.disp = vbsFrame cur sync) (hroad : h.road = cur.roadName.str)
    (hlanes : h.lanes = vbsLanes cur) : h.Shows cur where
  glyph := by rw [hdisp]; rfl
  dist := by
    rw [hdisp]
    exact toUInt16_eq_emod _
  unit := by rw [hdisp]; rfl
  road := hroad
  lanes := hlanes

/-- **Step lemma of the display**: it showed the previous snapshot and shows the
current one, whatever of the three messages is left out. -/
theorem receive_shows {h : VbsHud} {cur prev : NaviSnapshot} {sync : UInt8}
    {r : List HudMsg × UInt8} (hsent : VbsSent cur prev sync r) (hprev : h.Shows prev) :
    (r.1.foldl VbsHud.receive h).Shows cur := by
  cases hsent with
  | quiet hsame hdist hunit =>
    obtain ⟨hroad, hicon, hlanes⟩ := hsame
    refine ⟨?_, ?_, ?_, ?_, ?_⟩
    · rw [hicon]
      exact hprev.glyph
    · rw [hdist]
      exact hprev.dist
    · rw [hunit]
      exact hprev.unit
    · rw [hroad]
      exact hprev.road
    · rw [hlanes]
      exact hprev.lanes
  | tick hsame =>
    obtain ⟨hroad, -, hlanes⟩ := hsame
    refine shows_of_frame sync rfl ?_ ?_
    · rw [hroad]
      exact hprev.road
    · unfold vbsLanes
      rw [hlanes]
      exact hprev.lanes
  | generation _ hlanes =>
    refine shows_of_frame (sync % 7 + 1) rfl rfl ?_
    unfold vbsLanes
    rw [hlanes]
    exact hprev.lanes
  | lanes _ => exact shows_of_frame (sync % 7 + 1) rfl rfl rfl

/-- The next sync bit is in 1..7, and another one. -/
theorem next_sync (sync : UInt8) :
    1 ≤ sync % 7 + 1 ∧ sync % 7 + 1 ≤ 7 ∧ (sync ≤ 7 → sync % 7 + 1 ≠ sync) := by
  have hmod : (sync % 7 + 1).toNat = sync.toNat % 7 + 1 := by
    rw [UInt8.toNat_add, UInt8.toNat_mod]
    simp only [UInt8.reduceToNat]
    omega
  refine ⟨UInt8.le_iff_toNat_le.mpr ?_, UInt8.le_iff_toNat_le.mpr ?_, fun hle heq => ?_⟩
  · rw [hmod]
    simp
  · rw [hmod]
    simp only [UInt8.reduceToNat]
    omega
  · have hle := UInt8.le_iff_toNat_le.mp hle
    rw [heq] at hmod
    simp only [UInt8.reduceToNat] at hle
    omega

/-! ## The loop -/

/-- The sender, and what it has sent. -/
structure VbsRun where
  sender : Sender := {}
  sent   : List HudMsg := []

/-- One turn of the loop of `sender_main`, with the HUD present and every send
successful; `t` is what the producers have written by then. -/
def VbsRun.turn (r : VbsRun) (t : Tx) : VbsRun :=
  let next := r.sender.iterate .vbs false t
  ⟨next.1, r.sent ++ next.2⟩

def VbsRun.hud (r : VbsRun) : VbsHud := r.sent.foldl VbsHud.receive {}

/-- The sync of a street strip. -/
def HudMsg.sync? : HudMsg → Option UInt8
  | .strip msg2 => some msg2.syncBit
  | _ => none

/-- The generations, by the sync of their strips. -/
def VbsRun.generations (r : VbsRun) : List UInt8 := r.sent.filterMap HudMsg.sync?

structure VbsInv (r : VbsRun) : Prop where
  shown   : r.hud.Shows r.sender.prev
  coupled : r.hud.Coupled
  current : ∀ m, r.hud.strip = some m → m.syncBit = r.sender.syncBit
  small   : r.sender.syncBit ≤ 7
  chain   : r.generations.IsChain (· ≠ ·)
  range   : ∀ g ∈ r.generations, 1 ≤ g ∧ g ≤ 7
  last    : ∀ g ∈ r.generations.getLast?, g = r.sender.syncBit

theorem vbsInv_init : VbsInv {} where
  shown := shows_blank
  coupled := fun m h => absurd h (by simp [VbsRun.hud])
  current := fun m h => absurd h (by simp [VbsRun.hud])
  small := by decide
  chain := .nil
  range := fun g h => absurd h (by simp [VbsRun.generations])
  last := fun g h => absurd h (by simp [VbsRun.generations])

/-- **Inversion.** A turn finds nothing new, or sends what is new. -/
theorem turn_cases (r : VbsRun) (t : Tx) :
    t.seq = r.sender.lastProcessed ∧ r.sender.iterate .vbs false t = (r.sender, []) ∨
    t.seq ≠ r.sender.lastProcessed ∧ ∃ msgs sync,
      VbsSent t.snapshot r.sender.prev r.sender.syncBit (msgs, sync) ∧
      r.sender.iterate .vbs false t = (⟨t.snapshot, sync, t.seq⟩, msgs) := by
  unfold Sender.iterate
  by_cases hseq : t.seq = r.sender.lastProcessed
  · exact .inl ⟨hseq, if_neg (not_not.mpr hseq)⟩
  · exact .inr ⟨hseq, _, _, vbsSendOne_cases .., if_pos hseq⟩

theorem turn_eq {r : VbsRun} {t : Tx} {s : Sender} {msgs : List HudMsg}
    (h : r.sender.iterate .vbs false t = (s, msgs)) : r.turn t = ⟨s, r.sent ++ msgs⟩ := by
  unfold VbsRun.turn
  rw [h]

/-- A new generation, received. -/
theorem vbsInv_generation {r : VbsRun} (hinv : VbsInv r) {cur : NaviSnapshot} {seq : UInt32}
    {msgs : List HudMsg} {sync : UInt8} (hsync : sync = r.sender.syncBit % 7 + 1)
    (hgens : msgs.filterMap HudMsg.sync? = [sync])
    (hstrip : (msgs.foldl VbsHud.receive r.hud).strip = some ⟨some cur.roadName.str, sync⟩)
    (hdisp : (msgs.foldl VbsHud.receive r.hud).disp = vbsFrame cur sync)
    (hshown : (msgs.foldl VbsHud.receive r.hud).Shows cur) :
    VbsInv ⟨⟨cur, sync, seq⟩, r.sent ++ msgs⟩ := by
  obtain ⟨hone, hseven, hnext⟩ := next_sync r.sender.syncBit
  rw [← hsync] at hone hseven hnext
  have hhud : (⟨⟨cur, sync, seq⟩, r.sent ++ msgs⟩ : VbsRun).hud =
      msgs.foldl VbsHud.receive r.hud := List.foldl_append
  have hall : (⟨⟨cur, sync, seq⟩, r.sent ++ msgs⟩ : VbsRun).generations =
      r.generations ++ [sync] := by
    unfold VbsRun.generations
    rw [List.filterMap_append, hgens]
  refine ⟨?_, ?_, ?_, hseven, ?_, ?_, ?_⟩
  · rw [hhud]
    exact hshown
  · -- the maneuver frame and the strip carry one sync
    intro m hm
    rw [hhud] at hm ⊢
    rw [hstrip, Option.some_inj] at hm
    rw [← hm, hdisp]
    rfl
  · intro m hm
    rw [hhud, hstrip, Option.some_inj] at hm
    rw [← hm]
  · rw [hall, List.isChain_append]
    refine ⟨hinv.chain, .singleton _, fun g hg g' hg' => ?_⟩
    -- the last generation is the sender's, and the new one another
    rw [hinv.last g hg]
    rw [List.head?_cons, Option.mem_some_iff] at hg'
    rw [← hg']
    exact (hnext hinv.small).symm
  · -- 1..7 again, whatever the generation before
    intro g hg
    rw [hall, List.mem_append, List.mem_singleton] at hg
    rcases hg with hg | rfl
    · exact hinv.range g hg
    · exact ⟨hone, hseven⟩
  · intro g hg
    rw [hall, List.getLast?_append, List.getLast?_singleton, Option.some_or,
      Option.mem_some_iff] at hg
    exact hg.symm

/-- **Step lemma.** -/
theorem vbsInv_turn {r : VbsRun} (hinv : VbsInv r) (t : Tx) : VbsInv (r.turn t) := by
  rcases turn_cases r t with ⟨-, hidle⟩ | ⟨-, msgs, sync, hsent, hiter⟩
  · rw [turn_eq hidle, List.append_nil]
    exact hinv
  · rw [turn_eq hiter]
    have hshown := receive_shows hsent hinv.shown
    cases hsent with
    | quiet hsame hdist hunit =>
      rw [List.append_nil]
      exact ⟨hshown, hinv.coupled, hinv.current, hinv.small, hinv.chain, hinv.range, hinv.last⟩
    | tick hsame =>
      -- a frame for the distance alone, under the sync of the strip already there
      have hhud : (⟨⟨t.snapshot, r.sender.syncBit, t.seq⟩, r.sent ++ [.display
          (vbsFrame t.snapshot r.sender.syncBit)]⟩ : VbsRun).hud =
          r.hud.receive (.display (vbsFrame t.snapshot r.sender.syncBit)) := List.foldl_append
      have hall : (⟨⟨t.snapshot, r.sender.syncBit, t.seq⟩, r.sent ++ [.display
          (vbsFrame t.snapshot r.sender.syncBit)]⟩ : VbsRun).generations = r.generations := by
        unfold VbsRun.generations
        rw [List.filterMap_append]
        exact List.append_nil _
      refine ⟨?_, fun m hm => ?_, fun m hm => ?_, hinv.small, ?_, ?_, ?_⟩
      · rw [hhud]
        exact hshown
      · rw [hhud] at hm ⊢
        exact (hinv.current m hm).symm
      · rw [hhud] at hm
        exact hinv.current m hm
      · rw [hall]
        exact hinv.chain
      · rw [hall]
        exact hinv.range
      · rw [hall]
        exact hinv.last
    -- both start a generation; the lanes do not matter to it
    | generation _ _ => exact vbsInv_generation hinv rfl rfl rfl rfl hshown
    | lanes _ => exact vbsInv_generation hinv rfl rfl rfl rfl hshown

/-- The loop, over what the producers have written by each turn. -/
def vbsRun (ts : List Tx) : VbsRun := ts.foldl VbsRun.turn {}

/-- What holds of every run of the loop. -/
theorem vbsInv_run (ts : List Tx) : VbsInv (vbsRun ts) := by
  unfold vbsRun
  induction ts using List.reverseRecOn with
  | nil => exact vbsInv_init
  | append_singleton ts t ih =>
    rw [List.foldl_append]
    exact vbsInv_turn ih t

/-- A lane array comes behind the two frames of a new generation. -/
theorem lanes_behind_frames {r : VbsRun} (hinv : VbsInv r) (t : Tx) {lanes : List UInt8}
    (hmem : .recommLane lanes ∈ (r.sender.iterate .vbs false t).2) :
    ∃ disp msg2, (r.sender.iterate .vbs false t).2 =
        [.display disp, .strip msg2, .recommLane lanes] ∧
      disp.textID3 = (r.turn t).sender.syncBit ∧ msg2.syncBit = (r.turn t).sender.syncBit ∧
      (r.turn t).sender.syncBit ≠ r.sender.syncBit := by
  rcases turn_cases r t with ⟨-, hidle⟩ | ⟨-, msgs, sync, hsent, hiter⟩
  · rw [hidle] at hmem
    exact absurd hmem (by simp)
  · rw [hiter] at hmem ⊢
    rw [turn_eq hiter]
    cases hsent with
    | quiet _ _ _ => exact absurd hmem (by simp)
    | tick _ => exact absurd hmem (by simp)
    | generation _ _ => exact absurd hmem (by simp [vbsGeneration])
    | lanes _ =>
      have heq : lanes = vbsLanes t.snapshot := by simpa [vbsGeneration] using hmem
      subst heq
      -- only this send has lanes, and it starts a generation
      exact ⟨_, _, rfl, rfl, rfl, (next_sync r.sender.syncBit).2.2 hinv.small⟩

/-- A new distance alone stays in its generation. -/
theorem tick_keeps_generation {r : VbsRun} {t : Tx}
    (hsame : SameManeuver t.snapshot r.sender.prev) :
    (r.turn t).sender.syncBit = r.sender.syncBit ∧ (r.turn t).generations = r.generations := by
  rcases turn_cases r t with ⟨-, hidle⟩ | ⟨-, msgs, sync, hsent, hiter⟩
  · rw [turn_eq hidle, List.append_nil]
    exact ⟨rfl, rfl⟩
  · rw [turn_eq hiter]
    unfold VbsRun.generations
    rw [List.filterMap_append]
    cases hsent with
    | quiet _ _ _ => exact ⟨rfl, List.append_nil _⟩
    | tick _ => exact ⟨rfl, List.append_nil _⟩
    | generation hnew _ => exact absurd hsame hnew
    | lanes hnew => exact absurd hsame hnew

/-- **The diffs mirror the snapshots.** After every turn that reads a new snapshot
the HUD shows it; strip and frame are of one generation; lanes go out behind the two
frames of a new one; generations that follow each other differ; and a new distance
alone starts none. -/
theorem vbs_diffs_mirror (ts : List Tx) (t : Tx) :
    (t.seq ≠ (vbsRun ts).sender.lastProcessed → ((vbsRun ts).turn t).hud.Shows t.snapshot) ∧
    ((vbsRun ts).turn t).hud.Coupled ∧
    (∀ lanes, .recommLane lanes ∈ ((vbsRun ts).sender.iterate .vbs false t).2 →
      ∃ disp msg2, ((vbsRun ts).sender.iterate .vbs false t).2 =
          [.display disp, .strip msg2, .recommLane lanes] ∧
        disp.textID3 = ((vbsRun ts).turn t).sender.syncBit ∧
        msg2.syncBit = ((vbsRun ts).turn t).sender.syncBit ∧
        ((vbsRun ts).turn t).sender.syncBit ≠ (vbsRun ts).sender.syncBit) ∧
    (((vbsRun ts).turn t).generations.IsChain (· ≠ ·) ∧
      ∀ g ∈ ((vbsRun ts).turn t).generations, 1 ≤ g ∧ g ≤ 7) ∧
    (SameManeuver t.snapshot (vbsRun ts).sender.prev →
      ((vbsRun ts).turn t).sender.syncBit = (vbsRun ts).sender.syncBit ∧
        ((vbsRun ts).turn t).generations = (vbsRun ts).generations) := by
  have hinv := vbsInv_run ts
  have hinv' := vbsInv_turn hinv t
  refine ⟨fun hseq => ?_, hinv'.coupled, fun lanes hmem => lanes_behind_frames hinv t hmem,
    ⟨hinv'.chain, hinv'.range⟩, tick_keeps_generation⟩
  rcases turn_cases (vbsRun ts) t with ⟨heq, -⟩ | ⟨-, msgs, sync, hsent, hiter⟩
  · exact absurd heq hseq
  · have hshown := hinv'.shown
    rw [turn_eq hiter] at hshown ⊢
    exact hshown

/-- A left turn with a lane, then only its distance. -/
theorem vbs_diffs_mirror_left_turn :
    let turn : Tx := ⟨{ dirIcon := 2, distanceDec := 70000, lanes := .replicate 8 1 }, 2, true⟩
    let tick : Tx := ⟨{ dirIcon := 2, distanceDec := 69000, lanes := .replicate 8 1 }, 4, true⟩
    ((vbsRun [turn]).turn tick).hud.Shows tick.snapshot ∧
      ((vbsRun [turn]).turn tick).sender.syncBit = (vbsRun [turn]).sender.syncBit ∧
      ∃ disp msg2, ((vbsRun []).sender.iterate .vbs false turn).2 =
        [.display disp, .strip msg2, .recommLane (List.replicate 8 1)] := by
  intro turn tick
  refine ⟨(vbs_diffs_mirror [turn] tick).1 (by decide +kernel),
    ((vbs_diffs_mirror [turn] tick).2.2.2.2 (by decide +kernel)).1, ?_⟩
  obtain ⟨disp, msg2, hmsgs, -⟩ :=
    (vbs_diffs_mirror [] turn).2.2.1 (List.replicate 8 1) (by decide +kernel)
  exact ⟨disp, msg2, hmsgs⟩

end OemAaMod
