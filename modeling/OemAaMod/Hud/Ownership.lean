import OemAaMod.Hud.Callback
import OemAaMod.Hud.Pipeline
import OemAaMod.Merge.Hook

/-!
# Live guidance and the blanking frame

Over the svcnavi transport the frames of a session go out as signals, which
svcjcinavi hands to the merge hook; the hook takes the icon 0 for the end of
guidance. Guidance is live from a `next_turn` that was written until the next STOP
or clear.

* `OwnState`, `ownStep` — the pipeline with 1.5 callbacks, the signals on the bus,
  and the hook;
* `Blanks` — the two steps that put the icon 0 under live guidance: a 1.5 turn
  without a glyph, and a distance handled before the first guidance;
* `ownership_kept` — in the runs without them no live frame has the icon 0, and the
  hook keeps ownership.
-/

namespace OemAaMod

/-! ## The system -/

structure OwnState where
  pipe     : PipeState := {}
  /-- A `next_turn` was written since the last STOP or clear. -/
  live     : Bool := false
  /-- A 0x8006 was handled since the last reset. -/
  guided   : Bool := false
  /-- The signals on the bus, oldest first; with each, whether guidance was live. -/
  bus      : List (HudMsg × Bool) := []
  merge    : MergeState := {}
  /-- That of the last signal that came to the hook. -/
  lastLive : Option Bool := none

inductive OwnAction
  /-- The 1.6 callbacks and the sender. -/
  | pipe (a : PipeAction)
  /-- A 1.5 callback. -/
  | nav (e : NavEvent)
  /-- svcjcinavi calls the hook for the next signal. -/
  | signal (now : Int) (disp : VbsNaviHudDisplay)
  /-- svcjcinavi's other calls. -/
  | other (c : MergeCall)

/-- The frame svcjcinavi makes of a signal: its icon, and the AAP speed. -/
def IsFrameOf (m : HudMsg) (disp : VbsNaviHudDisplay) : Prop :=
  match m with
  | .guidance icon .. => disp.nextManeuverInfo.toInt32 = icon ∧ isAapFrame disp = true
  | _ => False

instance (m : HudMsg) (disp : VbsNaviHudDisplay) : Decidable (IsFrameOf m disp) :=
  match m with
  | .guidance .. => inferInstanceAs (Decidable (_ ∧ _))
  | .display _ | .strip _ | .recommLane _ => inferInstanceAs (Decidable False)

/-- The other calls: frames of the OEM's own, and strips. -/
def MergeCall.IsOther : MergeCall → Prop
  | .frame _ disp => isAapFrame disp = false
  | .strip .. => True

instance : (c : MergeCall) → Decidable c.IsOther
  | .frame .. => inferInstanceAs (Decidable (_ = _))
  | .strip .. => inferInstanceAs (Decidable True)

/-- Whether guidance is live after a call on a live pipeline. -/
def TxCall.live (live : Bool) : TxCall → Bool
  | .status st => if st ≠ 1 then false else live
  | .nextTurn .. => true
  | .distance .. | .lanes _ => live

/-- The call the rx thread is about to make. -/
def PipeState.nextCall (s : PipeState) : Option TxCall :=
  match s.rx with
  | .nextTurn => some (nextTurnCall s.gate.acc)
  | .distance => some (distanceCall s.gate.acc)
  | .lanes => some (lanesCall s.gate.acc)
  | .clear => some (.status 2)
  | .idle | .record | .reset => none

def OwnState.liveAfter (s : OwnState) (c : TxCall) : Bool :=
  if s.pipe.tx.active then c.live s.live else s.live

/-- Whether guidance is live after a step of the pipeline. -/
def OwnState.liveNext (s : OwnState) : PipeAction → Bool
  | .rx => (s.pipe.nextCall.map s.liveAfter).getD s.live
  | .guidance _ | .position _ | .status _ | .activate | .iterate _ => s.live

def OwnState.guidedNext (s : OwnState) : PipeAction → Bool
  | .guidance _ => true
  | .rx => s.guided && decide (s.pipe.rx ≠ .reset)
  | .position _ | .status _ | .activate | .iterate _ => s.guided

/-- What a step of the pipeline sent. -/
def PipeState.newSent (s s' : PipeState) : List HudMsg := (s'.sent.drop s.sent.length).flatten

def ownStep (gate : Gate) (hudFoldLatin : Bool) (s : OwnState) : OwnAction → Option OwnState
  | .pipe a =>
    (pipeStep hudFoldLatin .svcnavi s.pipe a).map fun pipe =>
      { s with
        pipe
        live := s.liveNext a
        guided := s.guidedNext a
        bus := s.bus ++ (s.pipe.newSent pipe).map fun m => (m, s.live) }
  | .nav e =>
    match ourNavCb hudFoldLatin false e with
    | some c => some { s with
        pipe := { s.pipe with tx := s.pipe.tx.call c }
        live := s.liveAfter c }
    | none => some s
  | .signal now disp =>
    match s.bus with
    | [] => none
    | (m, live) :: bus =>
      if IsFrameOf m disp then some { s with
        bus
        merge := (MergeCall.frame now disp).step gate s.merge
        lastLive := some live }
      else none
  | .other c => if c.IsOther then some { s with merge := c.step gate s.merge } else none

/-! ## The icon 0 -/

/-- The steps that give a live guidance the icon 0. -/
def Blanks (s : OwnState) : OwnAction → Prop
  | .nav (.nextTurn _ side event angle _) => NoGlyph event side angle
  | .pipe (.position p) => p.haveStep = true ∧ s.guided = false
  | _ => False

instance (s : OwnState) : (a : OwnAction) → Decidable (Blanks s a)
  | .nav (.nextTurn ..) => inferInstanceAs (Decidable (NoGlyph ..))
  | .nav (.status _) | .nav (.distance ..) | .nav (.unknown _) => inferInstanceAs (Decidable False)
  | .pipe (.position _) => inferInstanceAs (Decidable (_ ∧ _))
  | .pipe (.guidance _) | .pipe (.status _) | .pipe .rx | .pipe .activate | .pipe (.iterate _) =>
    inferInstanceAs (Decidable False)
  | .signal .. | .other _ => inferInstanceAs (Decidable False)

/-- The icon of a signal is not 0. -/
def HudMsg.HasIcon (m : HudMsg) : Prop :=
  match m with
  | .guidance icon .. => icon ≠ 0
  | _ => False

instance : (m : HudMsg) → Decidable m.HasIcon
  | .guidance .. => inferInstanceAs (Decidable (_ ≠ _))
  | .display _ | .strip _ | .recommLane _ => inferInstanceAs (Decidable False)

/-- What the hook relies on: a frame sent under live guidance has an icon, and
after such a frame the hook has ownership. -/
structure Owned (s : OwnState) : Prop where
  icon  : ∀ x ∈ s.bus, x.2 = true → x.1.HasIcon
  owned : s.lastLive = some true → s.merge.haveAap = true

instance (s : OwnState) : Decidable (Owned s) :=
  decidable_of_iff ((∀ x ∈ s.bus, x.2 = true → x.1.HasIcon) ∧
    (s.lastLive = some true → s.merge.haveAap = true))
    ⟨fun h => ⟨h.1, h.2⟩, fun h => ⟨h.icon, h.owned⟩⟩

structure OwnInv (s : OwnState) : Prop extends Owned s where
  snap   : s.live = true → s.pipe.tx.snapshot.dirIcon ≠ 0
  /-- Once guided, the accumulator has a glyph; and only then is it written. -/
  guided : s.guided = true → s.pipe.gate.acc.glyph ≠ 0
  calls  : s.pipe.rx = .nextTurn → s.pipe.gate.acc.glyph ≠ 0

variable {gate : Gate} {hudFoldLatin : Bool} {s s' : OwnState}

theorem ownInv_init : OwnInv {} :=
  ⟨⟨fun _ h => absurd h (by simp), fun h => absurd h (by simp)⟩, fun h => absurd h (by simp),
    fun h => absurd h (by simp), fun h => absurd h (by simp)⟩

/-! ## Calls -/

/-- The icon after a call that is written. -/
theorem call_dirIcon (t : Tx) (c : TxCall) (hlive : t.active = true) :
    (t.call c).snapshot.dirIcon =
      match c with
      | .status st => if st ≠ 1 then 0 else t.snapshot.dirIcon
      | .nextTurn _ icon => icon
      | .distance .. | .lanes _ => t.snapshot.dirIcon := by
  have hglyph : (t.call c).snapshot.dirIcon = (c.apply t.snapshot.view).glyph :=
    congrArg View.glyph (Tx.call_view t c hlive)
  rw [hglyph]
  cases c with
  | status st =>
    by_cases h : st = 1
    · simp [TxCall.apply, h, NaviSnapshot.view]
    · simp [TxCall.apply, h, View.blank]
  | nextTurn road icon => rfl
  | distance dec unit => rfl
  | lanes codes => rfl

/-- A call keeps live guidance off the icon 0 if it brings no icon 0. -/
theorem snap_call (hsnap : s.live = true → s.pipe.tx.snapshot.dirIcon ≠ 0) {c : TxCall}
    (hicon : ∀ road icon, c = .nextTurn road icon → icon ≠ 0) :
    s.liveAfter c = true → (s.pipe.tx.call c).snapshot.dirIcon ≠ 0 := by
  unfold OwnState.liveAfter
  -- a call to an inactive transport is dropped, and live stays what it was
  cases hactive : s.pipe.tx.active with
  | false =>
    rw [if_neg (by simp), Tx.call_inactive _ _ hactive]
    exact hsnap
  | true =>
    rw [if_pos rfl, call_dirIcon _ _ hactive]
    intro hlive
    cases c with
    -- a start keeps the snapshot, any other status ends the live guidance
    | status st =>
      by_cases h : st = 1
      · simp only [TxCall.live, h, ne_eq, not_true_eq_false, if_false] at hlive ⊢
        exact hsnap hlive
      · simp [TxCall.live, h] at hlive
    | nextTurn road icon => exact hicon road icon rfl
    | distance dec unit => exact hsnap hlive
    | lanes codes => exact hsnap hlive

/-! ## Frames -/

theorem toInt32_ne_zero {x : UInt32} (h : x ≠ 0) : x.toInt32 ≠ 0 := by
  intro hzero
  exact h (congrArg Int32.toUInt32 hzero)

/-- What a turn of the svcnavi sender sends has the icon of the snapshot. -/
theorem iterate_hasIcon {hudAbsent : Bool} {t : Tx} {sender : Sender}
    (hsnap : t.snapshot.dirIcon ≠ 0) :
    ∀ m ∈ (sender.iterate .svcnavi hudAbsent t).2, m.HasIcon := by
  intro m hm
  unfold Sender.iterate at hm
  split at hm
  · have hm : m = _ := List.mem_singleton.mp hm
    subst hm
    exact toInt32_ne_zero hsnap
  · exact absurd hm (by simp)

/-- An AAP frame with an icon takes ownership. -/
theorem frame_step_haveAap (hen : gate.enabled = true) (hset : gate.realSet = true)
    (ms : MergeState) (now : Int) {disp : VbsNaviHudDisplay} (haap : isAapFrame disp = true)
    (hicon : disp.nextManeuverInfo ≠ 0) :
    ((MergeCall.frame now disp).step gate ms).haveAap = true := by
  show (vbsNaviSetHUDDisplayMsgReq gate ms now (some disp)).1.haveAap = true
  rw [vbsNaviSetHUDDisplayMsgReq_open hen hset]
  simp [mergeFrame, haap, hicon]

/-- svcjcinavi's other calls leave the ownership. -/
theorem other_step_haveAap (ms : MergeState) {c : MergeCall} (hother : c.IsOther) :
    (c.step gate ms).haveAap = ms.haveAap := by
  cases c with
  | frame now disp =>
    have hoem : isAapFrame disp = false := hother
    show (vbsNaviSetHUDDisplayMsgReq gate ms now (some disp)).1.haveAap = _
    unfold vbsNaviSetHUDDisplayMsgReq
    split
    · rename_i hdisp
      obtain rfl := Option.some_inj.mp hdisp
      simp only [mergeFrame, hoem, Bool.false_eq_true, if_false]
      split <;> rfl
    · rfl
  | strip cur msg2 =>
    obtain ⟨street, hstrip⟩ := strip_step_state gate ms cur msg2
    rw [hstrip]

/-! ## Steps -/

/-- Only a turn of the sender sends. -/
theorem newSent_eq_nil {p p' : PipeState} (h : p'.sent = p.sent) : p.newSent p' = [] := by
  simp [PipeState.newSent, h]

/-- A step of the pipeline that sends nothing. -/
theorem ownInv_silent (hinv : OwnInv s) {p : PipeState} {live guided : Bool}
    (hsent : p.sent = s.pipe.sent) (hsnap : live = true → p.tx.snapshot.dirIcon ≠ 0)
    (hguided : guided = true → p.gate.acc.glyph ≠ 0)
    (hcalls : p.rx = .nextTurn → p.gate.acc.glyph ≠ 0) :
    OwnInv { s with
      pipe := p
      live
      guided
      bus := s.bus ++ (s.pipe.newSent p).map fun m => (m, s.live) } := by
  rw [newSent_eq_nil hsent, List.map_nil, List.append_nil]
  exact ⟨⟨hinv.icon, hinv.owned⟩, hsnap, hguided, hcalls⟩

/-- The rx thread's own steps: the one before a `next_turn` has a glyph to give. -/
theorem ownInv_advance (hinv : OwnInv s) {p : PipeState} (hstep : s.pipe.advance = some p) :
    OwnInv { s with
      pipe := p
      live := s.liveNext .rx
      guided := s.guidedNext .rx
      bus := s.bus ++ (s.pipe.newSent p).map fun m => (m, s.live) } := by
  have hsent := advance_sent hstep
  unfold OwnState.liveNext OwnState.guidedNext PipeState.nextCall
  cases callbackStep_of_advance hstep with
  | nextTurn hrx =>
    simp only [hrx, ne_eq, reduceCtorEq, not_false_eq_true, decide_true, Bool.and_true]
    refine ownInv_silent hinv hsent ?_ hinv.guided fun h => absurd h (by simp)
    refine snap_call hinv.snap ?_
    rintro road icon hcall
    obtain ⟨-, rfl⟩ := TxCall.nextTurn.inj hcall
    exact hinv.calls hrx
  | distance hrx =>
    simp only [hrx, ne_eq, reduceCtorEq, not_false_eq_true, decide_true, Bool.and_true]
    refine ownInv_silent hinv hsent ?_ hinv.guided fun h => absurd h (by simp)
    exact snap_call hinv.snap fun _ _ h => absurd h (by simp [distanceCall])
  | lanes hrx =>
    simp only [hrx, ne_eq, reduceCtorEq, not_false_eq_true, decide_true, Bool.and_true]
    refine ownInv_silent hinv hsent ?_ hinv.guided fun h => absurd h (by simp)
    exact snap_call hinv.snap fun _ _ h => absurd h (by simp [lanesCall])
  | record hrx =>
    simp only [hrx, ne_eq, reduceCtorEq, not_false_eq_true, decide_true, Bool.and_true]
    exact ownInv_silent hinv hsent hinv.snap hinv.guided fun h => absurd h (by simp)
  | clear hrx =>
    simp only [hrx, ne_eq, reduceCtorEq, not_false_eq_true, decide_true, Bool.and_true]
    refine ownInv_silent hinv hsent ?_ hinv.guided fun h => absurd h (by simp)
    exact snap_call hinv.snap fun _ _ h => absurd h (by simp)
  | reset hrx =>
    -- back to an accumulator that was not guided
    simp only [hrx, ne_eq, not_true_eq_false, decide_false, Bool.and_false]
    exact ownInv_silent hinv hsent hinv.snap (fun h => absurd h (by simp))
      fun h => absurd h (by simp)

/-- A turn of the sender sends frames with the icon of the snapshot. -/
theorem ownInv_iterate (hinv : OwnInv s) {sender : Sender} {hudAbsent : Bool} {p : PipeState}
    (htx : p.tx = s.pipe.tx) (hgate : p.gate = s.pipe.gate) (hrx : p.rx = s.pipe.rx)
    (hsent : p.sent = if s.pipe.tx.seq ≠ sender.lastProcessed then
      s.pipe.sent ++ [(sender.iterate .svcnavi hudAbsent s.pipe.tx).2] else s.pipe.sent) :
    OwnInv { s with
      pipe := p
      bus := s.bus ++ (s.pipe.newSent p).map fun m => (m, s.live) } := by
  refine ⟨⟨fun x hx hlive => ?_, hinv.owned⟩, htx ▸ hinv.snap, hgate ▸ hinv.guided,
    hrx ▸ hgate ▸ hinv.calls⟩
  -- a frame already on the bus, or one of this turn
  rcases List.mem_append.mp hx with hold | hnew
  · exact hinv.icon x hold hlive
  · obtain ⟨m, hm, rfl⟩ := List.mem_map.mp hnew
    have hm : m ∈ (sender.iterate .svcnavi hudAbsent s.pipe.tx).2 := by
      unfold PipeState.newSent at hm
      rw [hsent] at hm
      split at hm
      · simpa using hm
      · simp at hm
    exact iterate_hasIcon (hinv.snap hlive) m hm

/-- A step of the pipeline. -/
theorem ownInv_pipe (hinv : OwnInv s) {a : PipeAction} (hguard : ¬Blanks s (.pipe a))
    {p : PipeState} (hstep : pipeStep hudFoldLatin .svcnavi s.pipe a = some p) :
    OwnInv { s with
      pipe := p
      live := s.liveNext a
      guided := s.guidedNext a
      bus := s.bus ++ (s.pipe.newSent p).map fun m => (m, s.live) } := by
  cases pipeSteps_of_pipeStep hstep with
  | @guidance g =>
    have hglyph := guidanceGlyph_ne_zero g
    exact ownInv_silent hinv rfl hinv.snap (fun _ => hglyph) (fun _ => hglyph)
  | @position q acc _ hq =>
    simp only [nav16OnPosition, Option.ite_none_right_eq_some, Option.some_inj] at hq
    obtain ⟨hnear, rfl⟩ := hq
    -- a distance keeps the glyph, and the guard has it after a guidance
    have hguid : s.guided = true := by
      by_contra hnot
      exact hguard ⟨hnear, by simpa using hnot⟩
    have hglyph := hinv.guided hguid
    exact ownInv_silent hinv rfl hinv.snap (fun _ => hglyph) (fun _ => hglyph)
  | positionIgnored | statusIgnored | activate =>
    exact ownInv_silent hinv rfl hinv.snap hinv.guided hinv.calls
  | clears => exact ownInv_silent hinv rfl hinv.snap hinv.guided (fun h => absurd h (by simp))
  -- the rx thread sends nothing: its calls change the snapshot
  | rx hadvance => exact ownInv_advance hinv hadvance
  | iterate => exact ownInv_iterate hinv rfl rfl rfl rfl

/-- The icon of a 1.5 turn that has a glyph. -/
theorem ourNavCb_icon {e : NavEvent} (hguard : ¬Blanks s (.nav e)) {c : TxCall}
    (hcall : ourNavCb hudFoldLatin false e = some c) :
    ∀ road icon, c = .nextTurn road icon → icon ≠ 0 := by
  rintro road icon rfl
  simp only [ourNavCb, Bool.false_eq_true, if_false] at hcall
  cases e with
  | status st => exact absurd hcall (by simp)
  | nextTurn road' side event angle number =>
    have hicon : icon = computeTurnIcon (decodeTurnEvent event) side angle := by
      -- folded or not, and with a name or without: the icon is the same
      simp only [hudTxNextTurn, Option.some_inj] at hcall
      split at hcall
      · split at hcall
        · exact (TxCall.nextTurn.inj hcall).2.symm
        · exact (TxCall.nextTurn.inj hcall).2.symm
      · exact (TxCall.nextTurn.inj hcall).2.symm
    rw [hicon]
    intro hzero
    exact hguard ((noGlyph_iff event side angle).mp hzero)
  | distance d t dd u => exact absurd hcall (by simp [hudTxDistance])
  | unknown tag => exact absurd hcall (by simp)

/-- **Step lemma.** -/
theorem ownInv_step (hen : gate.enabled = true) (hset : gate.realSet = true) {a : OwnAction}
    (hinv : OwnInv s) (hguard : ¬Blanks s a) (hstep : ownStep gate hudFoldLatin s a = some s') :
    OwnInv s' := by
  cases a with
  | pipe a =>
    simp only [ownStep, Option.map_eq_some_iff] at hstep
    obtain ⟨p, hpipe, rfl⟩ := hstep
    exact ownInv_pipe hinv hguard hpipe
  | nav e =>
    simp only [ownStep] at hstep
    split at hstep
    · rename_i c hcall
      rw [Option.some_inj] at hstep
      subst hstep
      exact ⟨⟨hinv.icon, hinv.owned⟩, snap_call hinv.snap (ourNavCb_icon hguard hcall),
        hinv.guided, hinv.calls⟩
    · rw [Option.some_inj] at hstep
      exact hstep ▸ hinv
  | signal now disp =>
    simp only [ownStep] at hstep
    split at hstep
    · exact absurd hstep (by simp)
    · rename_i m live bus hbus
      simp only [Option.ite_none_right_eq_some, Option.some_inj] at hstep
      obtain ⟨hcarries, rfl⟩ := hstep
      refine ⟨⟨fun x hx => hinv.icon x (by rw [hbus]; exact .tail _ hx), fun hlast => ?_⟩,
        hinv.snap, hinv.guided, hinv.calls⟩
      -- the signal at the head was sent under live guidance, so it has an icon
      have hlive : live = true := Option.some_inj.mp hlast
      have hicon : m.HasIcon := hinv.icon (m, live) (by rw [hbus]; exact .head _) hlive
      cases m with
      | guidance icon dist unit street limit speedUnit lanes =>
        obtain ⟨hsame, haap⟩ := hcarries
        refine frame_step_haveAap hen hset _ now haap ?_
        intro hzero
        rw [hzero] at hsame
        exact hicon hsame.symm
      | display disp' => exact absurd hicon id
      | strip msg2 => exact absurd hicon id
      | recommLane wire => exact absurd hicon id
  | other c =>
    simp only [ownStep, Option.ite_none_right_eq_some, Option.some_inj] at hstep
    obtain ⟨hother, rfl⟩ := hstep
    refine ⟨⟨hinv.icon, fun hlast => ?_⟩, hinv.snap, hinv.guided, hinv.calls⟩
    -- the OEM's own frames change the speed only
    rw [other_step_haveAap _ hother]
    exact hinv.owned hlast

/-! ## Ownership -/

/-- The frame svcjcinavi makes of a signal with this icon. -/
def aapDisplay (icon : UInt32) : VbsNaviHudDisplay :=
  { nextManeuverInfo := icon
    distanceValue := 0
    distanceUnit := 0
    displaySpeedLimit := kAapSpeedSentinel
    displaySpeedUnit := 0
    textID3 := 0 }

/-- A turn, and then the 1.5 event ROUNDABOUT_ENTER, each sent and merged. -/
def roundaboutEnter : List OwnAction :=
  [.pipe .activate, .nav (.nextTurn (some [65, 0]) 1 4 0 0), .pipe (.iterate false),
    .signal 0 (aapDisplay 2), .nav (.nextTurn (some [65, 0]) 1 11 0 0), .pipe (.iterate false),
    .signal 1 (aapDisplay 0)]

/-- The hook takes a live turn without a glyph for the end of guidance. -/
theorem ownership_lost_by_blank_icon : ¬∀ gate hudFoldLatin s, gate.enabled = true →
    gate.realSet = true → Run.Reach (ownStep gate hudFoldLatin) (fun _ _ => True) {} s →
    Owned s := by
  intro h
  obtain ⟨s, hreach, hlost⟩ : ∃ s, Run.Reach (ownStep ⟨true, true, true, true⟩ false)
      (fun _ _ => True) {} s ∧ ¬Owned s :=
    Run.Reach.exists_of_replay roundaboutEnter (by decide +kernel)
  exact hlost (h ⟨true, true, true, true⟩ false s rfl rfl hreach)

/-- **Live guidance keeps its icon and the hook its ownership** in every run whose
1.5 turns have a glyph and whose 1.6 distances come after a guidance. -/
theorem ownership_kept (gate : Gate) (hen : gate.enabled = true) (hset : gate.realSet = true)
    (hudFoldLatin : Bool) :
    ∀ s, Run.Reach (ownStep gate hudFoldLatin) (fun s a => ¬Blanks s a) {} s → Owned s := by
  intro s h
  have hinv : OwnInv s :=
    Run.Reach.invariant ownInv_init (fun _ _ _ hi hg hs => ownInv_step hen hset hi hg hs) h
  exact hinv.toOwned

/-- A turn with a glyph, merged, and another on the bus. -/
theorem ownership_kept_example :
    ∃ s, Owned s ∧ s.lastLive = some true ∧ s.bus.length = 1 := by
  obtain ⟨s, hreach, hend⟩ : ∃ s, Run.Reach (ownStep ⟨true, true, true, true⟩ false)
      (fun s a => ¬Blanks s a) {} s ∧ (s.lastLive = some true ∧ s.bus.length = 1) :=
    Run.Reach.exists_of_replay
      [.pipe .activate, .nav (.nextTurn (some [65, 0]) 1 4 0 0), .pipe (.iterate false),
        .signal 0 (aapDisplay 2), .nav (.nextTurn (some [66, 0]) 0 4 0 0),
        .pipe (.iterate false)] (by decide +kernel)
  exact ⟨s, ownership_kept ⟨true, true, true, true⟩ rfl rfl false s hreach, hend⟩

end OemAaMod
