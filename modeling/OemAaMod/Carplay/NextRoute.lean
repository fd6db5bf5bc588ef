import OemAaMod.Carplay.NavOff

/-!
# A clear and the next route

A clear ends with the sender's bookkeeping: it drops `g_have_guidance` and takes
the snapshot, whatever it holds by then, for processed. A maneuver published in
between is the next route's.

* `RouteState`, `routeStep` — the sender, with the maneuver the HUD shows and
  whether one was published since a request was last taken;
* `Mirror` — the HUD shows the maneuver of `prev`, up to the send in progress;
* `Swallows` — the steps that lose the maneuver;
* `route_shown` — without them it is still to be processed, or shown.
-/

namespace OemAaMod.Carplay

open CStr (Bytes)

/-! ## The system -/

structure RouteState where
  hud   : HudState := {}
  /-- A maneuver was published since a request was last taken, and its route has
  not ended. -/
  fresh : Bool := false
  face  : Face := .blank

/-- The sender is about to take a request. -/
def HudState.Takes (s : HudState) : Prop :=
  (s.pc = .takeFull ∧ s.fullclearReq = true) ∨ (s.pc = .takeNav ∧ s.clearReq = true)

instance (s : HudState) : Decidable s.Takes := inferInstanceAs (Decidable (_ ∧ _ ∨ _ ∧ _))

def RouteState.freshAfter (s : RouteState) : HudAction → Bool
  | .nextTurn .. => true
  | .status st => s.fresh && decide (st = 1)
  | .sender => s.fresh && decide ¬s.hud.Takes
  | _ => s.fresh

/-- The face after a message. -/
def Face.after (f : Face) : HudMsg → Face
  | .display disp => { f with icon := disp.nextManeuverInfo }
  | .strip msg2 => { f with street := msg2.guidancePointName.getD [] }
  | .guidance .. | .recommLane _ => f

def RouteState.faceAfter (s : RouteState) (a : HudAction) : Face :=
  (s.hud.output a).elim s.face s.face.after

def routeStep (cfg : Config) (s : RouteState) (a : HudAction) : Option RouteState :=
  (hudStep cfg s.hud a).map fun hud =>
    { hud
      fresh := s.freshAfter a
      face := s.faceAfter a }

/-- At the wait, with no clear pending, the maneuver is still to be processed or it is
shown, and guidance is on. -/
def RouteShown (cfg : Config) (s : RouteState) : Prop :=
  s.hud.pc = .waiting → s.hud.rx = .idle → s.hud.clearReq = false → s.hud.fullclearReq = false →
    s.fresh = true →
      (s.hud.seq ≠ s.hud.vars.lastProcessed ∨ s.face = s.hud.snapshot.face cfg) ∧
        s.hud.haveGuidance = true

instance (cfg : Config) (s : RouteState) : Decidable (RouteShown cfg s) :=
  inferInstanceAs (Decidable (_ → _ → _ → _ → _ → (_ ∨ _) ∧ _))

/-- Sends succeed, and the HUD is not reported absent. -/
def Sends (a : HudAction) : Prop := a ≠ .call false ∧ a ≠ .hudStatus 0

instance (a : HudAction) : Decidable (Sends a) := inferInstanceAs (Decidable (_ ∧ _))

/-- The place is inside the handling of a clear. -/
def SenderPc.InClear : SenderPc → Prop
  | .msg1 job | .msg2 job => job = .clear ∨ job = .keepSign
  | .storeHave _ | .resetPrev _ | .reload => True
  | _ => False

instance : (pc : SenderPc) → Decidable pc.InClear
  | .msg1 _ | .msg2 _ => inferInstanceAs (Decidable (_ ∨ _))
  | .storeHave _ | .resetPrev _ | .reload => inferInstanceAs (Decidable True)
  | .startup | .reading | .painting | .takeFull | .takeNav | .navReset | .rest | .waiting =>
    inferInstanceAs (Decidable False)

/-- A clear is being handled: its request is taken, the snapshot not yet marked. -/
def HudState.Clearing (s : HudState) : Prop :=
  s.pc.InClear ∨ (s.pc = .takeNav ∧ s.vars.fullReq = true)

instance (s : HudState) : Decidable s.Clearing := inferInstanceAs (Decidable (_ ∨ _ ∧ _))

/-- The sender has read, and not yet processed what it read. -/
def SenderPc.HasRead (pc : SenderPc) : Prop :=
  pc = .painting ∨ pc = .msg1 .paint ∨ pc = .msg2 .paint

instance (pc : SenderPc) : Decidable pc.HasRead := inferInstanceAs (Decidable (_ ∨ _ ∨ _))

/-- The next write brings the sequence number round to one the sender knows. -/
def HudState.Wraps (s : HudState) : Prop :=
  s.seq + 2 = s.vars.lastProcessed ∨ (s.pc.HasRead ∧ s.seq + 2 = s.vars.s2)

instance (s : HudState) : Decidable s.Wraps := inferInstanceAs (Decidable (_ ∨ _ ∧ _))

/-- The steps that lose a maneuver: it is published inside a clear; or, with the speed
limit on, the sender reads it and looks at `g_have_guidance` before it is set; or the
sequence number wraps. -/
def Swallows (cfg : Config) (s : RouteState) : HudAction → Prop
  | .nextTurn .. => s.hud.Clearing ∨ s.hud.Wraps
  | .distance .. => s.fresh = true ∧ s.hud.Wraps
  | .sender => s.fresh = true ∧ s.hud.pc = .painting ∧ cfg.speedLimit = true ∧
      s.hud.haveGuidance = false ∧ s.hud.vars.s2 = s.hud.seq
  | _ => False

instance (cfg : Config) (s : RouteState) : (a : HudAction) → Decidable (Swallows cfg s a)
  | .nextTurn .. => inferInstanceAs (Decidable (_ ∨ _))
  | .distance .. => inferInstanceAs (Decidable (_ ∧ _))
  | .sender => inferInstanceAs (Decidable (_ ∧ _ ∧ _ ∧ _ ∧ _))
  | .status _ | .rx | .requestClear | .requestFullclear | .tick | .hudStatus _ | .read ..
  | .call _ => inferInstanceAs (Decidable False)

/-! ## The HUD shows what the sender painted last -/

/-- The maneuver a job is to show. -/
def SenderVars.target (cfg : Config) (v : SenderVars) : Job → Face
  | .paint => v.curSnap.face cfg
  | .keepAlive => v.prev.face cfg
  | .startup | .clear | .keepSign => .blank

/-- What the HUD shows at each place of the sender. -/
def Mirror (cfg : Config) (v : SenderVars) (face : Face) : SenderPc → Prop
  | .startup => face = .blank ∧ v.prev.face cfg = .blank
  | .msg1 job => v.disp.nextManeuverInfo = (v.target cfg job).icon ∧
      (job ≠ .startup → job ≠ .clear →
        v.msg2.guidancePointName = some (v.target cfg job).street) ∧
      (job = .startup → v.prev.face cfg = .blank)
  | .msg2 job => face.icon = (v.target cfg job).icon ∧
      v.msg2.guidancePointName = some (v.target cfg job).street ∧
      (job = .startup → v.prev.face cfg = .blank)
  | .storeHave _ | .resetPrev _ => face = .blank
  | .reading | .painting | .takeFull | .takeNav | .reload | .navReset | .rest | .waiting =>
    face = v.prev.face cfg

variable {cfg : Config} {h h' : HudState} {face : Face} {job : Job}

/-- The end of a job that went out, or that had nothing to send. -/
theorem mirror_endSend (hface : face = h.vars.target cfg job)
    (hstart : job = .startup → h.vars.prev.face cfg = .blank) :
    Mirror cfg (h.endSend true job).vars face (h.endSend true job).pc := by
  cases job with
  | startup => exact hface.trans (hstart rfl).symm
  | paint | keepAlive | clear | keepSign => exact hface

theorem mirror_sendClear (hjob : job = .startup ∨ job = .clear) (hhud : h.hudAbsent = false)
    (hstart : job = .startup → h.vars.prev.face cfg = .blank) :
    Mirror cfg (h.sendClear job).vars face (h.sendClear job).pc := by
  unfold HudState.sendClear
  rw [if_neg (by simp [hhud])]
  rcases hjob with rfl | rfl
  · exact ⟨rfl, fun hne => absurd rfl hne, hstart⟩
  · exact ⟨rfl, fun _ hne => absurd rfl hne, hstart⟩

/-- `send_one` sends the target, or the HUD shows it already. -/
theorem mirror_sendOne (hdebug : cfg.hudDebug = false) (hhud : h.hudAbsent = false)
    (hface : face = h.vars.prev.face cfg) {cur prev : NaviSnapshot} {splim : UInt16}
    {splimChanged force : Bool} (hprev : prev = h.vars.prev)
    (hcur : cur.face cfg = h.vars.target cfg job) (hjob : job ≠ .startup) :
    Mirror cfg (h.sendOne cfg job cur prev splim splimChanged force).vars face
      (h.sendOne cfg job cur prev splim splimChanged force).pc := by
  unfold HudState.sendOne
  rw [if_neg (by simp [hhud])]
  split
  · rename_i hsend
    -- nothing to send: `prev` is on the HUD and shows the same
    have hsame : cur.face cfg = prev.face cfg := sendOne_none (congrArg Prod.fst hsend)
    refine mirror_endSend ?_ fun heq => absurd heq hjob
    rw [hface, ← hprev, ← hsame, hcur]
  · rename_i disp msg2 syncBit hsend
    obtain ⟨hicon, hstreet⟩ := sendOne_some hdebug (congrArg Prod.fst hsend)
    rw [hcur] at hicon hstreet
    -- the frame being sent is no part of the target
    have htarget : ({ h.vars with disp, msg2, syncBit } : SenderVars).target cfg job =
        h.vars.target cfg job := by
      cases job <;> rfl
    refine ⟨?_, fun _ _ => ?_, fun heq => absurd heq hjob⟩
    · rw [htarget]
      exact hicon
    · rw [htarget]
      exact hstreet

theorem mirror_paint (hdebug : cfg.hudDebug = false) (hhud : h.hudAbsent = false)
    (hface : face = h.vars.prev.face cfg) :
    Mirror cfg (h.paint cfg).vars face (h.paint cfg).pc := by
  unfold HudState.paint
  dsimp only
  split
  · refine mirror_sendOne hdebug ?_ ?_ ?_ ?_ ?_
    · exact hhud
    · exact hface
    · rfl
    · rfl
    · simp
  · split
    · exact mirror_sendOne hdebug hhud hface rfl rfl (by simp)
    · exact hface

theorem mirror_handle (hdebug : cfg.hudDebug = false) (hhud : h.hudAbsent = false)
    (hface : face = h.vars.prev.face cfg) (navReq : Bool) :
    Mirror cfg (h.handle cfg navReq).vars face (h.handle cfg navReq).pc := by
  unfold HudState.handle
  split
  · exact mirror_sendClear (.inr rfl) hhud fun hjob => absurd hjob (by simp)
  · split
    · split
      · exact mirror_sendOne hdebug hhud hface rfl (face_zero cfg) (by simp)
      · exact mirror_sendClear (.inr rfl) hhud fun hjob => absurd hjob (by simp)
    · exact hface

/-- A step of the sender other than an OEM call. -/
theorem mirror_advance (hdebug : cfg.hudDebug = false) (hhud : h.hudAbsent = false)
    (hmirror : Mirror cfg h.vars face h.pc) (hadvances : Advances cfg h h') :
    Mirror cfg h'.vars face h'.pc := by
  cases hadvances with
  | live hpc =>
    rw [hpc] at hmirror
    exact hmirror.1.trans hmirror.2.symm
  | startup hpc =>
    rw [hpc] at hmirror
    exact mirror_sendClear (.inl rfl) hhud fun _ => hmirror.2
  | paint hpc =>
    rw [hpc] at hmirror
    exact mirror_paint hdebug hhud hmirror
  | takeNav hpc =>
    rw [hpc] at hmirror
    exact mirror_handle (h := { h with clearReq := false }) hdebug hhud hmirror _
  | resetPrev hpc =>
    -- `prev` is zeroed to match the blank HUD
    rw [hpc] at hmirror
    exact Eq.trans hmirror (face_zero cfg).symm
  | takeFull hpc | storeHave hpc | reload hpc | navReset hpc | rest hpc | wake hpc =>
    rw [hpc] at hmirror
    exact hmirror

/-- The maneuver frame of a job goes out. -/
theorem mirror_msg1 (hpc : h.pc = .msg1 job) (hmirror : Mirror cfg h.vars face h.pc) :
    Mirror cfg (h.afterMsg1 job).vars (face.after (.display h.vars.disp))
      (h.afterMsg1 job).pc := by
  rw [hpc] at hmirror
  obtain ⟨hicon, hstreet, hprev⟩ := hmirror
  cases job with
  | startup | clear => exact ⟨hicon, rfl, hprev⟩
  | paint | keepAlive | keepSign => exact ⟨hicon, hstreet (by simp) (by simp), hprev⟩

/-- And its strip. -/
theorem mirror_msg2 (hpc : h.pc = .msg2 job) (hmirror : Mirror cfg h.vars face h.pc) :
    Mirror cfg (h.endSend true job).vars (face.after (.strip h.vars.msg2))
      (h.endSend true job).pc := by
  rw [hpc] at hmirror
  obtain ⟨hicon, hstreet, hprev⟩ := hmirror
  refine mirror_endSend ?_ hprev
  refine Face.ext hicon ?_
  show h.vars.msg2.guidancePointName.getD [] = _
  rw [hstreet, Option.getD_some]

/-! ## The published maneuver -/

/-- What holds of a maneuver published since a request was last taken. -/
structure Published (cfg : Config) (h : HudState) : Prop where
  held   : h.haveGuidance = true ∨ h.rx = .publish
  live   : h.rx ≠ .zero
  calm   : ¬h.Clearing
  /-- Processed, it is what the sender painted last. -/
  done   : h.seq = h.vars.lastProcessed → h.vars.prev.face cfg = h.snapshot.face cfg
  read   : h.pc = .painting → h.vars.s2 = h.seq → h.vars.snap.face cfg = h.snapshot.face cfg
  paints : h.pc = .msg1 .paint ∨ h.pc = .msg2 .paint → h.vars.s2 = h.seq →
    h.vars.curSnap.face cfg = h.snapshot.face cfg

/-- A step of another thread that writes no snapshot. -/
theorem Published.shared (hpub : Published cfg h) (hpc : h'.pc = h.pc) (hvars : h'.vars = h.vars)
    (hsnap : h'.snapshot = h.snapshot) (hseq : h'.seq = h.seq)
    (hheld : h'.haveGuidance = true ∨ h'.rx = .publish) (hlive : h'.rx ≠ .zero) :
    Published cfg h' where
  held := hheld
  live := hlive
  calm := by
    unfold HudState.Clearing
    rw [hpc, hvars]
    exact hpub.calm
  done := by
    rw [hvars, hseq, hsnap]
    exact hpub.done
  read := by
    rw [hpc, hvars, hseq, hsnap]
    exact hpub.read
  paints := by
    rw [hpc, hvars, hseq, hsnap]
    exact hpub.paints

/-- Outside a clear, with nothing that was read on its way to the HUD. -/
def SenderPc.Between : SenderPc → Prop
  | .startup | .reading | .takeFull | .navReset | .rest | .waiting => True
  | .msg1 job | .msg2 job => job = .startup ∨ job = .keepAlive
  | .painting | .takeNav | .storeHave _ | .resetPrev _ | .reload => False

theorem SenderPc.Between.spec {pc : SenderPc} (hpc : pc.Between) :
    ¬pc.InClear ∧ pc ≠ .takeNav ∧ ¬pc.HasRead := by
  cases pc with
  | startup | reading | takeFull | navReset | rest | waiting =>
    simp [SenderPc.InClear, SenderPc.HasRead]
  | msg1 job | msg2 job => rcases hpc with rfl | rfl <;> simp [SenderPc.InClear, SenderPc.HasRead]
  | painting | takeNav | storeHave | resetPrev | reload => exact hpc.elim

/-- There only the bookkeeping matters. -/
theorem Published.between (hpub : Published cfg h) (hpc : h'.pc.Between)
    (hsnap : h'.snapshot = h.snapshot) (hhave : h'.haveGuidance = h.haveGuidance)
    (hrx : h'.rx = h.rx)
    (hdone : h'.seq = h'.vars.lastProcessed → h'.vars.prev.face cfg = h.snapshot.face cfg) :
    Published cfg h' := by
  obtain ⟨hclear, htake, hread⟩ := hpc.spec
  exact {
    held := by
      rw [hhave, hrx]
      exact hpub.held
    live := by
      rw [hrx]
      exact hpub.live
    calm := by
      rintro (hin | ⟨hat, -⟩)
      · exact hclear hin
      · exact htake hat
    done := by
      rw [hsnap]
      exact hdone
    read := fun hpaint => absurd (.inl hpaint) hread
    paints := fun hpaint => absurd (.inr hpaint) hread }

/-- A write that does not wrap leaves the sender something to process. -/
theorem published_write {snapshot : NaviSnapshot} {rx : RxPc} (hcalm : ¬h.Clearing)
    (hwraps : ¬h.Wraps) (hheld : h.haveGuidance = true ∨ rx = .publish) (hlive : rx ≠ .zero) :
    Published cfg { h.write snapshot with rx } where
  held := hheld
  live := hlive
  calm := hcalm
  done := fun heq => absurd (.inl heq) hwraps
  read := fun hpc heq => absurd (.inr ⟨.inl hpc, heq.symm⟩) hwraps
  paints := fun hpc heq => absurd (.inr ⟨.inr hpc, heq.symm⟩) hwraps

/-- The end of a job other than a clear. -/
theorem published_endSend (hpub : Published cfg h) (ok : Bool)
    (hjob : job ≠ .clear ∧ job ≠ .keepSign)
    (hpaint : job = .paint → h.vars.s2 = h.seq →
      h.vars.curSnap.face cfg = h.snapshot.face cfg) : Published cfg (h.endSend ok job) := by
  cases job with
  | startup | keepAlive => exact hpub.between trivial rfl rfl rfl hpub.done
  | paint => exact hpub.between trivial rfl rfl rfl fun heq => hpaint rfl heq.symm
  | clear => exact absurd rfl hjob.1
  | keepSign => exact absurd rfl hjob.2

theorem published_sendClear (hpub : Published cfg h) : Published cfg (h.sendClear .startup) := by
  unfold HudState.sendClear
  split
  · exact published_endSend hpub true (by simp) fun hjob => absurd hjob (by simp)
  · exact hpub.between (.inl rfl) rfl rfl rfl hpub.done

/-- The sender is at the frames of the snapshot it read. -/
theorem Published.painting (hpub : Published cfg h) {pc : SenderPc} {vars : SenderVars}
    (hpc : pc = .msg1 .paint ∨ pc = .msg2 .paint)
    (hdone : h.seq = vars.lastProcessed → vars.prev.face cfg = h.snapshot.face cfg)
    (hpaint : vars.s2 = h.seq → vars.curSnap.face cfg = h.snapshot.face cfg) :
    Published cfg { h with pc, vars } := by
  refine ⟨hpub.held, hpub.live, ?_, hdone, fun hat => ?_, fun _ => hpaint⟩
  · rcases hpc with rfl | rfl <;> simp [HudState.Clearing, SenderPc.InClear]
  · have hat : pc = .painting := hat
    rcases hpc with rfl | rfl <;> exact absurd hat (by simp)

theorem published_sendOne (hpub : Published cfg h) (hjob : job = .paint ∨ job = .keepAlive)
    (hpaint : job = .paint → h.vars.s2 = h.seq →
      h.vars.curSnap.face cfg = h.snapshot.face cfg)
    {cur prev : NaviSnapshot} {splim : UInt16} {splimChanged force : Bool} :
    Published cfg (h.sendOne cfg job cur prev splim splimChanged force) := by
  have hclear : job ≠ .clear ∧ job ≠ .keepSign := by rcases hjob with rfl | rfl <;> simp
  unfold HudState.sendOne
  split
  · exact published_endSend hpub true hclear hpaint
  · split
    · exact published_endSend hpub true hclear hpaint
    · rcases hjob with rfl | rfl
      · exact hpub.painting (.inl rfl) hpub.done (hpaint rfl)
      · exact hpub.between (.inr rfl) rfl rfl rfl hpub.done

/-- The sender paints the maneuver it has read. -/
theorem published_paint (hpub : Published cfg h) (hpc : h.pc = .painting)
    (hguard : ¬(cfg.speedLimit = true ∧ h.haveGuidance = false ∧ h.vars.s2 = h.seq)) :
    Published cfg (h.paint cfg) := by
  unfold HudState.paint
  dsimp only
  split
  · have hpub' : Published cfg { h with vars := { h.vars with
        curSnap := if cfg.speedLimit = true ∧ h.haveGuidance = false then {} else h.vars.snap } } :=
      ⟨hpub.held, hpub.live, hpub.calm, hpub.done, hpub.read, fun hmsg =>
        absurd hmsg (by rw [hpc]; simp)⟩
    refine published_sendOne hpub' (.inl rfl) fun _ heq => ?_
    show (if _ then ({} : NaviSnapshot) else h.vars.snap).face cfg = _
    -- by the guard it is not blanked
    rw [if_neg fun hblank => hguard ⟨hblank.1, hblank.2, heq⟩]
    exact hpub.read hpc heq
  · split
    · exact published_sendOne hpub (.inr rfl) fun hjob => absurd hjob (by simp)
    · exact hpub.between trivial rfl rfl rfl hpub.done

/-- A step of the sender that takes no request. -/
theorem published_advance (hpub : Published cfg h) (htakes : ¬h.Takes)
    (hguard : ¬(h.pc = .painting ∧ cfg.speedLimit = true ∧ h.haveGuidance = false ∧
      h.vars.s2 = h.seq)) (hadvances : Advances cfg h h') : Published cfg h' := by
  have hcalm := hpub.calm
  cases hadvances with
  | live | navReset | rest | wake => exact hpub.between trivial rfl rfl rfl hpub.done
  | startup => exact published_sendClear hpub
  | paint hpc => exact published_paint hpub hpc fun hblank => hguard ⟨hpc, hblank⟩
  | takeFull hpc =>
    -- no request to take, so no clear begins
    have hnone : h.fullclearReq ≠ true := fun hreq => htakes (.inl ⟨hpc, hreq⟩)
    refine ⟨hpub.held, hpub.live, ?_, hpub.done, fun hpc => absurd hpc (by simp),
      fun hpc => absurd hpc (by simp)⟩
    simp [HudState.Clearing, SenderPc.InClear, hnone]
  | takeNav hpc =>
    -- nor here, with none taken just before
    have hnav : h.clearReq ≠ true := fun hreq => htakes (.inr ⟨hpc, hreq⟩)
    have hfull : h.vars.fullReq ≠ true := fun hreq => hcalm (.inr ⟨hpc, hreq⟩)
    unfold HudState.handle
    rw [if_neg hfull, if_neg hnav]
    exact hpub.between trivial rfl rfl rfl hpub.done
  | storeHave hpc | resetPrev hpc | reload hpc =>
    -- the middle of a clear
    refine absurd (.inl ?_) hcalm
    rw [hpc]
    trivial

/-- Outside a clear the job at an OEM call is no clear. -/
theorem Published.job_ne_clear (hpub : Published cfg h) (hpc : h.pc = .msg1 job ∨ h.pc = .msg2 job) :
    job ≠ .clear ∧ job ≠ .keepSign := by
  rw [← not_or]
  intro hclear
  refine hpub.calm (.inl ?_)
  rcases hpc with hpc | hpc
  · rw [hpc]
    exact hclear
  · rw [hpc]
    exact hclear

theorem published_msg1 (hpub : Published cfg h) (hpc : h.pc = .msg1 job) :
    Published cfg (h.afterMsg1 job) := by
  have hclear := hpub.job_ne_clear (.inl hpc)
  cases job with
  | startup => exact hpub.between (.inl rfl) rfl rfl rfl hpub.done
  | keepAlive => exact hpub.between (.inr rfl) rfl rfl rfl hpub.done
  | paint => exact hpub.painting (.inr rfl) hpub.done (hpub.paints (.inl hpc))
  | clear => exact absurd rfl hclear.1
  | keepSign => exact absurd rfl hclear.2

theorem published_msg2 (hpub : Published cfg h) (hpc : h.pc = .msg2 job) :
    Published cfg (h.endSend true job) := by
  refine published_endSend hpub true (hpub.job_ne_clear (.inr hpc)) ?_
  rintro rfl
  exact hpub.paints (.inr hpc)

/-! ## The invariant -/

structure RouteInv (cfg : Config) (s : RouteState) : Prop where
  present : s.hud.hudAbsent = false
  mirror  : Mirror cfg s.hud.vars s.face s.hud.pc
  fresh   : s.fresh = true → Published cfg s.hud

variable {s s' : RouteState}

theorem routeInv_init {init : HudState} (hstart : init.AtStart) (hhud : init.hudAbsent = false) :
    RouteInv cfg { hud := init } := by
  refine ⟨hhud, ?_, fun h => absurd h (by simp)⟩
  rw [hstart.pc, hstart.vars]
  exact ⟨rfl, face_zero cfg⟩

/-- The HUD stays there and mirrors the sender. -/
theorem routeInv_hud (hdebug : cfg.hudDebug = false) {a : HudAction} (hinv : RouteInv cfg s)
    (hsends : Sends a) {hud : HudState} (hsteps : HudSteps cfg s.hud a hud) :
    hud.hudAbsent = false ∧ Mirror cfg hud.vars (s.faceAfter a) hud.pc := by
  obtain ⟨hpresent, hmirror, -⟩ := hinv
  cases hsteps with
  | sender hadvances =>
    refine ⟨?_, mirror_advance hdebug hpresent hmirror hadvances⟩
    rw [hadvances.hudAbsent, hpresent]
  | @msg1Sent job hpc =>
    refine ⟨by cases job <;> exact hpresent, ?_⟩
    simp only [RouteState.faceAfter, HudState.output, hpc, Option.elim_some]
    exact mirror_msg1 hpc hmirror
  | msg1Failed => exact absurd rfl hsends.1
  | @msg2 job ok hpc =>
    cases ok with
    | true =>
      refine ⟨?_, ?_⟩
      · rw [endSend_frame]
        exact hpresent
      · simp only [RouteState.faceAfter, HudState.output, hpc, Option.elim_some]
        exact mirror_msg2 hpc hmirror
    | false => exact absurd rfl hsends.1
  | read hpc =>
    rw [hpc] at hmirror
    exact ⟨hpresent, hmirror⟩
  | @hudStatus status =>
    refine ⟨?_, hmirror⟩
    -- the HUD is reported there
    show (status == 0) = false
    rw [beq_eq_false_iff_ne]
    rintro rfl
    exact hsends.2 rfl
  | routeEnd | routeStart | nextTurn | distance | publish | zero | requestClear | requestFullclear
  | tick => exact ⟨hpresent, hmirror⟩

/-- **Step lemma.** -/
theorem routeInv_step (hdebug : cfg.hudDebug = false) {a : HudAction} (hinv : RouteInv cfg s)
    (hguard : Sends a ∧ ¬Swallows cfg s a) (hstep : routeStep cfg s a = some s') :
    RouteInv cfg s' := by
  simp only [routeStep, Option.map_eq_some_iff] at hstep
  obtain ⟨hud, hstep, rfl⟩ := hstep
  obtain ⟨hsends, hkept⟩ := hguard
  have hsteps := hudSteps_of_hudStep hstep
  obtain ⟨hpresent, hmirror⟩ := routeInv_hud hdebug hinv hsends hsteps
  refine ⟨hpresent, hmirror, fun hfresh => ?_⟩
  have hfresh : s.freshAfter a = true := hfresh
  cases hsteps with
  | nextTurn =>
    -- by the guard outside a clear, and without a wrap
    exact published_write (fun hclearing => hkept (.inl hclearing))
      (fun hwraps => hkept (.inr hwraps)) (.inr rfl) (by simp)
  | distance =>
    have hpub := hinv.fresh hfresh
    exact published_write hpub.calm (fun hwraps => hkept ⟨hfresh, hwraps⟩) hpub.held hpub.live
  | sender hadvances =>
    obtain ⟨hwas, htakes⟩ := (Bool.and_eq_true _ _).mp hfresh
    refine published_advance (hinv.fresh hwas) (of_decide_eq_true htakes) (fun hearly => ?_)
      hadvances
    exact hkept ⟨hwas, hearly⟩
  | msg1Sent hpc => exact published_msg1 (hinv.fresh hfresh) hpc
  | msg1Failed => exact absurd rfl hsends.1
  | @msg2 job ok hpc =>
    cases ok with
    | true => exact published_msg2 (hinv.fresh hfresh) hpc
    | false => exact absurd rfl hsends.1
  | read =>
    -- what was read is the snapshot
    have hpub := hinv.fresh hfresh
    refine ⟨hpub.held, hpub.live, ?_, hpub.done, fun _ _ => rfl, fun hmsg => absurd hmsg (by simp)⟩
    simp [HudState.Clearing, SenderPc.InClear]
  | publish => exact (hinv.fresh hfresh).shared rfl rfl rfl rfl (.inl rfl) (by simp)
  | zero hrx => exact absurd hrx (hinv.fresh hfresh).live
  | routeEnd hrx hst =>
    have hends : (s.fresh && decide _) = true := hfresh
    simp [hst] at hends
  | routeStart =>
    have hpub := hinv.fresh ((Bool.and_eq_true _ _).mp hfresh).1
    exact hpub.shared rfl rfl rfl rfl (.inl rfl) hpub.live
  | requestClear | requestFullclear | tick | hudStatus =>
    have hpub := hinv.fresh hfresh
    exact hpub.shared rfl rfl rfl rfl hpub.held hpub.live

/-! ## The next route -/

/-- A route is shown; nav-off is requested; the next route starts while the blank
strip of the clear goes out. -/
def startInClear : List HudAction :=
  [.sender, .call true, .call true, .nextTurn (some [65, 0]) 1 4 0 0, .rx,
    .read none 0 none, .sender, .call true, .call true, .sender, .sender, .sender,
    .requestClear, .tick, .sender, .read none 0 none, .sender, .call true, .call true,
    .sender, .sender, .call true, .status 1, .nextTurn (some [66, 0]) 2 4 0 0, .rx, .call true,
    .sender, .sender, .sender, .sender, .sender]

/-- The clear takes the new maneuver for processed and drops guidance. -/
theorem route_swallowed_by_clear : ¬∀ cfg init s, cfg.hudDebug = false → init.AtStart →
    init.hudAbsent = false → Run.Reach (routeStep cfg) (fun _ a => Sends a) { hud := init } s →
    RouteShown cfg s := by
  intro h
  obtain ⟨s, hreach, hlost⟩ : ∃ s, Run.Reach (routeStep ⟨false, true, false⟩)
      (fun _ a => Sends a) { hud := {} } s ∧ ¬RouteShown ⟨false, true, false⟩ s :=
    Run.Reach.exists_of_replay startInClear (by decide +kernel)
  exact hlost (h ⟨false, true, false⟩ {} s rfl ⟨rfl, rfl⟩ rfl hreach)

/-- **The next route is shown** in every run that publishes no maneuver inside a
clear, and none that the sender takes for ended. -/
theorem route_shown (cfg : Config) (hdebug : cfg.hudDebug = false) (init : HudState)
    (hstart : init.AtStart) (hhud : init.hudAbsent = false) :
    ∀ s, Run.Reach (routeStep cfg) (fun s a => Sends a ∧ ¬Swallows cfg s a) { hud := init } s →
      RouteShown cfg s := by
  intro s h hpc hidle _ _ hfresh
  have hinv : RouteInv cfg s :=
    Run.Reach.invariant (routeInv_init hstart hhud)
      (fun _ _ _ hi hg hs => routeInv_step hdebug hi hg hs) h
  have hpub := hinv.fresh hfresh
  have hmirror := hinv.mirror
  rw [hpc] at hmirror
  refine ⟨?_, hpub.held.resolve_right (by simp [hidle])⟩
  -- processed, it is what the HUD mirrors
  by_cases hseq : s.hud.seq = s.hud.vars.lastProcessed
  · exact .inr (Eq.trans hmirror (hpub.done hseq))
  · exact .inl hseq

/-- The next route starts once the clear is done: to be processed, then shown. -/
theorem route_shown_example :
    ∃ s, RouteShown ⟨false, true, false⟩ s ∧ s.hud.pc = .waiting ∧ s.fresh = true ∧
      s.face = ⟨3, [66]⟩ := by
  obtain ⟨s, hreach, hend⟩ : ∃ s, Run.Reach (routeStep ⟨false, true, false⟩)
      (fun s a => Sends a ∧ ¬Swallows ⟨false, true, false⟩ s a) { hud := {} } s ∧
      (s.hud.pc = .waiting ∧ s.fresh = true ∧ s.face = ⟨3, [66]⟩) :=
    Run.Reach.exists_of_replay (clearedRoute ++ [.status 1, .nextTurn (some [66, 0]) 2 4 0 0, .rx,
      .sender, .read none 0 none, .sender, .call true, .call true, .sender, .sender, .sender])
      (by decide +kernel)
  exact ⟨s, route_shown ⟨false, true, false⟩ rfl {} ⟨rfl, rfl⟩ rfl s hreach, hend⟩

end OemAaMod.Carplay
