import OemAaMod.Lib.Run
import OemAaMod.Hud.Transport
import OemAaMod.Carplay.Send

/-!
# The CarPlay sender, step by step

One session of the sender thread of blmjcicarplay, against the receive thread
(`hud_on_*`), the clear requests of the HMI callbacks, the 2 Hz ticker and the
HUD-presence reply. A seqlock-framed write and a successful read are one step
each; so is every access to a flag the threads share and every OEM call, which may
fail.

* `HudState` — the globals the threads share; the sender's locals; where each
  thread is;
* `hudStep` — one step of one of them;
* `HudState.output` — the OEM call a step makes, if it succeeds;
* `Advances`, `HudSteps` — what a step can do, one constructor each, for the proofs.
-/

namespace OemAaMod.Carplay

open CStr (Bytes)

/-! ## The threads -/

/-- What the sender is sending: the clear of its bring-up, the snapshot, the last
frame again, or a requested clear, either of the whole HUD or keeping the sign. -/
inductive Job
  | startup
  | paint
  | keepAlive
  | clear
  | keepSign
deriving DecidableEq

/-- Where the sender is. -/
inductive SenderPc
  | startup             -- before the clear of the bring-up
  | reading             -- the seqlock read and the limit files
  | painting            -- has read, before it looks at `g_have_guidance`
  | msg1 (job : Job)    -- before `VBS_NAVI_SetHUDDisplayMsgReq`
  | msg2 (job : Job)    -- before `VBS_NAVI_TMC_SetHUD_Display_Msg2`
  | takeFull            -- before `g_fullclear_req.exchange`
  | takeNav             -- before `g_clear_req.exchange`
  | storeHave (job : Job)
  | resetPrev (job : Job)
  | reload              -- before `last_processed = g_seq`
  | navReset            -- before `nav_request_reset`
  | rest                -- before `last_tick = g_splim_tick`
  | waiting
deriving DecidableEq

/-- Where the receive thread is: in no call, in `hud_on_next_turn` past its write,
or in `hud_on_status` of an end before its write. -/
inductive RxPc
  | idle
  | publish
  | zero
deriving DecidableEq

/-- The locals of `sender_main` and of the call it is in. -/
structure SenderVars where
  prev          : NaviSnapshot := {}
  syncBit       : UInt8 := 0
  lastProcessed : UInt32 := 0
  prevSplim     : UInt16 := 0
  lastTick      : UInt32 := 0
  snap          : NaviSnapshot := {}
  s2            : UInt32 := 0
  splim         : UInt16 := 0
  painted       : UInt16 := 0
  curSnap       : NaviSnapshot := {}
  fullReq       : Bool := false
  disp          : VbsNaviHudDisplay := clearDisplay
  msg2          : VbsNaviHudMsg2 := clearStrip 0
deriving DecidableEq

/-- The globals, as `hud_send_start` finds them, and the threads. -/
structure HudState where
  snapshot     : NaviSnapshot := {}
  seq          : UInt32 := 0
  haveGuidance : Bool := false
  clearReq     : Bool := false
  fullclearReq : Bool := false
  splimTick    : UInt32 := 0
  hudAbsent    : Bool := false
  /-- `g_nav_reset_req`, which the sender sets for the receive thread. -/
  navResetReq  : Bool := false
  rx           : RxPc := .idle
  pc           : SenderPc := .startup
  vars         : SenderVars := {}
deriving DecidableEq

inductive HudAction
  | status (status : UInt32)
  | nextTurn (road : Option Bytes) (side event : UInt32) (angle number : Int32)
  | distance (timeUntil dispDist : Int32) (dispUnit : UInt32)
  /-- The receive thread goes on with its call. -/
  | rx
  | requestClear
  | requestFullclear
  | tick
  /-- The reply to `VBS_NAVI_GetHUDStatus`. -/
  | hudStatus (status : UInt8)
  /-- The seqlock read, with what the limit files say at the time `now`. -/
  | read (splimFile : Option (Int × Int)) (now : Int) (overFile : Option Int)
  /-- The OEM call the sender is at, and whether it succeeds. -/
  | call (ok : Bool)
  /-- Any other step of the sender. -/
  | sender
deriving DecidableEq

/-! ## The sender's sends -/

/-- After the sends of a job, with the result the caller sees. -/
def HudState.endSend (s : HudState) (ok : Bool) : Job → HudState
  | .startup => { s with pc := .reading }
  | .paint => { s with
      vars := { s.vars with
        prev := s.vars.curSnap
        prevSplim := s.vars.splim
        lastProcessed := s.vars.s2 }
      pc := .takeFull }
  | .keepAlive => { s with pc := .takeFull }
  -- a clear that failed leaves everything as it was
  | .clear => { s with pc := if ok then .storeHave .clear else .rest }
  | .keepSign => { s with pc := if ok then .storeHave .keepSign else .rest }

/-- `send_clear`, up to its first call. -/
def HudState.sendClear (s : HudState) (job : Job) : HudState :=
  if s.hudAbsent then s.endSend true job
  else { s with vars := { s.vars with disp := clearDisplay }, pc := .msg1 job }

/-- `send_one`, up to its first call. -/
def HudState.sendOne (cfg : Config) (s : HudState) (job : Job) (cur prev : NaviSnapshot)
    (splim : UInt16) (splimChanged force : Bool) : HudState :=
  if s.hudAbsent then s.endSend true job
  else
    match Carplay.sendOne cfg cur prev s.vars.syncBit splim splimChanged force with
    | (none, _) => s.endSend true job
    | (some (disp, msg2), syncBit) =>
      { s with vars := { s.vars with disp, msg2, syncBit }, pc := .msg1 job }

/-- After `VBS_NAVI_SetHUDDisplayMsgReq`: `send_clear` advances the sync bit only
now, `send_one` has its strip ready. -/
def HudState.afterMsg1 (s : HudState) (job : Job) : HudState :=
  match job with
  | .startup | .clear =>
    let sync := nextSync s.vars.syncBit
    { s with vars := { s.vars with syncBit := sync, msg2 := clearStrip sync }, pc := .msg2 job }
  | .paint | .keepAlive | .keepSign => { s with pc := .msg2 job }

/-- The sender looks at `g_have_guidance` and sends the snapshot, a blank one in its
place, or the last frame again. -/
def HudState.paint (cfg : Config) (s : HudState) : HudState :=
  let v := s.vars
  let splimChanged := decide (v.splim ≠ v.prevSplim)
  let curSnap := if cfg.speedLimit ∧ s.haveGuidance = false then {} else v.snap
  if v.s2 ≠ v.lastProcessed ∨ splimChanged = true then
    { s with vars := { v with curSnap } }.sendOne cfg .paint curSnap v.prev v.painted
      splimChanged false
  else if s.haveGuidance = true ∨ v.prevSplim ≠ 0 then
    s.sendOne cfg .keepAlive v.prev v.prev v.painted false true
  else { s with pc := .takeFull }

/-- What the sender does with the requests it took. -/
def HudState.handle (cfg : Config) (s : HudState) (navReq : Bool) : HudState :=
  if s.vars.fullReq then s.sendClear .clear
  else if navReq then
    if cfg.speedLimit ∧ 0 < s.vars.splim then
      s.sendOne cfg .keepSign {} s.vars.prev s.vars.splim true true
    else s.sendClear .clear
  else { s with pc := .rest }

/-- The predicate of the wait. -/
def HudState.waitPred (s : HudState) : Prop :=
  s.seq ≠ s.vars.lastProcessed ∨ s.splimTick ≠ s.vars.lastTick

instance (s : HudState) : Decidable s.waitPred := inferInstanceAs (Decidable (_ ∨ _))

/-- The sender's steps other than the read and the OEM calls. -/
def HudState.advance (cfg : Config) (s : HudState) : Option HudState :=
  match s.pc with
  | .startup =>
    some (if s.haveGuidance then { s with pc := .reading } else s.sendClear .startup)
  | .painting => some (s.paint cfg)
  | .takeFull => some { s with
      fullclearReq := false
      vars := { s.vars with fullReq := s.fullclearReq }
      pc := .takeNav }
  | .takeNav => some ({ s with clearReq := false }.handle cfg s.clearReq)
  | .storeHave job => some { s with haveGuidance := false, pc := .resetPrev job }
  | .resetPrev job => some { s with
      vars := { s.vars with
        prev := {}
        prevSplim := if job = .keepSign then s.vars.splim else 0 }
      pc := .reload }
  | .reload => some { s with vars := { s.vars with lastProcessed := s.seq }, pc := .navReset }
  | .navReset => some { s with navResetReq := true, pc := .rest }
  | .rest => some { s with vars := { s.vars with lastTick := s.splimTick }, pc := .waiting }
  | .waiting => if s.waitPred then some { s with pc := .reading } else none
  | .reading | .msg1 _ | .msg2 _ => none

/-! ## The steps -/

/-- A write of the snapshot, from `seqlock_begin` to `seqlock_end`. -/
def HudState.write (s : HudState) (snapshot : NaviSnapshot) : HudState :=
  { s with snapshot, seq := s.seq + 2 }

def hudStep (cfg : Config) (s : HudState) : HudAction → Option HudState
  | .status st =>
    if s.rx = .idle then
      some (if st ≠ 1 then { s with haveGuidance := false, rx := .zero }
        else { s with haveGuidance := true })
    else none
  | .nextTurn road side event angle number =>
    if s.rx = .idle then
      some { s.write (s.snapshot.nextTurn road side event angle number) with rx := .publish }
    else none
  | .distance timeUntil dispDist dispUnit =>
    if s.rx = .idle then some (s.write (s.snapshot.distance timeUntil dispDist dispUnit)) else none
  | .rx =>
    match s.rx with
    | .idle => none
    | .publish => some { s with haveGuidance := true, rx := .idle }
    | .zero => some { s.write {} with rx := .idle }
  | .requestClear => some { s with clearReq := true }
  | .requestFullclear => some { s with fullclearReq := true }
  | .tick => some { s with splimTick := s.splimTick + 1 }
  | .hudStatus status => some { s with hudAbsent := status == 0 }
  | .read splimFile now overFile =>
    if s.pc = .reading then
      let splim := readSplim cfg splimFile now
      -- an over-speed blinks the limit with the ticker
      let painted :=
        if splim ≠ 0 ∧ readOver cfg overFile = true ∧ s.splimTick &&& 1 ≠ 0 then 0 else splim
      some { s with
        vars := { s.vars with snap := s.snapshot, s2 := s.seq, splim, painted }
        pc := .painting }
    else none
  | .call ok =>
    match s.pc with
    | .msg1 job => some (if ok then s.afterMsg1 job else s.endSend false job)
    | .msg2 job => some (s.endSend ok job)
    | _ => none
  | .sender => s.advance cfg

/-- The OEM call of a step, if it is one that succeeds. -/
def HudState.output (s : HudState) : HudAction → Option HudMsg
  | .call true =>
    match s.pc with
    | .msg1 _ => some (.display s.vars.disp)
    | .msg2 _ => some (.strip s.vars.msg2)
    | _ => none
  | _ => none

/-! ## What a send leaves alone -/

variable {cfg : Config} (s : HudState)

/-- The sends change nothing but where the sender is and its locals. -/
theorem endSend_frame (ok : Bool) (job : Job) :
    s.endSend ok job =
      { s with pc := (s.endSend ok job).pc, vars := (s.endSend ok job).vars } := by
  cases job <;> rfl

theorem sendClear_frame (job : Job) :
    s.sendClear job = { s with pc := (s.sendClear job).pc, vars := (s.sendClear job).vars } := by
  unfold HudState.sendClear
  split
  · exact endSend_frame s true job
  · rfl

theorem sendOne_frame (job : Job) (cur prev : NaviSnapshot) (splim : UInt16)
    (splimChanged force : Bool) :
    s.sendOne cfg job cur prev splim splimChanged force =
      { s with
        pc := (s.sendOne cfg job cur prev splim splimChanged force).pc
        vars := (s.sendOne cfg job cur prev splim splimChanged force).vars } := by
  unfold HudState.sendOne
  split
  · exact endSend_frame s true job
  · split
    · exact endSend_frame s true job
    · rfl

theorem paint_frame :
    s.paint cfg = { s with pc := (s.paint cfg).pc, vars := (s.paint cfg).vars } := by
  unfold HudState.paint
  dsimp only
  split
  · rw [sendOne_frame]
  · split
    · rw [sendOne_frame]
    · rfl

theorem handle_frame (navReq : Bool) :
    s.handle cfg navReq =
      { s with pc := (s.handle cfg navReq).pc, vars := (s.handle cfg navReq).vars } := by
  unfold HudState.handle
  split
  · rw [sendClear_frame]
  · split
    · split
      · rw [sendOne_frame]
      · rw [sendClear_frame]
    · rfl

/-! ## What a step can do -/

variable {s s' : HudState}

/-- The sender's steps, by the place it is at. -/
inductive Advances (cfg : Config) (s : HudState) : HudState → Prop
  | live (hpc : s.pc = .startup) (hhave : s.haveGuidance = true) :
      Advances cfg s { s with pc := .reading }
  | startup (hpc : s.pc = .startup) (hhave : s.haveGuidance = false) :
      Advances cfg s (s.sendClear .startup)
  | paint (hpc : s.pc = .painting) : Advances cfg s (s.paint cfg)
  | takeFull (hpc : s.pc = .takeFull) : Advances cfg s { s with
      fullclearReq := false
      vars := { s.vars with fullReq := s.fullclearReq }
      pc := .takeNav }
  | takeNav (hpc : s.pc = .takeNav) :
      Advances cfg s ({ s with clearReq := false }.handle cfg s.clearReq)
  | storeHave {job : Job} (hpc : s.pc = .storeHave job) :
      Advances cfg s { s with haveGuidance := false, pc := .resetPrev job }
  | resetPrev {job : Job} (hpc : s.pc = .resetPrev job) : Advances cfg s { s with
      vars := { s.vars with prev := {}, prevSplim := if job = .keepSign then s.vars.splim else 0 }
      pc := .reload }
  | reload (hpc : s.pc = .reload) :
      Advances cfg s { s with vars := { s.vars with lastProcessed := s.seq }, pc := .navReset }
  | navReset (hpc : s.pc = .navReset) : Advances cfg s { s with navResetReq := true, pc := .rest }
  | rest (hpc : s.pc = .rest) :
      Advances cfg s { s with vars := { s.vars with lastTick := s.splimTick }, pc := .waiting }
  | wake (hpc : s.pc = .waiting) (hpred : s.waitPred) : Advances cfg s { s with pc := .reading }

theorem advances_of_advance (hstep : s.advance cfg = some s') : Advances cfg s s' := by
  unfold HudState.advance at hstep
  cases hpc : s.pc with
  | reading | msg1 | msg2 => simp [hpc] at hstep
  | waiting =>
    simp only [hpc, Option.ite_none_right_eq_some, Option.some_inj] at hstep
    obtain ⟨hpred, rfl⟩ := hstep
    exact .wake hpc hpred
  -- with guidance already there the sender does not clear at startup
  | startup =>
    simp only [hpc, Option.some_inj] at hstep
    subst hstep
    by_cases hhave : s.haveGuidance = true
    · rw [if_pos hhave]
      exact .live hpc hhave
    · rw [if_neg hhave]
      exact .startup hpc (by simpa using hhave)
  | painting =>
    simp only [hpc, Option.some_inj] at hstep
    exact hstep ▸ .paint hpc
  | takeFull =>
    simp only [hpc, Option.some_inj] at hstep
    exact hstep ▸ .takeFull hpc
  | takeNav =>
    simp only [hpc, Option.some_inj] at hstep
    exact hstep ▸ .takeNav hpc
  | storeHave job =>
    simp only [hpc, Option.some_inj] at hstep
    exact hstep ▸ .storeHave hpc
  | resetPrev job =>
    simp only [hpc, Option.some_inj] at hstep
    exact hstep ▸ .resetPrev hpc
  | reload =>
    simp only [hpc, Option.some_inj] at hstep
    exact hstep ▸ .reload hpc
  | navReset =>
    simp only [hpc, Option.some_inj] at hstep
    exact hstep ▸ .navReset hpc
  | rest =>
    simp only [hpc, Option.some_inj] at hstep
    exact hstep ▸ .rest hpc

/-- All the steps: the receive thread's, the requests and the ticker, the sender's. -/
inductive HudSteps (cfg : Config) (s : HudState) : HudAction → HudState → Prop
  | routeEnd {st : UInt32} (hrx : s.rx = .idle) (hst : st ≠ 1) :
      HudSteps cfg s (.status st) { s with haveGuidance := false, rx := .zero }
  | routeStart (hrx : s.rx = .idle) : HudSteps cfg s (.status 1) { s with haveGuidance := true }
  | nextTurn {road : Option Bytes} {side event : UInt32} {angle number : Int32}
      (hrx : s.rx = .idle) : HudSteps cfg s (.nextTurn road side event angle number)
        { s.write (s.snapshot.nextTurn road side event angle number) with rx := .publish }
  | distance {timeUntil dispDist : Int32} {dispUnit : UInt32} (hrx : s.rx = .idle) :
      HudSteps cfg s (.distance timeUntil dispDist dispUnit)
        (s.write (s.snapshot.distance timeUntil dispDist dispUnit))
  | publish (hrx : s.rx = .publish) :
      HudSteps cfg s .rx { s with haveGuidance := true, rx := .idle }
  | zero (hrx : s.rx = .zero) : HudSteps cfg s .rx { s.write {} with rx := .idle }
  | requestClear : HudSteps cfg s .requestClear { s with clearReq := true }
  | requestFullclear : HudSteps cfg s .requestFullclear { s with fullclearReq := true }
  | tick : HudSteps cfg s .tick { s with splimTick := s.splimTick + 1 }
  | hudStatus {status : UInt8} :
      HudSteps cfg s (.hudStatus status) { s with hudAbsent := status == 0 }
  | read {splimFile : Option (Int × Int)} {now : Int} {overFile : Option Int}
      {splim painted : UInt16} (hpc : s.pc = .reading) (hsplim : splim = readSplim cfg splimFile now)
      (hpainted : painted =
        if splim ≠ 0 ∧ readOver cfg overFile = true ∧ s.splimTick &&& 1 ≠ 0 then 0 else splim) :
      HudSteps cfg s (.read splimFile now overFile) { s with
        vars := { s.vars with snap := s.snapshot, s2 := s.seq, splim, painted }
        pc := .painting }
  | msg1Sent {job : Job} (hpc : s.pc = .msg1 job) : HudSteps cfg s (.call true) (s.afterMsg1 job)
  | msg1Failed {job : Job} (hpc : s.pc = .msg1 job) :
      HudSteps cfg s (.call false) (s.endSend false job)
  | msg2 {job : Job} {ok : Bool} (hpc : s.pc = .msg2 job) :
      HudSteps cfg s (.call ok) (s.endSend ok job)
  | sender {s' : HudState} (hadvances : Advances cfg s s') : HudSteps cfg s .sender s'

/-- **Inversion of a step.** -/
theorem hudSteps_of_hudStep {a : HudAction} (hstep : hudStep cfg s a = some s') :
    HudSteps cfg s a s' := by
  cases a with
  | status st =>
    simp only [hudStep, Option.ite_none_right_eq_some, Option.some_inj] at hstep
    obtain ⟨hrx, rfl⟩ := hstep
    -- any status but 1 ends the route
    by_cases hst : st = 1
    · subst hst
      exact .routeStart hrx
    · rw [if_pos hst]
      exact .routeEnd hrx hst
  | nextTurn road side event angle number =>
    simp only [hudStep, Option.ite_none_right_eq_some, Option.some_inj] at hstep
    obtain ⟨hrx, rfl⟩ := hstep
    exact .nextTurn hrx
  | distance timeUntil dispDist dispUnit =>
    simp only [hudStep, Option.ite_none_right_eq_some, Option.some_inj] at hstep
    obtain ⟨hrx, rfl⟩ := hstep
    exact .distance hrx
  | rx =>
    simp only [hudStep] at hstep
    cases hrx : s.rx with
    | idle => simp [hrx] at hstep
    | publish =>
      simp only [hrx, Option.some_inj] at hstep
      exact hstep ▸ .publish hrx
    | zero =>
      simp only [hrx, Option.some_inj] at hstep
      exact hstep ▸ .zero hrx
  | requestClear =>
    obtain rfl := Option.some_inj.mp hstep
    exact .requestClear
  | requestFullclear =>
    obtain rfl := Option.some_inj.mp hstep
    exact .requestFullclear
  | tick =>
    obtain rfl := Option.some_inj.mp hstep
    exact .tick
  | hudStatus status =>
    obtain rfl := Option.some_inj.mp hstep
    exact .hudStatus
  | read splimFile now overFile =>
    simp only [hudStep, Option.ite_none_right_eq_some, Option.some_inj] at hstep
    obtain ⟨hpc, rfl⟩ := hstep
    exact .read hpc rfl rfl
  | call ok =>
    simp only [hudStep] at hstep
    split at hstep
    · rename_i job hpc
      rw [Option.some_inj] at hstep
      subst hstep
      -- a maneuver frame that fails ends the send, the strip is not tried
      cases ok with
      | true => exact .msg1Sent hpc
      | false => exact .msg1Failed hpc
    · rename_i job hpc
      rw [Option.some_inj] at hstep
      exact hstep ▸ .msg2 hpc
    · exact absurd hstep (by simp)
  | sender => exact .sender (advances_of_advance hstep)

theorem Advances.hudAbsent (h : Advances cfg s s') : s'.hudAbsent = s.hudAbsent := by
  cases h with
  | startup => rw [sendClear_frame]
  | paint => rw [paint_frame]
  | takeNav => rw [handle_frame]
  | live | takeFull | storeHave | resetPrev | reload | navReset | rest | wake => rfl

end OemAaMod.Carplay
