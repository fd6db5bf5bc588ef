import OemAaMod.Carplay.NextRoute

/-!
# Failed sends are made up for

The sender does not look at the result of a send: what it failed to bring to the HUD it
takes for painted. It is the ticker that repairs this: while a route is live every turn of
the loop sends the last frame again.

* `published_of_reach` — what was published stays known to the sender, whatever fails;
* `Rests` — the sender at its wait, with nothing asked of it;
* `exists_turn` — one turn of the loop from there, all of whose sends succeed;
* `keepAlive_heals` — after two such turns the HUD shows the maneuver.
-/

namespace OemAaMod.Carplay

variable {cfg : Config} {h h' : HudState} {s s' : RouteState}

/-! ## Failing sends -/

/-- A failed send ends the job as a successful one does. -/
theorem published_msg1Failed {job : Job} (hpub : Published cfg h) (hpc : h.pc = .msg1 job) :
    Published cfg (h.endSend false job) := by
  refine published_endSend hpub false (hpub.job_ne_clear (.inl hpc)) ?_
  rintro rfl
  exact hpub.paints (.inl hpc)

/-- A read takes the snapshot as it is. -/
theorem Published.reading (hpub : Published cfg h) {splim painted : UInt16} :
    Published cfg { h with
      vars := { h.vars with snap := h.snapshot, s2 := h.seq, splim, painted }
      pc := .painting } where
  held := hpub.held
  live := hpub.live
  calm := by simp [HudState.Clearing, SenderPc.InClear]
  done := hpub.done
  read _ _ := rfl
  paints hmsg := absurd hmsg (by simp)

/-- **Step lemma**, with sends that fail and a HUD that comes and goes. -/
theorem published_step {a : HudAction} (hpub : s.fresh = true → Published cfg s.hud)
    (hguard : ¬Swallows cfg s a) (hstep : routeStep cfg s a = some s') (hfresh : s'.fresh = true) :
    Published cfg s'.hud := by
  simp only [routeStep, Option.map_eq_some_iff] at hstep
  obtain ⟨hud, hstep, rfl⟩ := hstep
  have hfresh : s.freshAfter a = true := hfresh
  cases hudSteps_of_hudStep hstep with
  | nextTurn =>
    -- by the guard outside a clear, and without a wrap
    exact published_write (fun hclearing => hguard (.inl hclearing))
      (fun hwraps => hguard (.inr hwraps)) (.inr rfl) (by simp)
  | distance =>
    have hpub := hpub hfresh
    exact published_write hpub.calm (fun hwraps => hguard ⟨hfresh, hwraps⟩) hpub.held hpub.live
  | sender hadvances =>
    obtain ⟨hwas, htakes⟩ := (Bool.and_eq_true _ _).mp hfresh
    exact published_advance (hpub hwas) (of_decide_eq_true htakes)
      (fun hearly => hguard ⟨hwas, hearly⟩) hadvances
  | msg1Sent hpc => exact published_msg1 (hpub hfresh) hpc
  | msg1Failed hpc => exact published_msg1Failed (hpub hfresh) hpc
  | @msg2 job ok hpc =>
    refine published_endSend (hpub hfresh) ok ((hpub hfresh).job_ne_clear (.inr hpc)) ?_
    rintro rfl
    exact (hpub hfresh).paints (.inr hpc)
  | read => exact (hpub hfresh).reading
  | publish => exact (hpub hfresh).shared rfl rfl rfl rfl (.inl rfl) (by simp)
  | zero hrx => exact absurd hrx (hpub hfresh).live
  | routeEnd hrx hst =>
    -- the end of a route is the end of its maneuver
    have hends : (s.fresh && decide _) = true := hfresh
    simp [hst] at hends
  | routeStart =>
    have hpub := hpub ((Bool.and_eq_true _ _).mp hfresh).1
    exact hpub.shared rfl rfl rfl rfl (.inl rfl) hpub.live
  | requestClear | requestFullclear | tick | hudStatus =>
    have hpub := hpub hfresh
    exact hpub.shared rfl rfl rfl rfl hpub.held hpub.live

theorem published_of_reach {init : HudState}
    (hreach : Run.Reach (routeStep cfg) (fun s a => ¬Swallows cfg s a) { hud := init } s) :
    s.fresh = true → Published cfg s.hud :=
  Run.Reach.invariant (I := fun s => s.fresh = true → Published cfg s.hud)
    (fun hfresh => absurd hfresh (by simp))
    (fun _ _ _ hpub hguard hstep => published_step hpub hguard hstep) hreach

/-! ## A turn of the loop -/

/-- What the limit files say, and the time it is. -/
structure Reading where
  splimFile : Option (Int × Int)
  now       : Int
  overFile  : Option Int
deriving DecidableEq

def HudAction.reading? : HudAction → Option Reading
  | .read splimFile now overFile => some ⟨splimFile, now, overFile⟩
  | _ => none

/-- The ticker and the sender, whose calls succeed. -/
def Undisturbed : HudAction → Prop
  | .tick | .sender | .read .. => True
  | .call ok => ok = true
  | _ => False

instance : (a : HudAction) → Decidable (Undisturbed a)
  | .tick | .sender | .read .. => inferInstanceAs (Decidable True)
  | .call ok => inferInstanceAs (Decidable (ok = true))
  | .status _ | .nextTurn .. | .distance .. | .rx | .requestClear | .requestFullclear
  | .hudStatus _ => inferInstanceAs (Decidable False)

/-- The sender is at its wait, no other thread is in a call, there is a HUD, and no clear is
asked for. -/
structure HudState.Rests (h : HudState) : Prop where
  pc        : h.pc = .waiting
  rx        : h.rx = .idle
  clear     : h.clearReq = false
  fullclear : h.fullclearReq = false
  present   : h.hudAbsent = false

/-- The actions `as` lead to `h` and to `face` on the HUD. -/
def Goes (cfg : Config) (s : RouteState) (as : List HudAction) (h : HudState) (face : Face) : Prop :=
  ∃ fresh, Run.replay (routeStep cfg) (fun _ a => Undisturbed a) s as = some ⟨h, fresh, face⟩

theorem Goes.step {a : HudAction} (ha : Undisturbed a) (hstep : hudStep cfg s.hud a = some h) :
    Goes cfg s [a] h (s.faceAfter a) := by
  refine ⟨s.freshAfter a, ?_⟩
  simp only [Run.replay, if_pos ha, routeStep, hstep, Option.map_some, Option.bind_some]

/-- Where it leads can be gone on from. -/
theorem Goes.exists_state {as : List HudAction} {face : Face} (hgoes : Goes cfg s as h face) :
    ∃ fresh, ∀ {as' h' face'}, Goes cfg ⟨h, fresh, face⟩ as' h' face' →
      Goes cfg s (as ++ as') h' face' := by
  obtain ⟨fresh, hrun⟩ := hgoes
  refine ⟨fresh, fun hgoes' => ?_⟩
  obtain ⟨fresh', hrun'⟩ := hgoes'
  exact ⟨fresh', by rw [Run.replay_append, hrun, Option.bind_some, hrun']⟩

/-- What a turn does not do: read the limit files, or wait for the ticker. -/
def Plain (as : List HudAction) : Prop := as.filterMap HudAction.reading? = [] ∧ as.count .tick = 0

theorem hudStep_wake (hpc : h.pc = .waiting) (hpred : h.waitPred) :
    hudStep cfg h .sender = some { h with pc := .reading } := by
  simp only [hudStep, HudState.advance, hpc, if_pos hpred]

/-- It wakes up, if need be by a tick. -/
theorem exists_wake (cfg : Config) (hrests : s.hud.Rests) :
    ∃ as splimTick, as.filterMap HudAction.reading? = [] ∧ as.count .tick ≤ 1 ∧
      Goes cfg s as { s.hud with splimTick, pc := .reading } s.face := by
  by_cases hpred : s.hud.waitPred
  · exact ⟨[.sender], s.hud.splimTick, rfl, by decide,
      Goes.step (s := s) trivial (hudStep_wake hrests.pc hpred)⟩
  · -- no write and no tick since the last turn
    have hsame : s.hud.splimTick = s.hud.vars.lastTick := by
      simp only [HudState.waitPred, ne_eq, not_or, not_not] at hpred
      exact hpred.2
    have hpred' : ({ s.hud with splimTick := s.hud.splimTick + 1 } : HudState).waitPred := by
      refine .inr ?_
      show s.hud.splimTick + 1 ≠ s.hud.vars.lastTick
      rw [← hsame]
      exact fun heq => absurd (UInt32.add_eq_left.mp heq) (by decide)
    have htick : Goes cfg s [.tick] { s.hud with splimTick := s.hud.splimTick + 1 } s.face :=
      Goes.step (a := .tick) trivial rfl
    obtain ⟨fresh, hthen⟩ := htick.exists_state
    refine ⟨[.tick] ++ [.sender], s.hud.splimTick + 1, rfl, by decide, hthen ?_⟩
    exact Goes.step (s := ⟨_, fresh, s.face⟩) (a := .sender) trivial
      (hudStep_wake hrests.pc hpred')

/-- What the sender has after its read. -/
def HudState.readBy (h : HudState) (splim painted : UInt16) : HudState :=
  { h with
    vars := { h.vars with snap := h.snapshot, s2 := h.seq, splim, painted }
    pc := .painting }

theorem exists_read (cfg : Config) (hpc : s.hud.pc = .reading) (r : Reading) :
    ∃ splim painted, Goes cfg s [.read r.splimFile r.now r.overFile]
      (s.hud.readBy splim painted) s.face := by
  have hstep : ∃ splim painted, hudStep cfg s.hud (.read r.splimFile r.now r.overFile) =
      some (s.hud.readBy splim painted) := by
    simp only [hudStep, hpc, if_true]
    exact ⟨_, _, rfl⟩
  obtain ⟨splim, painted, hstep⟩ := hstep
  exact ⟨splim, painted, Goes.step (s := s) trivial hstep⟩

/-- The frame and the strip of a job go out. -/
theorem goes_sends {job : Job} (hpc : s.hud.pc = .msg1 job)
    (hjob : job = .paint ∨ job = .keepAlive) :
    Goes cfg s [.call true, .call true] ({ s.hud with pc := .msg2 job }.endSend true job)
      ⟨s.hud.vars.disp.nextManeuverInfo, s.hud.vars.msg2.guidancePointName.getD []⟩ := by
  have hafter : s.hud.afterMsg1 job = { s.hud with pc := .msg2 job } := by
    rcases hjob with rfl | rfl <;> rfl
  have hfirst : hudStep cfg s.hud (.call true) = some { s.hud with pc := .msg2 job } := by
    simp only [hudStep, hpc, if_true, hafter]
  have hface : s.faceAfter (.call true) =
      { s.face with icon := s.hud.vars.disp.nextManeuverInfo } := by
    simp only [RouteState.faceAfter, HudState.output, hpc, Option.elim_some, Face.after]
  obtain ⟨fresh, hthen⟩ := (Goes.step (s := s) (a := .call true) rfl hfirst).exists_state
  rw [hface] at hthen
  exact hthen (Goes.step (s := ⟨{ s.hud with pc := .msg2 job }, fresh, _⟩) (a := .call true) rfl rfl)

theorem sendOne_ne_none {cur prev : NaviSnapshot} {syncBit : UInt8} {splim : UInt16}
    {splimChanged force : Bool} (hsend : splimChanged = true ∨ force = true) :
    (Carplay.sendOne cfg cur prev syncBit splim splimChanged force).1 ≠ none := by
  unfold Carplay.sendOne
  rw [if_pos (.inr hsend)]
  exact Option.some_ne_none _

/-- `send_one` has nothing to send, or the HUD shows what it sends. -/
theorem goes_sendOne (hdebug : cfg.hudDebug = false) {job : Job}
    (hjob : job = .paint ∨ job = .keepAlive) (hhud : h.hudAbsent = false)
    {cur prev : NaviSnapshot} {splim : UInt16} {splimChanged force : Bool}
    (hstep : hudStep cfg s.hud .sender =
      some (h.sendOne cfg job cur prev splim splimChanged force)) :
    (splimChanged = false ∧ force = false ∧ Goes cfg s [.sender] (h.endSend true job) s.face) ∨
    ∃ disp msg2 syncBit, Goes cfg s [.sender, .call true, .call true]
      ({ h with vars := { h.vars with disp, msg2, syncBit }, pc := .msg2 job }.endSend true job)
      (cur.face cfg) := by
  unfold HudState.sendOne at hstep
  rw [if_neg (by simp [hhud])] at hstep
  split at hstep
  · rename_i hnone
    left
    refine ⟨?_, ?_, Goes.step (s := s) (a := .sender) trivial hstep⟩
    · exact Bool.eq_false_iff.mpr fun h => sendOne_ne_none (.inl h) (congrArg Prod.fst hnone)
    · exact Bool.eq_false_iff.mpr fun h => sendOne_ne_none (.inr h) (congrArg Prod.fst hnone)
  · rename_i disp msg2 syncBit hsome
    right
    obtain ⟨hicon, hstreet⟩ := sendOne_some hdebug (congrArg Prod.fst hsome)
    have hface : (⟨disp.nextManeuverInfo, msg2.guidancePointName.getD []⟩ : Face) = cur.face cfg :=
      Face.ext hicon (by rw [hstreet, Option.getD_some])
    refine ⟨disp, msg2, syncBit, hface ▸ ?_⟩
    obtain ⟨fresh, hthen⟩ := (Goes.step (s := s) (a := .sender) trivial hstep).exists_state
    refine hthen ?_
    exact goes_sends (s := ⟨_, fresh, s.face⟩) rfl hjob

/-- What the sender does with what it has read. What was not processed yet is processed
now; and where all was, something is sent. -/
theorem exists_paint (hdebug : cfg.hudDebug = false) (hpc : s.hud.pc = .painting)
    (hhud : s.hud.hudAbsent = false) (hhave : s.hud.haveGuidance = true)
    (hsnap : s.hud.vars.snap = s.hud.snapshot) (hs2 : s.hud.vars.s2 = s.hud.seq)
    (hdone : s.hud.seq = s.hud.vars.lastProcessed →
      s.hud.vars.prev.face cfg = s.hud.snapshot.face cfg) :
    ∃ as vars face, Plain as ∧ Goes cfg s as { s.hud with vars, pc := .takeFull } face ∧
      vars.lastProcessed = s.hud.seq ∧ vars.prev.face cfg = s.hud.snapshot.face cfg ∧
      (s.hud.seq = s.hud.vars.lastProcessed → face = s.hud.snapshot.face cfg) := by
  have hcur : (if cfg.speedLimit = true ∧ s.hud.haveGuidance = false then {}
      else s.hud.vars.snap) = s.hud.snapshot := by
    rw [if_neg (by simp [hhave]), hsnap]
  have hstep : hudStep cfg s.hud .sender = some (s.hud.paint cfg) := by
    simp only [hudStep, HudState.advance, hpc]
  unfold HudState.paint at hstep
  simp only [hcur] at hstep
  by_cases hnew : s.hud.vars.s2 ≠ s.hud.vars.lastProcessed ∨
      decide (s.hud.vars.splim ≠ s.hud.vars.prevSplim) = true
  · rw [if_pos hnew] at hstep
    rcases goes_sendOne hdebug (.inl rfl) (by exact hhud) hstep with
      ⟨hsame, -, hgoes⟩ | ⟨disp, msg2, syncBit, hgoes⟩
    · refine ⟨_, _, _, ⟨rfl, rfl⟩, hgoes, hs2, rfl, fun hseen => ?_⟩
      -- with nothing new to read there is a new limit
      exact absurd (hs2.trans hseen) (hnew.resolve_right (by simp [hsame]))
    · exact ⟨_, _, _, ⟨rfl, rfl⟩, hgoes, hs2, rfl, fun _ => rfl⟩
  · rw [if_neg hnew, if_pos (.inl hhave)] at hstep
    have hseen : s.hud.seq = s.hud.vars.lastProcessed := by
      rw [← hs2]
      exact not_not.mp fun hne => hnew (.inl hne)
    rcases goes_sendOne hdebug (.inr rfl) hhud hstep with
      ⟨-, hforce, -⟩ | ⟨disp, msg2, syncBit, hgoes⟩
    · exact absurd hforce (by simp)
    · exact ⟨_, _, _, ⟨rfl, rfl⟩, hgoes, hseen.symm, hdone hseen, fun _ => hdone hseen⟩

/-- No clear was asked for, and the sender goes to its wait. -/
theorem goes_rest (cfg : Config) (hpc : s.hud.pc = .takeFull) (hclear : s.hud.clearReq = false)
    (hfull : s.hud.fullclearReq = false) :
    Goes cfg s [.sender, .sender, .sender]
      { s.hud with
        fullclearReq := false
        clearReq := false
        vars := { s.hud.vars with fullReq := false, lastTick := s.hud.splimTick }
        pc := .waiting } s.face := by
  have hfull : hudStep cfg s.hud .sender = some { s.hud with
      fullclearReq := false
      vars := { s.hud.vars with fullReq := false }
      pc := .takeNav } := by
    simp only [hudStep, HudState.advance, hpc, hfull]
  -- with neither flag set nothing is handled
  have hnav : hudStep cfg { s.hud with
      fullclearReq := false
      vars := { s.hud.vars with fullReq := false }
      pc := .takeNav } .sender = some { s.hud with
      fullclearReq := false
      clearReq := false
      vars := { s.hud.vars with fullReq := false }
      pc := .rest } := by
    simp only [hudStep, HudState.advance, hclear, HudState.handle, Bool.false_eq_true, if_false]
  obtain ⟨fresh, hthen⟩ := (Goes.step (s := s) (a := .sender) trivial hfull).exists_state
  obtain ⟨fresh', hthen'⟩ :=
    (Goes.step (s := ⟨_, fresh, s.face⟩) (a := .sender) trivial hnav).exists_state
  exact hthen (hthen' (Goes.step (s := ⟨_, fresh', s.face⟩) (a := .sender) trivial rfl))

/-- **A turn of the loop**, with whatever the limit files say. -/
theorem exists_turn (hdebug : cfg.hudDebug = false) (hrests : s.hud.Rests)
    (hhave : s.hud.haveGuidance = true)
    (hdone : s.hud.seq = s.hud.vars.lastProcessed →
      s.hud.vars.prev.face cfg = s.hud.snapshot.face cfg) (r : Reading) :
    ∃ as hud face, as.filterMap HudAction.reading? = [r] ∧ as.count .tick ≤ 1 ∧
      Goes cfg s as hud face ∧ hud.Rests ∧ hud.snapshot = s.hud.snapshot ∧
      hud.haveGuidance = true ∧ hud.seq = hud.vars.lastProcessed ∧
      hud.vars.prev.face cfg = s.hud.snapshot.face cfg ∧
      (s.hud.seq = s.hud.vars.lastProcessed → face = s.hud.snapshot.face cfg) := by
  obtain ⟨wake, splimTick, hwake, hticks, hgoes⟩ := exists_wake cfg hrests
  obtain ⟨fresh, hthen⟩ := hgoes.exists_state
  let reading : HudState := { s.hud with splimTick, pc := .reading }
  obtain ⟨splim, painted, hread⟩ :=
    exists_read cfg (s := ⟨reading, fresh, s.face⟩) rfl r
  obtain ⟨fresh', hthen'⟩ := hread.exists_state
  let painting : HudState := reading.readBy splim painted
  obtain ⟨paint, vars, face, hplain, hgoes', hlast, hprev, hface⟩ :=
    exists_paint (s := ⟨painting, fresh', s.face⟩) hdebug rfl hrests.present hhave rfl rfl hdone
  obtain ⟨fresh'', hthen''⟩ := hgoes'.exists_state
  have hrest := goes_rest cfg
    (s := ⟨{ painting with vars, pc := .takeFull }, fresh'', face⟩) rfl hrests.clear hrests.fullclear
  refine ⟨_, _, face, ?_, ?_, hthen (hthen' (hthen'' hrest)), ?_, rfl, hhave, hlast.symm, hprev,
    hface⟩
  · simp [List.filterMap_append, hwake, hplain.1, HudAction.reading?]
  · simp [List.count_append, hplain.2, hticks]
  · exact ⟨rfl, hrests.rx, rfl, rfl, hrests.present⟩

/-! ## The repair -/

/-- A turn is shown, the street of the next one fails to go out. -/
def failedStreet : List HudAction :=
  [.sender, .call true, .call true, .nextTurn (some [65, 0]) 1 4 0 0, .rx,
    .read none 0 none, .sender, .call true, .call true, .sender, .sender, .sender,
    .nextTurn (some [66, 0]) 2 4 0 0, .rx, .sender, .read none 0 none, .sender, .call true,
    .call false, .sender, .sender, .sender]

/-- **The keep-alive makes up for what failed.** Whatever sends failed and whatever limit
files there are: when the sender is at its wait and a maneuver was published that was not
swallowed, two turns whose sends succeed bring it to the HUD, each after one tick at most. -/
theorem keepAlive_heals (cfg : Config) (hdebug : cfg.hudDebug = false) (init : HudState)
    (s : RouteState)
    (hreach : Run.Reach (routeStep cfg) (fun s a => ¬Swallows cfg s a) { hud := init } s)
    (hfresh : s.fresh = true) (hrests : s.hud.Rests) (r₁ r₂ : Reading) :
    ∃ as t, Run.replay (routeStep cfg) (fun _ a => Undisturbed a) s as = some t ∧
      as.filterMap HudAction.reading? = [r₁, r₂] ∧ as.count .tick ≤ 2 ∧ t.hud.Rests ∧
      t.hud.snapshot = s.hud.snapshot ∧ t.face = s.hud.snapshot.face cfg := by
  have hpub := published_of_reach hreach hfresh
  have hhave := hpub.held.resolve_right (by simp [hrests.rx])
  obtain ⟨as, hud, face, hreads, hticks, hgoes, hrests', hsnap, hhave', hseen, hprev, -⟩ :=
    exists_turn hdebug hrests hhave hpub.done r₁
  obtain ⟨fresh, hthen⟩ := hgoes.exists_state
  -- the first turn has nothing left to process, so the second sends something
  obtain ⟨as', hud', face', hreads', hticks', hgoes', hrests'', hsnap', -, -, -, hface⟩ :=
    exists_turn (s := ⟨hud, fresh, face⟩) hdebug hrests' hhave' (fun _ => hsnap ▸ hprev) r₂
  obtain ⟨fresh', hrun⟩ := hthen hgoes'
  refine ⟨as ++ as', _, hrun, ?_, ?_, hrests'', hsnap'.trans hsnap, ?_⟩
  · rw [List.filterMap_append, hreads, hreads']
    rfl
  · rw [List.count_append]
    omega
  · exact (hface hseen).trans (congrArg _ hsnap)

/-- The HUD is left with the arrow of one turn and the street of the other. -/
theorem keepAlive_heals_street : ∃ (s t : RouteState) (as : List HudAction),
    Run.replay (routeStep ⟨false, true, false⟩) (fun _ a => Undisturbed a) s as = some t ∧
    s.face = ⟨3, [65]⟩ ∧ t.face = ⟨3, [66]⟩ := by
  obtain ⟨s, hreach, hfresh, hface, hsnap, hpc, hrx, hclear, hfull, hhud⟩ : ∃ s,
      Run.Reach (routeStep ⟨false, true, false⟩)
        (fun s a => ¬Swallows ⟨false, true, false⟩ s a) { hud := {} } s ∧ s.fresh = true ∧
      s.face = ⟨3, [65]⟩ ∧ s.hud.snapshot.face ⟨false, true, false⟩ = ⟨3, [66]⟩ ∧
      s.hud.pc = .waiting ∧ s.hud.rx = .idle ∧ s.hud.clearReq = false ∧
      s.hud.fullclearReq = false ∧ s.hud.hudAbsent = false :=
    Run.Reach.exists_of_replay failedStreet (by decide +kernel)
  obtain ⟨as, t, hrun, -, -, -, -, ht⟩ := keepAlive_heals ⟨false, true, false⟩ rfl {} s hreach
    hfresh ⟨hpc, hrx, hclear, hfull, hhud⟩ ⟨none, 0, none⟩ ⟨none, 0, none⟩
  exact ⟨s, t, as, hrun, hface, ht.trans hsnap⟩

end OemAaMod.Carplay
