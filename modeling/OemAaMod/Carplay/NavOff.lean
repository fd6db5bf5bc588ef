import OemAaMod.Carplay.Sender

/-!
# Nav-off stays off

A clear touches the sender's locals and `g_have_guidance`; the shared snapshot
keeps the old maneuver. Navigation is off from the moment a clear has gone out and
drops `g_have_guidance`, until the next write of `hud_on_next_turn`.

* `OffState`, `offStep` — the sender with a record of what it sent while off;
* `Repaints` — the steps that let the old maneuver back: a distance with the speed
  limit off, a route start with it on;
* `off_stays_blank` — without them everything sent while off is blank.
-/

namespace OemAaMod.Carplay

open CStr (Bytes)

/-! ## The system -/

structure OffState where
  hud  : HudState := {}
  off  : Bool := false
  /-- What was sent, and whether navigation was off. -/
  sent : List (HudMsg × Bool) := []

/-- The step with which a clear that went out takes effect. -/
def SenderPc.Stores : SenderPc → Prop
  | .storeHave _ => True
  | _ => False

instance : (pc : SenderPc) → Decidable pc.Stores
  | .storeHave _ => inferInstanceAs (Decidable True)
  | .startup | .reading | .painting | .msg1 _ | .msg2 _ | .takeFull | .takeNav | .resetPrev _
  | .reload | .navReset | .rest | .waiting => inferInstanceAs (Decidable False)

def OffState.offAfter (s : OffState) : HudAction → Bool
  | .nextTurn .. => false
  | .sender => s.off || decide s.hud.pc.Stores
  | _ => s.off

def offStep (cfg : Config) (s : OffState) (a : HudAction) : Option OffState :=
  (hudStep cfg s.hud a).map fun hud =>
    { hud
      off := s.offAfter a
      sent := s.sent ++ (s.hud.output a).toList.map fun m => (m, s.off) }

/-- The frame has no maneuver and no street. -/
def IsBlank : HudMsg → Prop
  | .display disp => disp.nextManeuverInfo = 0
  | .strip msg2 => msg2.guidancePointName = some [0x20]
  | .guidance .. | .recommLane _ => False

instance : (m : HudMsg) → Decidable (IsBlank m)
  | .display _ | .strip _ => inferInstanceAs (Decidable (_ = _))
  | .guidance .. | .recommLane _ => inferInstanceAs (Decidable False)

/-- Everything sent while off is blank. -/
def OffBlank (s : OffState) : Prop := ∀ x ∈ s.sent, x.2 = true → IsBlank x.1

instance (s : OffState) : Decidable (OffBlank s) :=
  inferInstanceAs (Decidable (∀ x ∈ s.sent, x.2 = true → IsBlank x.1))

/-- The sender has still to mark the snapshot as processed. -/
def SenderPc.InReset : SenderPc → Prop
  | .resetPrev _ | .reload => True
  | _ => False

instance : (pc : SenderPc) → Decidable pc.InReset
  | .resetPrev _ | .reload => inferInstanceAs (Decidable True)
  | .startup | .reading | .painting | .msg1 _ | .msg2 _ | .takeFull | .takeNav | .storeHave _
  | .navReset | .rest | .waiting => inferInstanceAs (Decidable False)

/-- The sender, with `g_have_guidance` set, would find the old maneuver. -/
def HudState.Holds (cfg : Config) (s : HudState) : Prop :=
  s.snapshot.face cfg ≠ .blank ∨ (s.pc = .painting ∧ s.vars.snap.face cfg ≠ .blank)

instance (cfg : Config) (s : HudState) : Decidable (s.Holds cfg) :=
  inferInstanceAs (Decidable (_ ∨ (_ ∧ _)))

/-- The steps that let the old maneuver back while navigation is off. With the
speed limit off it takes a new sequence number, with it on `g_have_guidance`. -/
def Repaints (cfg : Config) (s : OffState) : HudAction → Prop
  | .distance .. => s.off = true ∧ cfg.speedLimit = false ∧ ¬s.hud.pc.InReset ∧
      s.hud.snapshot.face cfg ≠ .blank
  | .status st => s.off = true ∧ cfg.speedLimit = true ∧ st = 1 ∧ s.hud.Holds cfg
  | .rx => s.off = true ∧ cfg.speedLimit = true ∧ s.hud.rx = .publish ∧ s.hud.Holds cfg
  | _ => False

instance (cfg : Config) (s : OffState) : (a : HudAction) → Decidable (Repaints cfg s a)
  | .distance .. | .status _ | .rx => inferInstanceAs (Decidable (_ ∧ _ ∧ _ ∧ _))
  | .nextTurn .. | .requestClear | .requestFullclear | .tick | .hudStatus _ | .read .. | .call _
  | .sender => inferInstanceAs (Decidable False)

/-! ## What holds while off -/

structure StaysOff (cfg : Config) (s : HudState) : Prop where
  prev    : (∀ job, s.pc ≠ .resetPrev job) → s.vars.prev.face cfg = .blank
  held    : cfg.speedLimit = true → s.haveGuidance = false ∨ ¬s.Holds cfg
  /-- With the speed limit off a snapshot with a maneuver is not painted again. -/
  done    : cfg.speedLimit = false →
    s.pc.InReset ∨ s.snapshot.face cfg = .blank ∨ s.seq = s.vars.lastProcessed
  read    : cfg.speedLimit = false → s.pc = .painting →
    s.vars.snap.face cfg = .blank ∨ s.vars.s2 = s.vars.lastProcessed
  paints  : s.pc = .msg1 .paint ∨ s.pc = .msg2 .paint → s.vars.curSnap.face cfg = .blank
  reads   : cfg.speedLimit = false → s.pc = .painting ∨ s.pc = .msg1 .paint ∨ s.pc = .msg2 .paint →
    s.snapshot.face cfg = .blank ∨ s.vars.s2 = s.vars.lastProcessed
  pending : ∀ job, s.pc = .msg1 job → s.vars.disp.nextManeuverInfo = 0 ∧
    (job = .paint ∨ job = .keepAlive ∨ job = .keepSign →
      s.vars.msg2.guidancePointName = some [0x20])
  strip   : ∀ job, s.pc = .msg2 job → s.vars.msg2.guidancePointName = some [0x20]

structure OffInv (cfg : Config) (s : OffState) : Prop where
  blank : OffBlank s
  off   : s.off = true → StaysOff cfg s.hud
  /-- With the speed limit off there is no limit. -/
  limit : cfg.speedLimit = false → s.hud.vars.splim = 0 ∧ s.hud.vars.prevSplim = 0

/-- The part of it that does not depend on where the sender is. -/
structure Settled (cfg : Config) (s : HudState) : Prop where
  prev : s.vars.prev.face cfg = .blank
  held : cfg.speedLimit = true → s.haveGuidance = false ∨ s.snapshot.face cfg = .blank
  done : cfg.speedLimit = false →
    s.snapshot.face cfg = .blank ∨ s.seq = s.vars.lastProcessed

/-- The places with nothing in progress. -/
def SenderPc.Quiet : SenderPc → Prop
  | .painting | .msg1 _ | .msg2 _ | .resetPrev _ | .reload => False
  | _ => True

variable {cfg : Config} {s s' : HudState} {job : Job}

theorem StaysOff.settled (h : StaysOff cfg s) (hpc : ¬s.pc.InReset) : Settled cfg s := by
  refine ⟨h.prev fun job hreset => hpc (by rw [hreset]; trivial), fun hon => ?_, fun hlimit => ?_⟩
  · rcases h.held hon with hhave | hholds
    · exact .inl hhave
    · exact .inr (by simpa using fun hface => hholds (.inl hface))
  · exact (h.done hlimit).resolve_left hpc

/-- Before the sender has read, only the shared snapshot can hold the old maneuver. -/
theorem not_holds_iff (hpc : s.pc ≠ .painting) : ¬s.Holds cfg ↔ s.snapshot.face cfg = .blank := by
  simp [HudState.Holds, hpc]

/-- The places where a frame is made or sent. -/
def SenderPc.Sending : SenderPc → Prop
  | .painting | .msg1 _ | .msg2 _ => True
  | _ => False

/-- Anywhere else only the bookkeeping matters. -/
theorem StaysOff.aside (hpc : ¬s.pc.Sending)
    (hprev : (∀ job, s.pc ≠ .resetPrev job) → s.vars.prev.face cfg = .blank)
    (hheld : cfg.speedLimit = true → s.haveGuidance = false ∨ s.snapshot.face cfg = .blank)
    (hdone : cfg.speedLimit = false →
      s.pc.InReset ∨ s.snapshot.face cfg = .blank ∨ s.seq = s.vars.lastProcessed) :
    StaysOff cfg s := by
  have haway (pc : SenderPc) (hsends : pc.Sending) : s.pc ≠ pc := by
    rintro rfl
    exact hpc hsends
  exact {
    prev := hprev
    held := fun hon => (hheld hon).imp_right (not_holds_iff (haway .painting trivial)).mpr
    done := hdone
    read := fun _ hat => absurd hat (haway .painting trivial)
    paints := by
      rintro (hat | hat)
      · exact absurd hat (haway (.msg1 .paint) trivial)
      · exact absurd hat (haway (.msg2 .paint) trivial)
    reads := by
      rintro _ (hat | hat | hat)
      · exact absurd hat (haway .painting trivial)
      · exact absurd hat (haway (.msg1 .paint) trivial)
      · exact absurd hat (haway (.msg2 .paint) trivial)
    pending := fun job hat => absurd hat (haway (.msg1 job) trivial)
    strip := fun job hat => absurd hat (haway (.msg2 job) trivial) }

theorem Settled.quiet (h : Settled cfg s) (hpc : s.pc.Quiet) : StaysOff cfg s := by
  refine .aside ?_ (fun _ => h.prev) h.held fun hlimit => .inr (h.done hlimit)
  cases hat : s.pc <;> rw [hat] at hpc <;> first | exact id | exact hpc.elim

/-- A step of another thread: the old maneuver does not come back into the snapshot,
nor `g_have_guidance` or a new sequence number to it. -/
theorem StaysOff.shared (h : StaysOff cfg s) (hpc : s'.pc = s.pc) (hvars : s'.vars = s.vars)
    (hface : s.snapshot.face cfg = .blank → s'.snapshot.face cfg = .blank)
    (hheld : cfg.speedLimit = true → s'.haveGuidance = false ∨ ¬s'.Holds cfg)
    (hdone : cfg.speedLimit = false →
      s.pc.InReset ∨ s'.snapshot.face cfg = .blank ∨ s'.seq = s.seq) : StaysOff cfg s' where
  prev := by
    rw [hpc, hvars]
    exact h.prev
  held := hheld
  done := by
    intro hlimit
    rw [hpc, hvars]
    rcases hdone hlimit with hreset | hblank | hseq
    · exact .inl hreset
    · exact .inr (.inl hblank)
    · rw [hseq]
      exact (h.done hlimit).imp_right (Or.imp_left hface)
  read := by
    rw [hpc, hvars]
    exact h.read
  paints := by
    rw [hpc, hvars]
    exact h.paints
  reads := by
    intro hlimit hpaint
    rw [hpc] at hpaint
    rw [hvars]
    exact (h.reads hlimit hpaint).imp_left hface
  pending := by
    rw [hpc, hvars]
    exact h.pending
  strip := by
    rw [hpc, hvars]
    exact h.strip

/-- Only the snapshot, its sequence number and `g_have_guidance` matter. -/
theorem StaysOff.same (h : StaysOff cfg s) (hpc : s'.pc = s.pc) (hvars : s'.vars = s.vars)
    (hsnap : s'.snapshot = s.snapshot) (hseq : s'.seq = s.seq)
    (hhave : s'.haveGuidance = s.haveGuidance) : StaysOff cfg s' := by
  refine h.shared hpc hvars (fun hblank => by rw [hsnap, hblank]) (fun hon => ?_)
    (fun _ => .inr (.inr hseq))
  unfold HudState.Holds
  rw [hhave, hpc, hvars, hsnap]
  exact h.held hon

/-! ## The sender's steps -/

/-- What the end of a job does to the bookkeeping. -/
theorem Settled.endSend (h : Settled cfg s) (ok : Bool)
    (hpaint : job = .paint → s.vars.curSnap.face cfg = .blank ∧
      (cfg.speedLimit = false → s.snapshot.face cfg = .blank ∨ s.vars.s2 = s.vars.lastProcessed)) :
    StaysOff cfg (s.endSend ok job) := by
  cases job with
  | startup => exact Settled.quiet ⟨h.prev, h.held, h.done⟩ trivial
  | paint =>
    -- what was painted, a blank, becomes `prev`
    obtain ⟨hcur, hread⟩ := hpaint rfl
    refine Settled.quiet ⟨hcur, h.held, fun hlimit => ?_⟩ trivial
    rcases hread hlimit with hblank | hs2
    · exact .inl hblank
    · exact (h.done hlimit).imp_right fun hseq => hseq.trans hs2.symm
  | keepAlive => exact Settled.quiet ⟨h.prev, h.held, h.done⟩ trivial
  | clear =>
    refine Settled.quiet ⟨h.prev, h.held, h.done⟩ ?_
    cases ok <;> trivial
  | keepSign =>
    refine Settled.quiet ⟨h.prev, h.held, h.done⟩ ?_
    cases ok <;> trivial

/-- Before the first frame of a job. -/
theorem Settled.msg1 (h : Settled cfg s) (hpc : s.pc = .msg1 job)
    (hpaint : job = .paint → s.vars.curSnap.face cfg = .blank ∧
      (cfg.speedLimit = false → s.snapshot.face cfg = .blank ∨ s.vars.s2 = s.vars.lastProcessed))
    (hicon : s.vars.disp.nextManeuverInfo = 0)
    (hstrip : job = .paint ∨ job = .keepAlive ∨ job = .keepSign →
      s.vars.msg2.guidancePointName = some [0x20]) : StaysOff cfg s where
  prev := fun _ => h.prev
  held := fun hon => (h.held hon).imp_right (not_holds_iff (by simp [hpc])).mpr
  done := fun hlimit => .inr (h.done hlimit)
  read := fun _ hpainting => absurd (hpc.symm.trans hpainting) (by simp)
  paints := by
    rintro (hmsg | hmsg)
    · exact (hpaint (SenderPc.msg1.inj (hpc.symm.trans hmsg))).1
    · exact absurd (hpc.symm.trans hmsg) (by simp)
  reads := by
    rintro hlimit (hmsg | hmsg | hmsg)
    · exact absurd (hpc.symm.trans hmsg) (by simp)
    · exact (hpaint (SenderPc.msg1.inj (hpc.symm.trans hmsg))).2 hlimit
    · exact absurd (hpc.symm.trans hmsg) (by simp)
  pending := by
    intro job' hmsg
    obtain rfl := SenderPc.msg1.inj (hpc.symm.trans hmsg)
    exact ⟨hicon, hstrip⟩
  strip := fun _ hmsg => absurd (hpc.symm.trans hmsg) (by simp)

/-- `send_one` with a snapshot that shows nothing. -/
theorem Settled.sendOne (h : Settled cfg s) (hdebug : cfg.hudDebug = false)
    {cur prev : NaviSnapshot} (hcur : cur.face cfg = .blank)
    (hpaint : job = .paint → s.vars.curSnap.face cfg = .blank ∧
      (cfg.speedLimit = false → s.snapshot.face cfg = .blank ∨ s.vars.s2 = s.vars.lastProcessed))
    (splim : UInt16) (splimChanged force : Bool) :
    StaysOff cfg (s.sendOne cfg job cur prev splim splimChanged force) := by
  unfold HudState.sendOne
  split
  · exact h.endSend true hpaint
  · split
    · exact h.endSend true hpaint
    · -- a blank snapshot makes a frame without icon and street
      rename_i disp msg2 syncBit hsend
      obtain ⟨hicon, hstreet⟩ := sendOne_some hdebug (congrArg Prod.fst hsend)
      rw [hcur] at hicon hstreet
      exact Settled.msg1 ⟨h.prev, h.held, h.done⟩ rfl hpaint hicon fun _ => hstreet

theorem Settled.sendClear (h : Settled cfg s)
    (hjob : job = .startup ∨ job = .clear) : StaysOff cfg (s.sendClear job) := by
  have hpaint : job ≠ .paint := by rintro rfl; simp at hjob
  unfold HudState.sendClear
  split
  · exact h.endSend true fun hjob => absurd hjob hpaint
  · refine Settled.msg1 ⟨h.prev, h.held, h.done⟩ rfl (fun hjob => absurd hjob hpaint) rfl ?_
    rcases hjob with rfl | rfl <;> simp

/-- The sender does not paint the old maneuver. -/
theorem StaysOff.paint (h : StaysOff cfg s) (hdebug : cfg.hudDebug = false)
    (hlim : cfg.speedLimit = false → s.vars.splim = 0 ∧ s.vars.prevSplim = 0)
    (hpc : s.pc = .painting) : StaysOff cfg (s.paint cfg) := by
  have hsettled : Settled cfg s := h.settled (by rw [hpc]; exact id)
  unfold HudState.paint
  dsimp only
  split
  · rename_i hfresh
    -- what is painted shows nothing
    have hcur : (if cfg.speedLimit = true ∧ s.haveGuidance = false then ({} : NaviSnapshot)
        else s.vars.snap).face cfg = .blank := by
      split
      · exact face_zero cfg
      · rename_i hhave
        -- the limit decides which of the two keeps the old maneuver away
        cases hspeed : cfg.speedLimit with
        | true =>
          rcases h.held hspeed with hfalse | hholds
          · exact absurd ⟨hspeed, hfalse⟩ hhave
          · by_contra hface
            exact hholds (.inr ⟨hpc, hface⟩)
        | false =>
          obtain ⟨hsplim, hprev⟩ := hlim hspeed
          have hs2 : s.vars.s2 ≠ s.vars.lastProcessed := by
            simpa [hsplim, hprev] using hfresh
          exact (h.read hspeed hpc).resolve_right hs2
    have hreads : cfg.speedLimit = false →
        s.snapshot.face cfg = .blank ∨ s.vars.s2 = s.vars.lastProcessed :=
      fun hspeed => h.reads hspeed (.inl hpc)
    have hset' : Settled cfg { s with vars := { s.vars with
        curSnap := if cfg.speedLimit = true ∧ s.haveGuidance = false then {} else s.vars.snap } } :=
      ⟨hsettled.prev, hsettled.held, hsettled.done⟩
    exact hset'.sendOne hdebug hcur (fun _ => ⟨hcur, hreads⟩) _ _ _
  · split
    · -- the keep-alive repeats `prev`
      exact hsettled.sendOne hdebug hsettled.prev (fun hjob => absurd hjob (by simp)) _ _ _
    · exact Settled.quiet ⟨hsettled.prev, hsettled.held, hsettled.done⟩ trivial

theorem Settled.handle (h : Settled cfg s) (hdebug : cfg.hudDebug = false) (navReq : Bool) :
    StaysOff cfg (s.handle cfg navReq) := by
  unfold HudState.handle
  split
  · exact h.sendClear (.inr rfl)
  · split
    · split
      · exact h.sendOne hdebug (face_zero cfg) (fun hjob => absurd hjob (by simp)) _ _ _
      · exact h.sendClear (.inr rfl)
    · exact Settled.quiet ⟨h.prev, h.held, h.done⟩ trivial

/-- In the middle of a clear's bookkeeping. -/
theorem StaysOff.inReset (hpc : s.pc.InReset)
    (hprev : (∀ job, s.pc ≠ .resetPrev job) → s.vars.prev.face cfg = .blank)
    (hheld : cfg.speedLimit = true → s.haveGuidance = false ∨ s.snapshot.face cfg = .blank) :
    StaysOff cfg s := by
  refine .aside ?_ hprev hheld fun _ => .inl hpc
  cases hat : s.pc <;> rw [hat] at hpc <;> first | exact id | exact hpc.elim

theorem StaysOff.held_snapshot (h : StaysOff cfg s) (hon : cfg.speedLimit = true) :
    s.haveGuidance = false ∨ s.snapshot.face cfg = .blank := by
  refine (h.held hon).imp_right fun hholds => ?_
  by_contra hface
  exact hholds (.inl hface)

/-- A step of the sender keeps navigation off. -/
theorem StaysOff.advance (h : StaysOff cfg s) (hdebug : cfg.hudDebug = false)
    (hlim : cfg.speedLimit = false → s.vars.splim = 0 ∧ s.vars.prevSplim = 0)
    (hadvances : Advances cfg s s') : StaysOff cfg s' := by
  have hsettled : ¬s.pc.InReset → Settled cfg s := h.settled
  cases hadvances with
  | live hpc | takeFull hpc | navReset hpc | rest hpc | wake hpc =>
    -- nothing that matters changes
    rw [hpc] at hsettled
    obtain ⟨hprev, hheld, hdone⟩ := hsettled id
    exact Settled.quiet ⟨hprev, hheld, hdone⟩ trivial
  | startup hpc =>
    rw [hpc] at hsettled
    exact (hsettled id).sendClear (.inl rfl)
  | paint hpc => exact h.paint hdebug hlim hpc
  | takeNav hpc =>
    rw [hpc] at hsettled
    obtain ⟨hprev, hheld, hdone⟩ := hsettled id
    have hset : Settled cfg { s with clearReq := false } := ⟨hprev, hheld, hdone⟩
    exact hset.handle hdebug s.clearReq
  | storeHave hpc => exact .inReset trivial (fun hreset => absurd rfl (hreset _)) fun _ => .inl rfl
  | resetPrev hpc => exact .inReset trivial (fun _ => face_zero cfg) h.held_snapshot
  | reload hpc =>
    -- from here on the old maneuver counts as processed
    have hprev := h.prev fun job hreset => absurd (hpc.symm.trans hreset) (by simp)
    exact Settled.quiet ⟨hprev, h.held_snapshot, fun _ => .inr rfl⟩ trivial

/-- The read takes a snapshot that is blank, or processed already. -/
theorem StaysOff.readStep (h : StaysOff cfg s) (hpc : s.pc = .reading) (splim painted : UInt16) :
    StaysOff cfg { s with
      vars := { s.vars with snap := s.snapshot, s2 := s.seq, splim, painted }
      pc := .painting } := by
  obtain ⟨hprev, hheld, hdone⟩ := h.settled (by rw [hpc]; exact id)
  exact {
    prev := fun _ => hprev
    held := by
      intro hon
      refine (hheld hon).imp_right ?_
      rintro hblank (hface | ⟨-, hface⟩)
      · exact hface hblank
      · exact hface hblank
    done := fun hlimit => .inr (hdone hlimit)
    read := fun hlimit _ => hdone hlimit
    paints := fun hpaint => absurd hpaint (by simp)
    reads := fun hlimit _ => hdone hlimit
    pending := fun _ hmsg => absurd hmsg (by simp)
    strip := fun _ hmsg => absurd hmsg (by simp) }

/-- Before the strip of a job. -/
theorem Settled.msg2 (h : Settled cfg s) (hpc : s.pc = .msg2 job)
    (hpaint : job = .paint → s.vars.curSnap.face cfg = .blank ∧
      (cfg.speedLimit = false → s.snapshot.face cfg = .blank ∨ s.vars.s2 = s.vars.lastProcessed))
    (hstrip : s.vars.msg2.guidancePointName = some [0x20]) : StaysOff cfg s where
  prev := fun _ => h.prev
  held := fun hon => (h.held hon).imp_right (not_holds_iff (by simp [hpc])).mpr
  done := fun hlimit => .inr (h.done hlimit)
  read := fun _ hpainting => absurd (hpc.symm.trans hpainting) (by simp)
  paints := by
    rintro (hmsg | hmsg)
    · exact absurd (hpc.symm.trans hmsg) (by simp)
    · exact (hpaint (SenderPc.msg2.inj (hpc.symm.trans hmsg))).1
  reads := by
    rintro hlimit (hmsg | hmsg | hmsg)
    · exact absurd (hpc.symm.trans hmsg) (by simp)
    · exact absurd (hpc.symm.trans hmsg) (by simp)
    · exact (hpaint (SenderPc.msg2.inj (hpc.symm.trans hmsg))).2 hlimit
  pending := fun _ hmsg => absurd (hpc.symm.trans hmsg) (by simp)
  strip := fun _ _ => hstrip

/-- What is being painted is blank, and so is what was read or it counts as processed. -/
theorem StaysOff.painted (h : StaysOff cfg s) (hpc : s.pc = .msg1 job ∨ s.pc = .msg2 job)
    (hjob : job = .paint) : s.vars.curSnap.face cfg = .blank ∧
      (cfg.speedLimit = false →
        s.snapshot.face cfg = .blank ∨ s.vars.s2 = s.vars.lastProcessed) := by
  subst hjob
  exact ⟨h.paints hpc, fun hlimit => h.reads hlimit (.inr hpc)⟩

/-- The first frame of a job goes out. -/
theorem StaysOff.msg1Sent (h : StaysOff cfg s) (hpc : s.pc = .msg1 job) :
    StaysOff cfg (s.afterMsg1 job) := by
  have hset : Settled cfg s := h.settled (by rw [hpc]; exact id)
  have hpaint := h.painted (.inl hpc)
  have hstrip := (h.pending job hpc).2
  cases job with
  | startup | clear =>
    -- the strip of a clear is made only now
    exact Settled.msg2 ⟨hset.prev, hset.held, hset.done⟩ rfl hpaint rfl
  | paint =>
    exact Settled.msg2 ⟨hset.prev, hset.held, hset.done⟩ rfl hpaint (hstrip (.inl rfl))
  | keepAlive =>
    exact Settled.msg2 ⟨hset.prev, hset.held, hset.done⟩ rfl hpaint (hstrip (.inr (.inl rfl)))
  | keepSign =>
    exact Settled.msg2 ⟨hset.prev, hset.held, hset.done⟩ rfl hpaint (hstrip (.inr (.inr rfl)))

/-- It fails, or the strip goes out or fails. -/
theorem StaysOff.jobEnds (h : StaysOff cfg s) (hpc : s.pc = .msg1 job ∨ s.pc = .msg2 job)
    (ok : Bool) : StaysOff cfg (s.endSend ok job) := by
  have hset : Settled cfg s := by
    rcases hpc with hpc | hpc <;> exact h.settled (by rw [hpc]; exact id)
  exact hset.endSend ok (h.painted hpc)

/-- What goes out while off is blank. -/
theorem StaysOff.output (h : StaysOff cfg s) {a : HudAction} {m : HudMsg}
    (hout : s.output a = some m) : IsBlank m := by
  unfold HudState.output at hout
  split at hout
  · split at hout
    · rename_i job hpc
      obtain rfl := Option.some_inj.mp hout
      exact (h.pending job hpc).1
    · rename_i job hpc
      obtain rfl := Option.some_inj.mp hout
      exact h.strip job hpc
    · exact absurd hout (by simp)
  · exact absurd hout (by simp)

/-! ## The limit -/

/-- With the speed limit off there is no limit. -/
def NoLimit (cfg : Config) (v : SenderVars) : Prop :=
  cfg.speedLimit = false → v.splim = 0 ∧ v.prevSplim = 0

theorem endSend_noLimit (h : NoLimit cfg s.vars) (ok : Bool) (job : Job) :
    NoLimit cfg (s.endSend ok job).vars := by
  cases job with
  | paint => exact fun hlimit => ⟨(h hlimit).1, (h hlimit).1⟩
  | startup | keepAlive | clear | keepSign => exact h

theorem sendClear_noLimit (h : NoLimit cfg s.vars) (job : Job) :
    NoLimit cfg (s.sendClear job).vars := by
  unfold HudState.sendClear
  split
  · exact endSend_noLimit h true job
  · exact h

theorem sendOne_noLimit (h : NoLimit cfg s.vars) {cur prev : NaviSnapshot} {splim : UInt16}
    {splimChanged force : Bool} :
    NoLimit cfg (s.sendOne cfg job cur prev splim splimChanged force).vars := by
  unfold HudState.sendOne
  split
  · exact endSend_noLimit h true job
  · split
    · exact endSend_noLimit h true job
    · exact h

theorem advances_noLimit (h : NoLimit cfg s.vars) (hadvances : Advances cfg s s') :
    NoLimit cfg s'.vars := by
  cases hadvances with
  | startup => exact sendClear_noLimit h .startup
  | paint =>
    unfold HudState.paint
    dsimp only
    split
    · refine sendOne_noLimit ?_
      exact h
    · split
      · exact sendOne_noLimit h
      · exact h
  | takeNav =>
    have hreq : NoLimit cfg ({ s with clearReq := false } : HudState).vars := h
    unfold HudState.handle
    split
    · exact sendClear_noLimit hreq .clear
    · split
      · split
        · exact sendOne_noLimit hreq
        · exact sendClear_noLimit hreq .clear
      · exact h
  | resetPrev =>
    -- the limit kept on the HUD is the one just read, which is none
    intro hlimit
    refine ⟨(h hlimit).1, ?_⟩
    show (if _ then s.vars.splim else 0) = 0
    rw [(h hlimit).1, ite_self]
  | live | takeFull | storeHave | reload | navReset | rest | wake => exact h

theorem hudSteps_noLimit (h : NoLimit cfg s.vars) {a : HudAction} (hsteps : HudSteps cfg s a s') :
    NoLimit cfg s'.vars := by
  cases hsteps with
  | read _ hsplim =>
    intro hlimit
    exact ⟨by simp [hsplim, readSplim, hlimit], (h hlimit).2⟩
  | @msg1Sent job => cases job <;> exact h
  | msg1Failed => exact endSend_noLimit h false _
  | msg2 => exact endSend_noLimit h _ _
  | sender hadvances => exact advances_noLimit h hadvances
  | routeEnd | routeStart | nextTurn | distance | publish | zero | requestClear | requestFullclear
  | tick | hudStatus => exact h

/-! ## The invariant -/

/-- A step of the sender. -/
theorem offInv_sender {s s' : OffState} (hdebug : cfg.hudDebug = false) (hinv : OffInv cfg s)
    (hadvances : Advances cfg s.hud s'.hud)
    (hoff : s'.off = (s.off || decide s.hud.pc.Stores)) :
    s'.off = true → StaysOff cfg s'.hud := by
  intro hoff'
  rw [hoff] at hoff'
  by_cases hstores : s.hud.pc.Stores
  · -- the clear has gone out, and guidance is dropped
    generalize s'.hud = hud at hadvances ⊢
    cases hadvances with
    | storeHave => exact .inReset trivial (fun hreset => absurd rfl (hreset _)) fun _ => .inl rfl
    | live hpc | startup hpc | paint hpc | takeFull hpc | takeNav hpc | resetPrev hpc | reload hpc
    | navReset hpc | rest hpc | wake hpc =>
      rw [hpc] at hstores
      exact hstores.elim
  · have hbefore : s.off = true := by simpa [hstores] using hoff'
    exact (hinv.off hbefore).advance hdebug hinv.limit hadvances

/-- **Step lemma.** -/
theorem offInv_step {s s' : OffState} (hdebug : cfg.hudDebug = false) {a : HudAction}
    (hinv : OffInv cfg s) (hguard : ¬Repaints cfg s a) (hstep : offStep cfg s a = some s') :
    OffInv cfg s' := by
  simp only [offStep, Option.map_eq_some_iff] at hstep
  obtain ⟨hud, hstep, rfl⟩ := hstep
  have hsteps := hudSteps_of_hudStep hstep
  refine ⟨?_, ?_, hudSteps_noLimit hinv.limit hsteps⟩
  · -- what this step sends, under what was off before it
    intro x hx hoff
    rcases List.mem_append.mp hx with hold | hnew
    · exact hinv.blank x hold hoff
    · obtain ⟨m, hm, rfl⟩ := List.mem_map.mp hnew
      exact (hinv.off hoff).output (Option.mem_toList.mp hm)
  cases hsteps with
  | sender hadvances => exact offInv_sender hdebug hinv hadvances rfl
  | nextTurn => exact fun hoff => absurd hoff (by simp [OffState.offAfter])
  | msg1Sent hpc => exact fun hoff => (hinv.off hoff).msg1Sent hpc
  | msg1Failed hpc => exact fun hoff => (hinv.off hoff).jobEnds (.inl hpc) false
  | msg2 hpc => exact fun hoff => (hinv.off hoff).jobEnds (.inr hpc) _
  | read hpc => exact fun hoff => (hinv.off hoff).readStep hpc _ _
  | publish hrx =>
    intro hoff
    -- `g_have_guidance` comes back; by the guard there is no maneuver for it to show
    refine (hinv.off hoff).shared rfl rfl (fun hblank => hblank)
      (fun hon => .inr fun hholds => ?_) fun _ => .inr (.inr rfl)
    exact hguard ⟨hoff, hon, hrx, hholds⟩
  | zero hrx =>
    -- a zeroed snapshot holds no maneuver
    intro hoff
    refine (hinv.off hoff).shared rfl rfl (fun _ => face_zero cfg) (fun hon => ?_)
      fun _ => .inr (.inl (face_zero cfg))
    rcases (hinv.off hoff).held hon with hhave | hholds
    · exact .inl hhave
    · refine .inr ?_
      rintro (hface | hpaint)
      · exact hface (face_zero cfg)
      · exact hholds (.inr hpaint)
  | routeStart hrx =>
    intro hoff
    refine (hinv.off hoff).shared rfl rfl (fun hblank => hblank)
      (fun hon => .inr fun hholds => ?_) fun _ => .inr (.inr rfl)
    exact hguard ⟨hoff, hon, rfl, hholds⟩
  | routeEnd hrx hst =>
    exact fun hoff => (hinv.off hoff).shared rfl rfl (fun hblank => hblank) (fun _ => .inl rfl)
      fun _ => .inr (.inr rfl)
  | distance hrx =>
    -- a new sequence number; with the limit off the guard has no maneuver behind it
    intro hoff
    have h := hinv.off hoff
    refine h.shared rfl rfl (fun hblank => hblank) h.held fun hlimit => ?_
    by_contra hnot
    simp only [not_or] at hnot
    exact hguard ⟨hoff, hlimit, hnot.1, hnot.2.1⟩
  | requestClear | requestFullclear | tick | hudStatus =>
    exact fun hoff => (hinv.off hoff).same rfl rfl rfl rfl rfl

/-! ## Nav-off -/

/-- The bring-up of a session, whatever the earlier ones left in the globals. -/
structure HudState.AtStart (s : HudState) : Prop where
  pc   : s.pc = .startup
  vars : s.vars = {}

theorem offInv_init {init : HudState} (hstart : init.AtStart) : OffInv cfg { hud := init } :=
  ⟨fun _ h => absurd h (by simp), fun h => absurd h (by simp), fun _ => by
    rw [hstart.vars]
    exact ⟨rfl, rfl⟩⟩

/-- A route is shown and nav-off clears it. -/
def clearedRoute : List HudAction :=
  [.sender, .call true, .call true, .nextTurn (some [65, 0]) 1 4 0 0, .rx,
    .read none 0 none, .sender, .call true, .call true, .sender, .sender, .sender,
    .requestClear, .tick, .sender, .read none 0 none, .sender, .call true, .call true,
    .sender, .sender, .call true, .call true, .sender, .sender, .sender, .sender, .sender]

/-- The old maneuver comes back: with a distance when the speed limit is off, with a
new limit after a route start when it is on. -/
theorem repainted_after_nav_off :
    (¬∀ cfg init s, cfg.speedLimit = false → cfg.hudDebug = false → init.AtStart →
      Run.Reach (offStep cfg) (fun _ _ => True) { hud := init } s → OffBlank s) ∧
    (¬∀ cfg init s, cfg.speedLimit = true → cfg.hudDebug = false → init.AtStart →
      Run.Reach (offStep cfg) (fun _ _ => True) { hud := init } s → OffBlank s) := by
  constructor
  · intro h
    obtain ⟨s, hreach, hback⟩ : ∃ s, Run.Reach (offStep ⟨false, true, false⟩) (fun _ _ => True)
        { hud := {} } s ∧ ¬OffBlank s :=
      Run.Reach.exists_of_replay (clearedRoute ++ [.distance 0 1000 1, .sender,
        .read none 0 none, .sender, .call true]) (by decide +kernel)
    exact hback (h ⟨false, true, false⟩ {} s rfl rfl ⟨rfl, rfl⟩ hreach)
  · intro h
    obtain ⟨s, hreach, hback⟩ : ∃ s, Run.Reach (offStep ⟨true, true, false⟩) (fun _ _ => True)
        { hud := {} } s ∧ ¬OffBlank s :=
      Run.Reach.exists_of_replay (clearedRoute ++ [.status 1, .tick, .sender,
        .read (some (50, 0)) 0 none, .sender, .call true]) (by decide +kernel)
    exact hback (h ⟨true, true, false⟩ {} s rfl rfl ⟨rfl, rfl⟩ hreach)

/-- **Nav-off stays off** in every run without a step that lets the old maneuver
back. -/
theorem off_stays_blank (cfg : Config) (hdebug : cfg.hudDebug = false) (init : HudState)
    (hstart : init.AtStart) :
    ∀ s, Run.Reach (offStep cfg) (fun s a => ¬Repaints cfg s a) { hud := init } s →
      OffBlank s := by
  intro s h
  have hinv : OffInv cfg s :=
    Run.Reach.invariant (offInv_init hstart) (fun _ _ _ hi hg hs => offInv_step hdebug hi hg hs) h
  exact hinv.blank

/-- After nav-off a limit comes, and with it blank frames. -/
theorem off_stays_blank_example :
    ∃ s, OffBlank s ∧ (s.sent.filter fun x => x.2).length = 2 := by
  obtain ⟨s, hreach, hend⟩ : ∃ s, Run.Reach (offStep ⟨true, true, false⟩)
      (fun s a => ¬Repaints ⟨true, true, false⟩ s a) { hud := {} } s ∧
      (s.sent.filter fun x => x.2).length = 2 :=
    Run.Reach.exists_of_replay (clearedRoute ++ [.distance 0 1000 1, .sender,
      .read (some (50, 0)) 0 none, .sender, .call true, .call true]) (by decide +kernel)
  exact ⟨s, off_stays_blank ⟨true, true, false⟩ rfl {} ⟨rfl, rfl⟩ s hreach, hend⟩

end OemAaMod.Carplay
