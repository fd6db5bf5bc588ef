import OemAaMod.Carplay.NavOff

/-!
# Generations on the wire

The cluster takes a maneuver frame and a street strip together if `text_ID3` of the one
is the `syncBit` of the other. `send_one` advances the sync bit before it builds the
two; `send_clear` advances it between them, behind a frame that is all zero.

* `Paired` — frames and strips in pairs of one sync value;
* `SyncExact` — when the sync value advances;
* `Gen` — what every step keeps of the frames, the sync value and what was painted;
* `paired_iff` — the frames pair up exactly if no strip of `send_clear` goes out.
-/

namespace OemAaMod.Carplay

open Run (Trace)

/-! ## What a run sends -/

/-- The runs of the sender with every send succeeding. The presence of the HUD is asked for
once: a HUD reported absent does not come back. -/
def SendsOk (s : HudState) : HudAction → Prop
  | .call ok => ok = true
  | .hudStatus st => st = 0 ∨ s.hudAbsent = false
  | _ => True

instance (s : HudState) : (a : HudAction) → Decidable (SendsOk s a)
  | .call ok => inferInstanceAs (Decidable (ok = true))
  | .hudStatus st => inferInstanceAs (Decidable (st = 0 ∨ s.hudAbsent = false))
  | .status _ | .nextTurn .. | .distance .. | .rx | .requestClear | .requestFullclear | .tick
  | .read .. | .sender => isTrue trivial

/-- A run of the sender from its start. -/
abbrev SenderTrace (cfg : Config) (init : HudState) : List (HudState × HudAction) → HudState → Prop :=
  Trace (hudStep cfg) SendsOk init

def outputs (tr : List (HudState × HudAction)) : List HudMsg :=
  tr.filterMap fun x => x.1.output x.2

/-- Every maneuver frame is followed at once by the strip of its sync value, up to the
last, whose strip may be the next to come; there is no other strip. -/
def Paired : List HudMsg → Prop
  | [] => True
  | [.display _] => True
  | .display disp :: .strip msg2 :: out => disp.textID3 = msg2.syncBit ∧ Paired out
  | _ => False

/-- The snapshot whose frames `send_one` has built, before the first goes out. -/
def HudState.built (s : HudState) : Option NaviSnapshot :=
  match s.pc with
  | .msg1 .paint => some s.vars.curSnap
  | .msg1 .keepAlive => some s.vars.prev
  | .msg1 .keepSign => some {}
  | _ => none

/-- A `send_clear` is at a place. -/
def HudState.ClearAt (s : HudState) (place : Job → SenderPc) : Prop :=
  s.pc = place .startup ∨ s.pc = place .clear

instance (s : HudState) (place : Job → SenderPc) : Decidable (s.ClearAt place) :=
  inferInstanceAs (Decidable (_ ∨ _))

/-- The maneuver frame of a `send_clear` goes out. -/
def HudState.Clears (s : HudState) (a : HudAction) : Prop := a = .call true ∧ s.ClearAt .msg1

/-- Its strip does. -/
def HudState.ClearStrip (s : HudState) (a : HudAction) : Prop := a = .call true ∧ s.ClearAt .msg2

instance (s : HudState) (a : HudAction) : Decidable (s.ClearStrip a) :=
  inferInstanceAs (Decidable (_ ∧ _))

/-- What a step paints: the snapshot of the maneuver frame that goes out, a blank one for a
clear. -/
def HudState.paintsNow (s : HudState) : HudAction → Option NaviSnapshot
  | .call true => if s.ClearAt .msg1 then some {} else s.built
  | _ => none

/-- The snapshot painted last, at first a blank one. -/
def lastPainted (tr : List (HudState × HudAction)) : NaviSnapshot :=
  tr.foldl (fun p x => (x.1.paintsNow x.2).getD p) {}

/-- The sync value advances in exactly the steps that build the frames of another road,
event, side or number than were painted last, or that send a clear. -/
def SyncExact (cfg : Config) (tr : List (HudState × HudAction)) : Prop :=
  ∀ tr₁ s a tr₂ s', tr = tr₁ ++ (s, a) :: tr₂ → hudStep cfg s a = some s' →
    (s'.vars.syncBit ≠ s.vars.syncBit ↔
      (∃ cur, s.built = none ∧ s'.built = some cur ∧ ManeuverChanged cur (lastPainted tr₁)) ∨
        s.Clears a)

/-- No strip of a `send_clear` goes out. -/
def NoClear (tr : List (HudState × HudAction)) : Prop := ∀ x ∈ tr, ¬x.1.ClearStrip x.2

instance (tr : List (HudState × HudAction)) : Decidable (NoClear tr) :=
  inferInstanceAs (Decidable (∀ x ∈ tr, _))

variable {cfg : Config} {tr : List (HudState × HudAction)} {s s' : HudState} {a : HudAction}

/-! ### One more step -/

theorem outputs_concat (tr : List (HudState × HudAction)) (s : HudState) (a : HudAction) :
    outputs (tr ++ [(s, a)]) = outputs tr ++ (s.output a).toList := by
  unfold outputs
  rw [List.filterMap_append]
  cases h : s.output a <;> simp [h]

theorem lastPainted_concat (tr : List (HudState × HudAction)) (s : HudState) (a : HudAction) :
    lastPainted (tr ++ [(s, a)]) = (s.paintsNow a).getD (lastPainted tr) := by
  unfold lastPainted
  rw [List.foldl_append]
  rfl

theorem SyncExact.concat (h : SyncExact cfg tr)
    (hstep : ∀ s', hudStep cfg s a = some s' →
      (s'.vars.syncBit ≠ s.vars.syncBit ↔
        (∃ cur, s.built = none ∧ s'.built = some cur ∧ ManeuverChanged cur (lastPainted tr)) ∨
          s.Clears a)) : SyncExact cfg (tr ++ [(s, a)]) := by
  intro tr₁ t b tr₂ t' heq ht
  cases tr₂ using List.reverseRecOn with
  | nil =>
    obtain ⟨rfl, hlast⟩ := List.append_inj' heq rfl
    obtain ⟨rfl, rfl⟩ := Prod.mk.inj (List.cons.inj hlast).1
    exact hstep t' ht
  | append_singleton tr₂ x =>
    have hsplit : tr = tr₁ ++ (t, b) :: tr₂ := by
      rw [← List.cons_append, ← List.append_assoc] at heq
      exact (List.append_inj' heq rfl).1
    exact h tr₁ t b tr₂ t' hsplit ht

theorem noClear_concat : NoClear (tr ++ [(s, a)]) ↔ NoClear tr ∧ ¬s.ClearStrip a := by
  unfold NoClear
  rw [List.forall_mem_append, List.forall_mem_singleton]

/-! ### Frames in pairs -/

/-- The messages of one generation. -/
def generation (p : VbsNaviHudDisplay × VbsNaviHudMsg2) : List HudMsg := [.display p.1, .strip p.2]

theorem paired_generations (ps : List (VbsNaviHudDisplay × VbsNaviHudMsg2)) (out : List HudMsg) :
    Paired (ps.flatMap generation ++ out) ↔ (∀ p ∈ ps, p.1.textID3 = p.2.syncBit) ∧ Paired out := by
  induction ps with
  | nil => simp
  | cons p ps ih =>
    show p.1.textID3 = p.2.syncBit ∧ Paired (ps.flatMap generation ++ out) ↔ _
    rw [ih, List.forall_mem_cons, and_assoc]

/-! ## The invariant -/

/-- The sync value always moves. -/
theorem nextSync_ne (x : UInt8) : nextSync x ≠ x := by
  intro h
  have htoNat := congrArg UInt8.toNat h
  simp only [nextSync, UInt8.toNat_add, UInt8.toNat_mod, UInt8.reduceToNat] at htoNat
  omega

theorem nextSync_ne_zero (x : UInt8) : nextSync x ≠ 0 := by
  intro h
  have htoNat := congrArg UInt8.toNat h
  simp only [nextSync, UInt8.toNat_add, UInt8.toNat_mod, UInt8.reduceToNat] at htoNat
  omega

/-- The same maneuver, as `send_one` compares. -/
def SameManeuver (cur prev : NaviSnapshot) : Prop := ¬ManeuverChanged cur prev

theorem sameManeuver_iff {cur prev : NaviSnapshot} : SameManeuver cur prev ↔
    cur.roadName.str = prev.roadName.str ∧ cur.turnEvent = prev.turnEvent ∧
      cur.turnSide = prev.turnSide ∧ cur.turnNumber = prev.turnNumber := by
  unfold SameManeuver ManeuverChanged
  simp only [not_or, not_not, ne_eq]

theorem SameManeuver.refl (s : NaviSnapshot) : SameManeuver s s :=
  sameManeuver_iff.mpr ⟨rfl, rfl, rfl, rfl⟩

theorem SameManeuver.trans {a b c : NaviSnapshot} (h : SameManeuver a b) (h' : SameManeuver b c) :
    SameManeuver a c := by
  rw [sameManeuver_iff] at h h' ⊢
  exact ⟨h.1.trans h'.1, h.2.1.trans h'.2.1, h.2.2.1.trans h'.2.2.1, h.2.2.2.trans h'.2.2.2⟩

/-- What differs from one of two equal maneuvers differs from the other. -/
theorem SameManeuver.changed_iff {cur prev painted : NaviSnapshot} (h : SameManeuver prev painted) :
    ManeuverChanged cur prev ↔ ManeuverChanged cur painted := by
  rw [sameManeuver_iff] at h
  unfold ManeuverChanged
  rw [h.1, h.2.1, h.2.2.1, h.2.2.2]

/-- What was painted last, at each place of the sender. -/
def PaintedAt (v : SenderVars) (painted : NaviSnapshot) : SenderPc → Prop
  | .startup | .msg1 .startup | .msg2 .startup => SameManeuver v.prev {} ∧ SameManeuver {} painted
  | .msg1 .paint | .msg1 .keepAlive | .msg1 .keepSign | .msg1 .clear => True
  | .msg2 .paint => SameManeuver v.curSnap painted
  | .storeHave _ | .resetPrev _ | .msg2 .keepSign | .msg2 .clear => SameManeuver {} painted
  | .msg2 .keepAlive | .reading | .painting | .takeFull | .takeNav | .reload | .navReset | .rest
  | .waiting => SameManeuver v.prev painted

/-- The frames at hand: those of `send_one` carry one sync value, those of `send_clear` do not. -/
def FramesAt (v : SenderVars) : SenderPc → Prop
  | .msg1 .startup | .msg1 .clear => v.disp = clearDisplay
  | .msg2 .startup | .msg2 .clear => v.disp = clearDisplay ∧ v.msg2.syncBit ≠ 0
  | .msg1 _ | .msg2 _ => v.disp.textID3 = v.msg2.syncBit
  | _ => True

/-- The frame whose strip is still to come. -/
def HudState.pending (s : HudState) : List HudMsg :=
  match s.pc with
  | .msg2 _ => [.display s.vars.disp]
  | _ => []

/-- **What every step keeps.** -/
structure Gen (cfg : Config) (tr : List (HudState × HudAction)) (s : HudState) : Prop where
  painted : s.hudAbsent = false → PaintedAt s.vars (lastPainted tr) s.pc
  frames  : FramesAt s.vars s.pc
  exact   : SyncExact cfg tr
  out     : ∃ ps : List (VbsNaviHudDisplay × VbsNaviHudMsg2),
    outputs tr = ps.flatMap generation ++ s.pending ∧
      ((∀ p ∈ ps, p.1.textID3 = p.2.syncBit) ↔ NoClear tr)

theorem gen_init (cfg : Config) {init : HudState} (hstart : init.AtStart) : Gen cfg [] init where
  painted := by
    rw [hstart.1, hstart.2]
    exact fun _ => ⟨.refl _, .refl _⟩
  frames := by
    rw [hstart.1]
    trivial
  exact := by
    intro tr₁ s a tr₂ s' h
    exact absurd (congrArg List.length h) (by simp)
  out := by
    refine ⟨[], ?_, by simp [NoClear]⟩
    unfold HudState.pending
    rw [hstart.1]
    rfl

/-- A step that sends nothing. -/
theorem Gen.silent (h : Gen cfg tr s) (hstep : hudStep cfg s a = some s')
    (hcall : ∀ ok, a ≠ .call ok)
    (hsync : s'.vars.syncBit ≠ s.vars.syncBit ↔
      ∃ cur, s.built = none ∧ s'.built = some cur ∧ ManeuverChanged cur (lastPainted tr))
    (hpainted : s'.hudAbsent = false → PaintedAt s'.vars (lastPainted tr) s'.pc)
    (hframes : FramesAt s'.vars s'.pc) (hpending : s'.pending = s.pending) :
    Gen cfg (tr ++ [(s, a)]) s' := by
  have hpaints : s.paintsNow a = none := by
    cases a with
    | call ok => exact absurd rfl (hcall ok)
    | _ => rfl
  have hout : s.output a = none := by
    cases a with
    | call ok => exact absurd rfl (hcall ok)
    | _ => rfl
  have hlast : lastPainted (tr ++ [(s, a)]) = lastPainted tr := by
    rw [lastPainted_concat, hpaints, Option.getD_none]
  refine ⟨?_, hframes, ?_, ?_⟩
  · rw [hlast]
    exact hpainted
  · refine h.exact.concat fun t ht => ?_
    obtain rfl := Option.some_inj.mp (hstep.symm.trans ht)
    rw [hsync]
    exact (or_iff_left fun hclears => hcall true hclears.1).symm
  · obtain ⟨ps, hps, hmatch⟩ := h.out
    refine ⟨ps, ?_, ?_⟩
    · rw [outputs_concat, hout, hps, hpending, Option.toList_none, List.append_nil]
    · rw [hmatch, noClear_concat]
      exact (and_iff_left fun hclear => hcall true hclear.1).symm

/-- A step beside the sender. -/
theorem Gen.aside (h : Gen cfg tr s) (hstep : hudStep cfg s a = some s')
    (hcall : ∀ ok, a ≠ .call ok) (hvars : s'.vars = s.vars) (hpc : s'.pc = s.pc)
    (habsent : s'.hudAbsent = false → s.hudAbsent = false) : Gen cfg (tr ++ [(s, a)]) s' := by
  have hbuilt : s'.built = s.built := by
    unfold HudState.built
    rw [hvars, hpc]
  refine h.silent hstep hcall ?_ ?_ ?_ ?_
  · rw [hvars, hbuilt]
    constructor
    · exact fun hne => absurd rfl hne
    · rintro ⟨cur, hnone, hsome, -⟩
      rw [hnone] at hsome
      exact absurd hsome (by simp)
  · rw [hvars, hpc]
    exact fun h' => h.painted (habsent h')
  · rw [hvars, hpc]
    exact h.frames
  · unfold HudState.pending
    rw [hvars, hpc]

/-- A step of the sender that builds no frames. -/
theorem Gen.advance (h : Gen cfg tr s) (hstep : hudStep cfg s a = some s')
    (hcall : ∀ ok, a ≠ .call ok) (hsync : s'.vars.syncBit = s.vars.syncBit)
    (hbuilt : s'.built = none)
    (hpainted : s'.hudAbsent = false → PaintedAt s'.vars (lastPainted tr) s'.pc)
    (hframes : FramesAt s'.vars s'.pc) (hpending : s'.pending = s.pending) :
    Gen cfg (tr ++ [(s, a)]) s' := by
  refine h.silent hstep hcall ?_ hpainted hframes hpending
  rw [hsync, hbuilt]
  constructor
  · exact fun hne => absurd rfl hne
  · rintro ⟨cur, -, hsome, -⟩
    exact absurd hsome (by simp)

/-! ## The sends -/

theorem sendOne_cases (hdebug : cfg.hudDebug = false) (s : HudState) (job : Job)
    (cur prev : NaviSnapshot) (splim : UInt16) (splimChanged force : Bool) :
    (s.sendOne cfg job cur prev splim splimChanged force = s.endSend true job ∧
      (s.hudAbsent = false → SameManeuver cur prev)) ∨
    (s.hudAbsent = false ∧ ∃ disp msg2 sync,
      s.sendOne cfg job cur prev splim splimChanged force =
        { s with vars := { s.vars with disp, msg2, syncBit := sync }, pc := .msg1 job } ∧
      disp.textID3 = msg2.syncBit ∧
      sync = if ManeuverChanged cur prev then nextSync s.vars.syncBit else s.vars.syncBit) := by
  unfold HudState.sendOne
  by_cases habsent : s.hudAbsent = true
  · rw [if_pos habsent]
    exact .inl ⟨rfl, fun h => absurd habsent (by simp [h])⟩
  · rw [if_neg habsent]
    -- with the overlay off nothing pages on its own
    have hoff : ¬Hijacked cfg cur := fun h => absurd h.1 (by simp [hdebug])
    unfold Carplay.sendOne
    by_cases hsend : DistanceChanged cur prev ∨ splimChanged = true ∨ force = true
    · rw [if_pos hsend]
      have hsync : ¬(Hijacked cfg cur ∧ ¬ManeuverChanged cur prev) := fun h => hoff h.1
      simp only [if_neg hsync]
      exact .inr ⟨by simpa using habsent, _, _, _, rfl, rfl, rfl⟩
    · rw [if_neg hsend]
      refine .inl ⟨rfl, fun _ hchanged => hsend (.inl (.inl hchanged))⟩

/-- What `send_one` is called for: the snapshot it is to paint. -/
def JobSends (v : SenderVars) (job : Job) (cur : NaviSnapshot) : Prop :=
  (job = .paint ∧ v.curSnap = cur) ∨ (job = .keepAlive ∧ v.prev = cur) ∨ (job = .keepSign ∧ cur = {})

/-- `send_one`, against what was painted last. -/
theorem Gen.sendOne {t : HudState} {job : Job} {cur prev : NaviSnapshot} {splim : UInt16}
    {splimChanged force : Bool} (h : Gen cfg tr s) (hdebug : cfg.hudDebug = false)
    (hstep : hudStep cfg s .sender = some (t.sendOne cfg job cur prev splim splimChanged force))
    (hbuilt : s.built = none) (hpending : s.pending = [])
    (hsync : t.vars.syncBit = s.vars.syncBit) (habsent : t.hudAbsent = s.hudAbsent)
    (hprev : s.hudAbsent = false → SameManeuver prev (lastPainted tr))
    (hjob : JobSends t.vars job cur) :
    Gen cfg (tr ++ [(s, .sender)]) (t.sendOne cfg job cur prev splim splimChanged force) := by
  have hcall : ∀ ok, HudAction.sender ≠ .call ok := fun ok h' => by cases h'
  rcases sendOne_cases hdebug t job cur prev splim splimChanged force with
    ⟨hend, hsame⟩ | ⟨hpresent, disp, msg2, sync, hsent, hpair, hnext⟩
  · -- nothing sent: the snapshot is the maneuver painted last
    rw [hend] at hstep ⊢
    have hcur (hpresent : t.hudAbsent = false) : SameManeuver cur (lastPainted tr) :=
      (hsame hpresent).trans (hprev (habsent ▸ hpresent))
    obtain ⟨rfl, rfl⟩ | ⟨rfl, rfl⟩ | ⟨rfl, rfl⟩ := hjob
    · exact h.advance hstep hcall hsync rfl hcur trivial hpending.symm
    · exact h.advance hstep hcall hsync rfl hcur trivial hpending.symm
    · exact h.advance hstep hcall hsync rfl hcur trivial hpending.symm
  · rw [hsent] at hstep ⊢
    have hcur : ({ t with
        vars := { t.vars with disp, msg2, syncBit := sync }, pc := .msg1 job } : HudState).built =
          some cur := by
      obtain ⟨rfl, rfl⟩ | ⟨rfl, rfl⟩ | ⟨rfl, rfl⟩ := hjob <;> rfl
    have hchanged : ManeuverChanged cur prev ↔ ManeuverChanged cur (lastPainted tr) :=
      (hprev (habsent ▸ hpresent)).changed_iff
    refine h.silent hstep hcall ?_ (fun _ => ?_) ?_ hpending.symm
    · rw [hbuilt, hcur]
      constructor
      · intro hmoved
        refine ⟨cur, rfl, rfl, hchanged.mp ?_⟩
        by_contra hsame
        exact hmoved (by rw [← hsync, hnext, if_neg hsame])
      · rintro ⟨_, -, hc, hpaint⟩
        obtain rfl := Option.some.inj hc
        show sync ≠ _
        rw [hnext, if_pos (hchanged.mpr hpaint), hsync]
        exact nextSync_ne _
    · obtain ⟨rfl, rfl⟩ | ⟨rfl, rfl⟩ | ⟨rfl, rfl⟩ := hjob <;> trivial
    · obtain ⟨rfl, rfl⟩ | ⟨rfl, rfl⟩ | ⟨rfl, rfl⟩ := hjob <;> exact hpair

/-- `send_clear`: nothing to wipe where there is no HUD. -/
theorem sendClear_cases (s : HudState) (job : Job) :
    (s.hudAbsent = true ∧ s.sendClear job = s.endSend true job) ∨
      s.sendClear job = { s with vars := { s.vars with disp := clearDisplay }, pc := .msg1 job } := by
  unfold HudState.sendClear
  by_cases habsent : s.hudAbsent = true
  · exact .inl ⟨habsent, if_pos habsent⟩
  · exact .inr (if_neg habsent)

theorem Gen.sendClear {t : HudState} {job : Job} (h : Gen cfg tr s)
    (hstep : hudStep cfg s .sender = some (t.sendClear job)) (hpending : s.pending = [])
    (hsync : t.vars.syncBit = s.vars.syncBit)
    (hjob : job = .clear ∨ (job = .startup ∧
      (t.hudAbsent = false → PaintedAt t.vars (lastPainted tr) (.msg1 .startup)))) :
    Gen cfg (tr ++ [(s, .sender)]) (t.sendClear job) := by
  have hcall : ∀ ok, HudAction.sender ≠ .call ok := fun ok h' => by cases h'
  obtain ⟨habsent, hend⟩ | hsent := sendClear_cases t job
  · rw [hend] at hstep ⊢
    have hpresent : ¬t.hudAbsent = false := by simp [habsent]
    obtain rfl | ⟨rfl, -⟩ := hjob
    · exact h.advance hstep hcall hsync rfl (fun h' => absurd h' hpresent) trivial hpending.symm
    · exact h.advance hstep hcall hsync rfl (fun h' => absurd h' hpresent) trivial hpending.symm
  · rw [hsent] at hstep ⊢
    obtain rfl | ⟨rfl, hpainted⟩ := hjob
    · exact h.advance hstep hcall hsync rfl (fun _ => trivial) rfl hpending.symm
    · exact h.advance hstep hcall hsync rfl hpainted rfl hpending.symm

/-! ## The steps -/

theorem Gen.advances (h : Gen cfg tr s) (hdebug : cfg.hudDebug = false)
    (hstep : hudStep cfg s .sender = some s') (hadv : Advances cfg s s') :
    Gen cfg (tr ++ [(s, .sender)]) s' := by
  have hcall : ∀ ok, HudAction.sender ≠ .call ok := fun ok h' => by cases h'
  have hpainted := h.painted
  have hnone : s.built = none := by
    unfold HudState.built
    cases hadv <;> simp [*]
  have hpending : s.pending = [] := by
    unfold HudState.pending
    cases hadv <;> simp [*]
  cases hadv with
  | live hpc hhave =>
    rw [hpc] at hpainted
    exact h.advance hstep hcall rfl rfl (fun h' => (hpainted h').1.trans (hpainted h').2) trivial
      hpending.symm
  | startup hpc hhave =>
    rw [hpc] at hpainted
    exact h.sendClear hstep hpending rfl (.inr ⟨rfl, hpainted⟩)
  | paint hpc =>
    rw [hpc] at hpainted
    revert hstep
    unfold HudState.paint
    dsimp only
    split
    · intro hstep
      exact h.sendOne hdebug hstep hnone hpending rfl rfl hpainted (.inl ⟨rfl, rfl⟩)
    · split
      · intro hstep
        exact h.sendOne hdebug hstep hnone hpending rfl rfl hpainted (.inr (.inl ⟨rfl, rfl⟩))
      · intro hstep
        exact h.advance hstep hcall rfl rfl hpainted trivial hpending.symm
  | takeFull hpc =>
    rw [hpc] at hpainted
    exact h.advance hstep hcall rfl rfl hpainted trivial hpending.symm
  | takeNav hpc =>
    rw [hpc] at hpainted
    revert hstep
    unfold HudState.handle
    split
    · intro hstep
      exact h.sendClear hstep hpending rfl (.inl rfl)
    · split
      · split
        · intro hstep
          exact h.sendOne hdebug hstep hnone hpending rfl rfl hpainted (.inr (.inr ⟨rfl, rfl⟩))
        · intro hstep
          exact h.sendClear hstep hpending rfl (.inl rfl)
      · intro hstep
        exact h.advance hstep hcall rfl rfl hpainted trivial hpending.symm
  | storeHave hpc | resetPrev hpc | reload hpc | navReset hpc | rest hpc | wake hpc =>
    rw [hpc] at hpainted
    exact h.advance hstep hcall rfl rfl hpainted trivial hpending.symm

/-- What the maneuver frame of a job paints. -/
def Job.painted (v : SenderVars) : Job → NaviSnapshot
  | .paint => v.curSnap
  | .keepAlive => v.prev
  | .startup | .clear | .keepSign => {}

theorem paintsNow_msg1 {job : Job} (hpc : s.pc = .msg1 job) :
    s.paintsNow (.call true) = some (job.painted s.vars) := by
  cases job <;> simp [HudState.paintsNow, HudState.ClearAt, HudState.built, Job.painted, hpc]

/-- The maneuver frame goes out. -/
theorem Gen.msg1 {job : Job} (h : Gen cfg tr s) (hpc : s.pc = .msg1 job)
    (hstep : hudStep cfg s (.call true) = some (s.afterMsg1 job)) :
    Gen cfg (tr ++ [(s, .call true)]) (s.afterMsg1 job) := by
  have hpainted := h.painted
  have hframes := h.frames
  rw [hpc] at hpainted hframes
  have hpending : s.pending = [] := by simp [HudState.pending, hpc]
  have hnone : (s.afterMsg1 job).built = none := by cases job <;> rfl
  have hclears : s.Clears (.call true) ↔ job = .startup ∨ job = .clear := by
    simp [HudState.Clears, HudState.ClearAt, hpc]
  obtain ⟨ps, hps, hmatch⟩ := h.out
  refine ⟨?_, ?_, ?_, ps, ?_, ?_⟩
  · rw [lastPainted_concat]
    intro habsent
    rw [paintsNow_msg1 hpc, Option.getD_some]
    cases job with
    | startup => exact ⟨(hpainted habsent).1, .refl _⟩
    | paint | keepAlive | clear | keepSign => exact .refl _
  · cases job with
    | startup | clear => exact ⟨hframes, nextSync_ne_zero _⟩
    | paint | keepAlive | keepSign => exact hframes
  · refine h.exact.concat fun t ht => ?_
    obtain rfl := Option.some_inj.mp (hstep.symm.trans ht)
    rw [hclears, hnone]
    cases job with
    | startup | clear => simp [HudState.afterMsg1, nextSync_ne]
    | paint | keepAlive | keepSign => simp [HudState.afterMsg1]
  · rw [outputs_concat, hps, hpending]
    cases job <;> simp [HudState.output, HudState.pending, HudState.afterMsg1, hpc]
  · rw [hmatch, noClear_concat]
    refine (and_iff_left ?_).symm
    simp [HudState.ClearStrip, HudState.ClearAt, hpc]

/-- Its strip does. -/
theorem Gen.msg2 {job : Job} (h : Gen cfg tr s) (hpc : s.pc = .msg2 job)
    (hstep : hudStep cfg s (.call true) = some (s.endSend true job)) :
    Gen cfg (tr ++ [(s, .call true)]) (s.endSend true job) := by
  have hclear : ¬s.ClearAt .msg1 := by simp [HudState.ClearAt, hpc]
  have hpaints : s.paintsNow (.call true) = none := by
    simp [HudState.paintsNow, HudState.built, hpc, hclear]
  have hpending : (s.endSend true job).pending = [] := by cases job <;> rfl
  have hpainted := h.painted
  have hframes := h.frames
  rw [hpc] at hpainted hframes
  obtain ⟨ps, hps, hmatch⟩ := h.out
  refine ⟨?_, ?_, ?_, ?_⟩
  · rw [lastPainted_concat, hpaints, Option.getD_none]
    intro habsent
    cases job with
    | startup => exact (hpainted habsent).1.trans (hpainted habsent).2
    | paint | keepAlive | clear | keepSign => exact hpainted habsent
  · cases job <;> trivial
  · refine h.exact.concat fun t ht => ?_
    obtain rfl := Option.some_inj.mp (hstep.symm.trans ht)
    have hbuilt : (s.endSend true job).built = none := by cases job <;> rfl
    have hsync : (s.endSend true job).vars.syncBit = s.vars.syncBit := by cases job <;> rfl
    rw [hsync, hbuilt]
    constructor
    · exact fun hne => absurd rfl hne
    · rintro (⟨_, -, hsome, -⟩ | hclears)
      · exact absurd hsome (by simp)
      · exact absurd hclears.2 hclear
  · refine ⟨ps ++ [(s.vars.disp, s.vars.msg2)], ?_, ?_⟩
    · rw [outputs_concat, hps, hpending]
      simp [HudState.output, HudState.pending, generation, hpc]
    · rw [List.forall_mem_append, List.forall_mem_singleton, hmatch, noClear_concat]
      have hstrip : s.vars.disp.textID3 = s.vars.msg2.syncBit ↔ ¬s.ClearStrip (.call true) := by
        cases job with
        -- the frame of a clear carries 0, its strip never does
        | startup | clear =>
          rw [hframes.1]
          simpa [HudState.ClearStrip, HudState.ClearAt, hpc, clearDisplay] using hframes.2.symm
        | paint | keepAlive | keepSign =>
          have hequal : s.vars.disp.textID3 = s.vars.msg2.syncBit := hframes
          simp [HudState.ClearStrip, HudState.ClearAt, hpc, hequal]
      rw [hstrip]

theorem gen_step (hdebug : cfg.hudDebug = false) (h : Gen cfg tr s) (hguard : SendsOk s a)
    (hstep : hudStep cfg s a = some s') : Gen cfg (tr ++ [(s, a)]) s' := by
  cases hudSteps_of_hudStep hstep with
  | routeEnd | routeStart | nextTurn | distance | publish | zero | requestClear | requestFullclear
  | tick =>
    exact h.aside hstep (fun ok h' => by cases h') rfl rfl id
  | hudStatus =>
    refine h.aside hstep (fun ok h' => by cases h') rfl rfl fun hpresent => ?_
    exact hguard.resolve_left (by simpa using hpresent)
  | read hpc =>
    have hpainted := h.painted
    rw [hpc] at hpainted
    refine h.advance hstep (fun ok h' => by cases h') rfl rfl hpainted trivial ?_
    unfold HudState.pending
    rw [hpc]
  | msg1Sent hpc => exact h.msg1 hpc hstep
  | msg1Failed => exact absurd hguard (by simp [SendsOk])
  | msg2 hpc =>
    obtain rfl : _ = true := hguard
    exact h.msg2 hpc hstep
  | sender hadvances => exact h.advances hdebug hstep hadvances

theorem gen_run (hdebug : cfg.hudDebug = false) {init : HudState} (hstart : init.AtStart)
    (htr : SenderTrace cfg init tr s) : Gen cfg tr s := by
  induction htr with
  | start => exact gen_init cfg hstart
  | next _ hstep hguard ih => exact gen_step hdebug ih hguard hstep

/-! ## The runs -/

/-- The clear of the bring-up goes out as two generations: its frame carries 0, its
strip 1. -/
theorem startup_clear_unpaired : ¬∀ cfg init tr s, cfg.hudDebug = false → init.AtStart →
    SenderTrace cfg init tr s → Paired (outputs tr) ∧ SyncExact cfg tr := by
  intro h
  obtain ⟨tr, s, htr, hout⟩ : ∃ tr s, SenderTrace ⟨false, false, false⟩ {} tr s ∧
      outputs tr = [.display clearDisplay, .strip (clearStrip 1)] :=
    Trace.exists_of_record [.sender, .call true, .call true] (by decide +kernel)
  have hpaired := (h ⟨false, false, false⟩ {} tr s rfl ⟨rfl, rfl⟩ htr).1
  rw [hout] at hpaired
  exact absurd hpaired.1 (by decide)

/-- **One generation.** In a run with the overlay off the frames go out in pairs, and the
sync value advances with the maneuver painted, exactly if no `send_clear` sends its
strip. -/
theorem paired_iff (hdebug : cfg.hudDebug = false) {init : HudState} (hstart : init.AtStart)
    (htr : SenderTrace cfg init tr s) :
    (Paired (outputs tr) ∧ SyncExact cfg tr) ↔ NoClear tr := by
  have h := gen_run hdebug hstart htr
  obtain ⟨ps, hps, hmatch⟩ := h.out
  have hpending : Paired s.pending := by
    unfold HudState.pending
    split <;> trivial
  rw [hps, paired_generations, hmatch]
  exact ⟨fun hp => hp.1.1, fun hclear => ⟨⟨hclear, hpending⟩, h.exact⟩⟩

/-- A route that is live at bring-up, and a keep-alive. -/
theorem paired_iff_live : ∃ tr s, SenderTrace ⟨false, false, false⟩ {} tr s ∧
    (outputs tr).length = 4 ∧ Paired (outputs tr) ∧ SyncExact ⟨false, false, false⟩ tr := by
  obtain ⟨tr, s, htr, hlength, hclear⟩ : ∃ tr s, SenderTrace ⟨false, false, false⟩ {} tr s ∧
      (outputs tr).length = 4 ∧ NoClear tr :=
    Trace.exists_of_record [.nextTurn (some [0x41]) 1 4 0 0, .rx, .sender, .read none 0 none,
      .sender, .call true, .call true, .sender, .sender, .sender, .tick, .sender,
      .read none 0 none, .sender, .call true, .call true] (by decide +kernel)
  exact ⟨tr, s, htr, hlength, (paired_iff rfl ⟨rfl, rfl⟩ htr).mpr hclear⟩

end OemAaMod.Carplay
