import OemAaMod.Carplay.NavOff

/-!
# Clear requests and failing sends

The sender takes a request before it tries to send the clear, and does not put it
back when the send fails.

* `ClearState`, `clearStep` — the sender, with what became of the last request;
* `Drops` — the step that loses it: the maneuver frame of a clear does not go out
  blank, and no other request is pending;
* `clear_kept` — without such a step a request is pending or answered whenever the
  sender waits.
-/

namespace OemAaMod.Carplay

/-! ## The system -/

structure ClearState where
  hud     : HudState := {}
  /-- A clear was requested, and no maneuver published since. -/
  asked   : Bool := false
  /-- A blank maneuver frame was sent since the last request. -/
  blanked : Bool := false

def ClearState.askedAfter (s : ClearState) : HudAction → Bool
  | .requestClear | .requestFullclear => true
  | .nextTurn .. => false
  | _ => s.asked

/-- The message is a maneuver frame with the icon 0. -/
def BlanksManeuver : HudMsg → Prop
  | .display disp => disp.nextManeuverInfo = 0
  | _ => False

instance : (m : HudMsg) → Decidable (BlanksManeuver m)
  | .display _ => inferInstanceAs (Decidable (_ = _))
  | .strip _ | .guidance .. | .recommLane _ => inferInstanceAs (Decidable False)

def ClearState.blankedAfter (s : ClearState) (a : HudAction) : Bool :=
  match a with
  | .requestClear | .requestFullclear => false
  | a => s.blanked || (s.hud.output a).any fun m => decide (BlanksManeuver m)

def clearStep (cfg : Config) (s : ClearState) (a : HudAction) : Option ClearState :=
  (hudStep cfg s.hud a).map fun hud =>
    { hud
      asked := s.askedAfter a
      blanked := s.blankedAfter a }

/-- A request that was not overtaken by a maneuver is pending or answered. -/
def ClearKept (s : ClearState) : Prop :=
  s.hud.pc = .waiting → s.asked = true →
    s.hud.clearReq = true ∨ s.hud.fullclearReq = true ∨ s.blanked = true

instance (s : ClearState) : Decidable (ClearKept s) := inferInstanceAs (Decidable (_ → _ → _))

/-- The sender is at the maneuver frame of a requested clear. -/
def SenderPc.Clears : SenderPc → Prop
  | .msg1 .clear | .msg1 .keepSign => True
  | _ => False

instance : (pc : SenderPc) → Decidable pc.Clears
  | .msg1 .clear | .msg1 .keepSign => inferInstanceAs (Decidable True)
  | .msg1 .startup | .msg1 .paint | .msg1 .keepAlive | .startup | .reading | .painting | .msg2 _
  | .takeFull | .takeNav | .storeHave _ | .resetPrev _ | .reload | .navReset | .rest | .waiting =>
    inferInstanceAs (Decidable False)

/-- The last request is not answered. -/
def ClearState.Open (s : ClearState) : Prop := s.asked = true ∧ s.blanked = false

instance (s : ClearState) : Decidable s.Open := inferInstanceAs (Decidable (_ ∧ _))

/-- The steps that lose a request: its maneuver frame fails or is not blank, or there
is no HUD to send it to. -/
def Drops (s : ClearState) : HudAction → Prop
  | .call ok => s.Open ∧ s.hud.pc.Clears ∧ s.hud.clearReq = false ∧ s.hud.fullclearReq = false ∧
      ¬(ok = true ∧ s.hud.vars.disp.nextManeuverInfo = 0)
  | .sender => s.Open ∧ s.hud.pc = .takeNav ∧ s.hud.fullclearReq = false ∧ s.hud.hudAbsent = true
  | _ => False

instance (s : ClearState) : (a : HudAction) → Decidable (Drops s a)
  | .call _ => inferInstanceAs (Decidable (_ ∧ _ ∧ _ ∧ _ ∧ _))
  | .sender => inferInstanceAs (Decidable (_ ∧ _ ∧ _ ∧ _))
  | .status _ | .nextTurn .. | .distance .. | .rx | .requestClear | .requestFullclear | .tick
  | .hudStatus _ | .read .. => inferInstanceAs (Decidable False)

/-! ## Where a request is -/

/-- A request is pending, taken, or at the frame that answers it. -/
def HudState.Holding (s : HudState) : Prop :=
  s.clearReq = true ∨ s.fullclearReq = true ∨ (s.pc = .takeNav ∧ s.vars.fullReq = true) ∨ s.pc.Clears

def ClearInv (s : ClearState) : Prop := s.Open → s.hud.Holding

variable {cfg : Config} {s s' : ClearState}

theorem clearKept_of_inv (h : ClearInv s) : ClearKept s := by
  intro hpc hasked
  cases hblanked : s.blanked with
  | true => exact .inr (.inr rfl)
  | false =>
    rcases h ⟨hasked, hblanked⟩ with hclear | hfull | ⟨htake, -⟩ | hclears
    · exact .inl hclear
    · exact .inr (.inl hfull)
    · exact absurd (hpc.symm.trans htake) (by simp)
    · rw [hpc] at hclears
      exact hclears.elim

/-- Pending requests stay with steps that leave the flags. -/
theorem HudState.Holding.of_flags {h h' : HudState}
    (hflags : h.clearReq = true ∨ h.fullclearReq = true) (hclear : h'.clearReq = h.clearReq)
    (hfull : h'.fullclearReq = h.fullclearReq) : h'.Holding := by
  rcases hflags with hreq | hreq
  · exact .inl (hclear.trans hreq)
  · exact .inr (.inl (hfull.trans hreq))

/-- Steps of the other threads. -/
theorem HudState.Holding.shared {h h' : HudState} (hold : h.Holding) (hpc : h'.pc = h.pc)
    (hvars : h'.vars = h.vars) (hclear : h.clearReq = true → h'.clearReq = true)
    (hfull : h.fullclearReq = true → h'.fullclearReq = true) : h'.Holding := by
  unfold HudState.Holding
  rw [hpc, hvars]
  rcases hold with hreq | hreq | htaken | hclears
  · exact .inl (hclear hreq)
  · exact .inr (.inl (hfull hreq))
  · exact .inr (.inr (.inl htaken))
  · exact .inr (.inr (.inr hclears))

/-- With a request taken and a HUD there, a clear is on its way. -/
theorem handle_clears {h : HudState} {navReq : Bool} (habsent : h.hudAbsent = false)
    (hreq : h.vars.fullReq = true ∨ navReq = true) : (h.handle cfg navReq).pc.Clears := by
  have hclear : (h.sendClear .clear).pc.Clears := by
    unfold HudState.sendClear
    rw [if_neg (by simp [habsent])]
    trivial
  unfold HudState.handle
  split
  · -- a full request clears; else it was the other one, which may keep the sign
    exact hclear
  · rename_i hfull
    rw [if_pos (hreq.resolve_left hfull)]
    split
    · unfold HudState.sendOne
      rw [if_neg (by simp [habsent])]
      split
      · -- a forced send always sends
        rename_i hsend
        exact absurd (congrArg Prod.fst hsend) (by simp [Carplay.sendOne])
      · trivial
    · exact hclear

/-- A step of the sender keeps the request, unless there is no HUD. -/
theorem holding_advance {h h' : HudState} (hold : h.Holding)
    (hguard : h.pc = .takeNav → h.fullclearReq = false → h.hudAbsent = false)
    (hadvances : Advances cfg h h') : h'.Holding := by
  -- away from the clear itself the request is still in a flag
  have hflags : h.pc ≠ .takeNav → ¬h.pc.Clears → h.clearReq = true ∨ h.fullclearReq = true := by
    intro hpc hclears
    rcases hold with hreq | hreq | ⟨htaken, -⟩ | hat
    · exact .inl hreq
    · exact .inr hreq
    · exact absurd htaken hpc
    · exact absurd hat hclears
  cases hadvances with
  | startup hpc =>
    rw [hpc] at hflags
    rw [sendClear_frame]
    exact .of_flags (hflags (by simp) id) rfl rfl
  | paint hpc =>
    rw [hpc] at hflags
    rw [paint_frame]
    exact .of_flags (hflags (by simp) id) rfl rfl
  | takeFull hpc =>
    rw [hpc] at hflags
    rcases hflags (by simp) id with hreq | hreq
    · exact .inl hreq
    · -- taken into the local the next exchange is joined with
      exact .inr (.inr (.inl ⟨rfl, hreq⟩))
  | takeNav hpc =>
    by_cases hfull : h.fullclearReq = true
    · rw [handle_frame]
      exact .inr (.inl hfull)
    · -- no new full request, so the one taken now is answered
      have hnone : h.fullclearReq = false := by simpa using hfull
      have hreq : h.vars.fullReq = true ∨ h.clearReq = true := by
        rcases hold with hreq | hreq | ⟨-, hreq⟩ | hat
        · exact .inr hreq
        · exact absurd hreq hfull
        · exact .inl hreq
        · rw [hpc] at hat
          exact hat.elim
      have habsent := hguard hpc hnone
      exact .inr (.inr (.inr (handle_clears (h := { h with clearReq := false }) habsent hreq)))
  | live hpc | storeHave hpc | resetPrev hpc | reload hpc | navReset hpc | rest hpc | wake hpc =>
    rw [hpc] at hflags
    exact .of_flags (hflags (by simp) id) rfl rfl

/-- An OEM call keeps the request, or answers it: where no other is pending, the frame
of the clear goes out, and is blank. -/
theorem flags_of_call {ok : Bool} (hinv : ClearInv s) (hguard : ¬Drops s (.call ok))
    (hopen : s.Open) (hkept : s.blankedAfter (.call ok) = false)
    (hpc : (∃ job, s.hud.pc = .msg1 job) ∨ ∃ job, s.hud.pc = .msg2 job) :
    s.hud.clearReq = true ∨ s.hud.fullclearReq = true := by
  by_contra hnone
  simp only [not_or, Bool.not_eq_true] at hnone
  obtain ⟨hclear, hfull⟩ := hnone
  rcases hinv hopen with hreq | hreq | ⟨htake, -⟩ | hclears
  · exact absurd (hclear.symm.trans hreq) (by simp)
  · exact absurd (hfull.symm.trans hreq) (by simp)
  · rcases hpc with ⟨job, hpc⟩ | ⟨job, hpc⟩ <;> exact absurd (hpc.symm.trans htake) (by simp)
  · -- by the guard the frame of the clear goes out, and is blank: that answers the request
    have hsent : ok = true ∧ s.hud.vars.disp.nextManeuverInfo = 0 := by
      by_contra hnot
      exact hguard ⟨hopen, hclears, hclear, hfull, hnot⟩
    obtain ⟨rfl, hicon⟩ := hsent
    rcases hpc with ⟨job, hpc⟩ | ⟨job, hpc⟩
    · simp [ClearState.blankedAfter, HudState.output, hpc, BlanksManeuver, hicon] at hkept
    · rw [hpc] at hclears
      exact hclears.elim

/-- Only a request opens the question again. -/
theorem blanked_of_after {a : HudAction} (h : s.blankedAfter a = false)
    (ha : a ≠ .requestClear ∧ a ≠ .requestFullclear) : s.blanked = false := by
  unfold ClearState.blankedAfter at h
  split at h
  · exact absurd rfl ha.1
  · exact absurd rfl ha.2
  · exact (Bool.or_eq_false_iff.mp h).1

/-- **Step lemma.** -/
theorem clearInv_step {a : HudAction} (hinv : ClearInv s) (hguard : ¬Drops s a)
    (hstep : clearStep cfg s a = some s') : ClearInv s' := by
  simp only [clearStep, Option.map_eq_some_iff] at hstep
  obtain ⟨hud, hstep, rfl⟩ := hstep
  rintro ⟨hasked, hblanked⟩
  have hblanked : s.blankedAfter a = false := hblanked
  have hopen (hsame : s.askedAfter a = s.asked)
      (ha : a ≠ .requestClear ∧ a ≠ .requestFullclear) : s.Open :=
    ⟨hsame ▸ hasked, blanked_of_after hblanked ha⟩
  cases hudSteps_of_hudStep hstep with
  | requestClear => exact .inl rfl
  | requestFullclear => exact .inr (.inl rfl)
  | nextTurn => exact absurd hasked (by simp [ClearState.askedAfter])
  | msg1Sent hpc =>
    have hflags := flags_of_call hinv hguard (hopen rfl (by simp)) hblanked (.inl ⟨_, hpc⟩)
    unfold HudState.afterMsg1
    split <;> exact .of_flags hflags rfl rfl
  | msg1Failed hpc =>
    have hflags := flags_of_call hinv hguard (hopen rfl (by simp)) hblanked (.inl ⟨_, hpc⟩)
    rw [endSend_frame]
    exact .of_flags hflags rfl rfl
  | msg2 hpc =>
    have hflags := flags_of_call hinv hguard (hopen rfl (by simp)) hblanked (.inr ⟨_, hpc⟩)
    rw [endSend_frame]
    exact .of_flags hflags rfl rfl
  | sender hadvances =>
    have hopen := hopen rfl (by simp)
    refine holding_advance (hinv hopen) (fun hpc hfull => ?_) hadvances
    by_contra habsent
    exact hguard ⟨hopen, hpc, hfull, by simpa using habsent⟩
  | read hpc =>
    rcases hinv (hopen rfl (by simp)) with hreq | hreq | ⟨htake, -⟩ | hclears
    · exact .inl hreq
    · exact .inr (.inl hreq)
    · exact absurd (hpc.symm.trans htake) (by simp)
    · rw [hpc] at hclears
      exact hclears.elim
  | routeEnd | routeStart | distance | publish | zero | tick | hudStatus =>
    exact (hinv (hopen rfl (by simp))).shared rfl rfl id id

/-! ## Requests -/

/-- A route is shown, a clear requested, and its maneuver frame fails. -/
def failedClear (request : HudAction) : List HudAction :=
  [.sender, .call true, .call true, .nextTurn (some [65, 0]) 1 4 0 0, .rx,
    .read none 0 none, .sender, .call true, .call true, .sender, .sender, .sender,
    request, .tick, .sender, .read none 0 none, .sender, .call true, .call true,
    .sender, .sender, .call false, .sender]

/-- Either request is lost with the frame. -/
theorem clear_lost_by_failed_send :
    (¬∀ cfg init s, init.AtStart →
      Run.Reach (clearStep cfg) (fun _ a => a ≠ .requestFullclear) { hud := init } s →
        ClearKept s) ∧
    (¬∀ cfg init s, init.AtStart →
      Run.Reach (clearStep cfg) (fun _ a => a ≠ .requestClear) { hud := init } s →
        ClearKept s) := by
  constructor
  · intro h
    obtain ⟨s, hreach, hlost⟩ : ∃ s, Run.Reach (clearStep ⟨false, true, false⟩)
        (fun _ a => a ≠ .requestFullclear) { hud := {} } s ∧ ¬ClearKept s :=
      Run.Reach.exists_of_replay (failedClear .requestClear) (by decide +kernel)
    exact hlost (h ⟨false, true, false⟩ {} s ⟨rfl, rfl⟩ hreach)
  · intro h
    obtain ⟨s, hreach, hlost⟩ : ∃ s, Run.Reach (clearStep ⟨false, true, false⟩)
        (fun _ a => a ≠ .requestClear) { hud := {} } s ∧ ¬ClearKept s :=
      Run.Reach.exists_of_replay (failedClear .requestFullclear) (by decide +kernel)
    exact hlost (h ⟨false, true, false⟩ {} s ⟨rfl, rfl⟩ hreach)

/-- **A clear request is kept** in every run that sends the maneuver frame of a
clear, blank, unless another request is pending. -/
theorem clear_kept (cfg : Config) (init : HudState) :
    ∀ s, Run.Reach (clearStep cfg) (fun s a => ¬Drops s a) { hud := init } s → ClearKept s := by
  intro s h
  have hinit : ClearInv { hud := init } := fun hopen => absurd hopen.1 (by simp)
  have hinv : ClearInv s :=
    Run.Reach.invariant hinit (fun _ _ _ hi hg hs => clearInv_step hi hg hs) h
  exact clearKept_of_inv hinv

/-- A clear that goes out; and one that fails while a second request is pending. -/
theorem clear_kept_examples :
    (∃ s, ClearKept s ∧ s.hud.pc = .waiting ∧ s.asked = true ∧ s.blanked = true) ∧
    (∃ s, ClearKept s ∧ s.hud.pc = .waiting ∧ s.asked = true ∧ s.hud.clearReq = true) := by
  constructor
  · obtain ⟨s, hreach, hend⟩ : ∃ s, Run.Reach (clearStep ⟨false, true, false⟩)
        (fun s a => ¬Drops s a) { hud := {} } s ∧
        (s.hud.pc = .waiting ∧ s.asked = true ∧ s.blanked = true) :=
      Run.Reach.exists_of_replay ([.sender, .requestClear, .call true, .call true,
        .read none 0 none] ++ List.replicate 3 .sender ++ [.call true, .call true] ++
        List.replicate 5 .sender) (by decide +kernel)
    exact ⟨s, clear_kept ⟨false, true, false⟩ {} s hreach, hend⟩
  · obtain ⟨s, hreach, hend⟩ : ∃ s, Run.Reach (clearStep ⟨false, true, false⟩)
        (fun s a => ¬Drops s a) { hud := {} } s ∧
        (s.hud.pc = .waiting ∧ s.asked = true ∧ s.hud.clearReq = true) :=
      Run.Reach.exists_of_replay ([.sender, .requestClear, .call true, .call true,
        .read none 0 none] ++ List.replicate 3 .sender ++
        [.requestClear, .call false, .sender]) (by decide +kernel)
    exact ⟨s, clear_kept ⟨false, true, false⟩ {} s hreach, hend⟩

end OemAaMod.Carplay
