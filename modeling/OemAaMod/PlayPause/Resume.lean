import OemAaMod.PlayPause.Bridge

/-!
# The bridge resumes only what it paused

* `OwnPause` — the history has a delivered pause of the same bus connection, and
  nothing since that settles it;
* `BridgeInv` — the latch means an own pause, and the exemption belongs to the
  watcher's thread while it sends MEDIA_PLAY;
* `resumes_only_own_pause` — in every run MEDIA_PLAY is attempted only over an own
  pause, and the hook lets the key through to the real symbol only from such a send.
-/

namespace OemAaMod.PlayPause

open Run (Reach)

/-! ## Histories -/

/-- A pause is over: the connection or the session changed, the phone was resumed, or
the resume was given up. -/
def Event.Settles : Event → Prop
  | .started | .stopped | .connected | .disconnected | .dropped => True
  | .delivered key => key = kAAPKeyMediaPlay
  | _ => False

/-- A MEDIA_PAUSE was delivered and nothing has settled it. The newest event is first. -/
def OwnPause (hist : List Event) : Prop :=
  ∃ since older, hist = since ++ .delivered kAAPKeyMediaPause :: older ∧ ∀ e ∈ since, ¬e.Settles

/-- Every attempt to play was made over an own pause. -/
def PlaysOwn (hist : List Event) : Prop :=
  ∀ older, .attempt kAAPKeyMediaPlay :: older <:+ hist → OwnPause older

/-- What the hook may do with a call. -/
def Filtered (block : Bool) : Event → Prop
  | .call _ inSend args forwarded =>
    forwarded = if block = true ∧ inSend ≠ some kAAPKeyMediaPlay ∧
      shouldFilterMediaPlay args.event = true then none else some args
  | _ => True

variable {block : Bool} {s s' : BridgeState} {hist : List Event} {e : Event}

theorem ownPause_delivered (hist : List Event) :
    OwnPause (.delivered kAAPKeyMediaPause :: hist) :=
  ⟨[], hist, rfl, fun _ h => absurd h (by simp)⟩

theorem OwnPause.cons (h : OwnPause hist) (he : ¬e.Settles) : OwnPause (e :: hist) := by
  obtain ⟨since, older, rfl, hsince⟩ := h
  exact ⟨e :: since, older, rfl, List.forall_mem_cons.mpr ⟨he, hsince⟩⟩

theorem playsOwn_cons (h : PlaysOwn hist)
    (he : e = .attempt kAAPKeyMediaPlay → OwnPause hist) : PlaysOwn (e :: hist) := by
  intro older hsuffix
  rcases List.suffix_cons_iff.mp hsuffix with heq | hsuffix
  · obtain ⟨rfl, rfl⟩ := List.cons.inj heq
    exact he rfl
  · exact h older hsuffix

/-! ## The invariant -/

/-- The watcher has a connection. -/
def WatcherPc.Connected : WatcherPc → Prop
  | .watching | .press .. | .release .. => True
  | _ => False

/-- What the watcher and the hook keep. -/
structure BridgeInv (block : Bool) (s : BridgeState) : Prop where
  plays : PlaysOwn s.hist
  calls : ∀ e ∈ s.hist, Filtered block e
  -- between two connections the latch may be stale, until the next one clears it
  latch : s.pc.Connected → s.wePaused = true → OwnPause s.hist
  fresh : s.pc = .setup → s.wePaused = false
  /-- The exempted thread is the watcher, as long as it sends MEDIA_PLAY. -/
  allow : ∀ t, s.allow t = true ↔ t = s.watcher ∧ s.pc.sending = some kAAPKeyMediaPlay
  saved : ∀ key previous, s.pc = .press key previous ∨ (∃ rc, s.pc = .release key previous rc) →
    previous = false
  alive : s.pc ≠ .absent → s.threadUp = true

/-- A connected watcher outside of a send. -/
structure Idle (block : Bool) (s : BridgeState) : Prop where
  plays : PlaysOwn s.hist
  calls : ∀ e ∈ s.hist, Filtered block e
  latch : s.wePaused = true → OwnPause s.hist
  allow : ∀ t, s.allow t = false
  alive : s.threadUp = true

theorem bridgeInv_init (block : Bool) : BridgeInv block {} where
  plays := fun _ h => absurd (List.suffix_nil.mp h) (by simp)
  calls := fun _ h => absurd h (by simp)
  latch := fun h => h.elim
  fresh := fun _ => rfl
  allow := fun t => by simp [WatcherPc.sending]
  saved := fun key previous h => by simp at h
  alive := fun h => absurd rfl h

/-- Outside of a send of MEDIA_PLAY no thread is exempted. -/
theorem BridgeInv.allow_eq_false (h : BridgeInv block s)
    (hsending : s.pc.sending ≠ some kAAPKeyMediaPlay) (t : ThreadId) : s.allow t = false := by
  rw [Bool.eq_false_iff]
  intro ht
  exact hsending ((h.allow t).mp ht).2

theorem BridgeInv.idle (h : BridgeInv block s) (hpc : s.pc = .watching) : Idle block s where
  plays := h.plays
  calls := h.calls
  latch := h.latch (by rw [hpc]; trivial)
  allow := h.allow_eq_false (by simp [hpc, WatcherPc.sending])
  alive := h.alive (by simp [hpc])

/-- An idle watcher, wherever it goes on from here without a send. -/
theorem Idle.at (h : Idle block s) {pc : WatcherPc} (hpc : pc = .watching) :
    BridgeInv block { s with pc } where
  plays := h.plays
  calls := h.calls
  latch := fun _ => h.latch
  fresh := fun hsetup => absurd (hpc.symm.trans hsetup) (by simp)
  allow := fun t => by simp [h.allow t, hpc, WatcherPc.sending]
  saved := fun key previous hsave => by simp [hpc] at hsave
  alive := fun _ => h.alive

/-! ## The steps -/

/-- What is noted in passing: neither a play nor anything that settles a pause. -/
theorem BridgeInv.note (h : BridgeInv block s) (hplay : e ≠ .attempt kAAPKeyMediaPlay)
    (hcall : Filtered block e) (hsettles : ¬e.Settles) : BridgeInv block (s.note e) where
  plays := playsOwn_cons h.plays fun he => absurd he hplay
  calls := List.forall_mem_cons.mpr ⟨hcall, h.calls⟩
  latch := fun hpc hpaused => (h.latch hpc hpaused).cons hsettles
  fresh := h.fresh
  allow := h.allow
  saved := h.saved
  alive := h.alive

/-- The hook filters by the exemption, and that is by who sends. -/
theorem BridgeInv.hook (h : BridgeInv block s) {t : ThreadId} {inSend : Option UInt32}
    (hsend : s.allow t = true ↔ inSend = some kAAPKeyMediaPlay) (args : KeyArgs) (rc : Int32) :
    BridgeInv block (s.hook block t inSend args rc) := by
  refine h.note (by simp) ?_ (by simp [Event.Settles])
  show (aapSendKeyInput block (s.allow t) (some rc) args).2 = _
  unfold aapSendKeyInput
  by_cases hplay : inSend = some kAAPKeyMediaPlay
  · -- a send of MEDIA_PLAY: exempted
    rw [hsend.mpr hplay, if_neg (by simp), if_neg (by simp [hplay])]
  · have hallow : s.allow t = false := by
      rw [Bool.eq_false_iff]
      exact fun ht => hplay (hsend.mp ht)
    by_cases hfilter : block = true ∧ shouldFilterMediaPlay args.event = true
    · rw [if_pos (by simp [hallow, hfilter]), if_pos ⟨hfilter.1, hplay, hfilter.2⟩]
    · rw [if_neg (by simpa [hallow] using hfilter), if_neg fun hall => hfilter ⟨hall.1, hall.2.2⟩]

theorem BridgeInv.sendKeyInput (h : BridgeInv block s) {key : UInt32}
    (hkey : s.pc.sending = some key) (down : UInt32) (through : Option (UInt32 × Int32)) :
    BridgeInv block (s.sendKeyInput block ⟨kAAPKeyEventType, key, down⟩ through) := by
  cases through with
  | none => exact h
  | some call =>
    refine h.hook ?_ _ _
    -- the watcher is exempted exactly for the key it sends
    rw [h.allow, hkey]
    simp

theorem Idle.sent (h : Idle block s) (key : UInt32) (delivered : Bool) :
    BridgeInv block (s.sent key delivered) := by
  unfold BridgeState.sent
  split
  · refine Idle.at (s := { s with
      wePaused := key == kAAPKeyMediaPause
      pc := .watching }.note (.delivered key)) ⟨?_, ?_, ?_, h.allow, h.alive⟩ rfl
    · exact playsOwn_cons h.plays fun he => absurd he (by simp)
    · exact List.forall_mem_cons.mpr ⟨trivial, h.calls⟩
    · intro hpaused
      -- the latch is set by a pause and by nothing else
      have hkey : key = kAAPKeyMediaPause := beq_iff_eq.mp hpaused
      rw [hkey]
      exact ownPause_delivered s.hist
  · exact h.at rfl

/-- `send_media_key` is entered for a pause, or for a play over an own pause. -/
theorem Idle.sendMediaKey (h : Idle block s) {key : UInt32} (oem : OemMedia)
    (hkey : key = kAAPKeyMediaPlay → s.wePaused = true) :
    BridgeInv block (s.sendMediaKey key oem) := by
  have hnote : Idle block (s.note (.attempt key)) := by
    refine ⟨?_, ?_, fun hpaused => (h.latch hpaused).cons (by simp [Event.Settles]), h.allow,
      h.alive⟩
    · refine playsOwn_cons h.plays fun he => h.latch (hkey ?_)
      exact Event.attempt.inj he
    · exact List.forall_mem_cons.mpr ⟨trivial, h.calls⟩
  unfold BridgeState.sendMediaKey
  extract_lets s₁
  split
  · exact hnote.sent key false
  · split
    · exact hnote.sent key false
    · refine ⟨hnote.plays, hnote.calls, fun _ => hnote.latch, fun hsetup => by simp at hsetup, ?_, ?_,
        fun _ => hnote.alive⟩
      · -- the exemption is taken for a play only
        intro t
        by_cases hplay : key = kAAPKeyMediaPlay
        · by_cases ht : t = s.watcher
          · simp [hplay, ht, s₁, BridgeState.note, WatcherPc.sending]
          · simp [hplay, ht, s₁, BridgeState.note, WatcherPc.sending, h.allow t]
        · simp [hplay, s₁, BridgeState.note, WatcherPc.sending, h.allow t]
      · rintro key' previous (hpress | ⟨rc, hrelease⟩)
        · obtain ⟨-, rfl⟩ := WatcherPc.press.inj hpress
          exact h.allow s.watcher
        · simp at hrelease

theorem Idle.onMuteChanged (h : Idle block s) (hpc : s.pc = .watching) (muted : Bool)
    (oem : OemMedia) : BridgeInv block (s.onMuteChanged muted oem) := by
  have hsame : BridgeInv block s := h.at hpc
  unfold BridgeState.onMuteChanged
  split
  · split
    · exact hsame
    · split
      · exact hsame
      · exact h.sendMediaKey oem fun hkey => absurd hkey (by decide)
  · split
    · exact hsame
    · rename_i hpaused
      split
      · -- the resume is given up, and with it the latch
        refine Idle.at (s := { s with wePaused := false }.note .dropped)
          ⟨?_, ?_, ?_, h.allow, h.alive⟩ hpc
        · exact playsOwn_cons h.plays fun he => absurd he (by simp)
        · exact List.forall_mem_cons.mpr ⟨trivial, h.calls⟩
        · exact fun hfalse => absurd hfalse (by simp [BridgeState.note])
      · exact h.sendMediaKey oem fun _ => by simpa using hpaused

theorem Idle.handleMessage (h : Idle block s) (hpc : s.pc = .watching) (msg : BusMessage)
    (oem : OemMedia) : BridgeInv block (s.handleMessage msg oem) := by
  have hsame : BridgeInv block s := h.at hpc
  unfold BridgeState.handleMessage
  split
  · split
    · exact h.onMuteChanged hpc true oem
    · split
      · exact h.onMuteChanged hpc false oem
      · exact hsame
  · exact hsame

/-- Without a connection only the exemption and the past matter. -/
theorem BridgeInv.off {t : BridgeState} (h : BridgeInv block s) (hsend : s.pc.sending = none)
    (hplays : PlaysOwn t.hist) (hcalls : ∀ e ∈ t.hist, Filtered block e)
    (hallow : t.allow = s.allow) (hpc : ¬t.pc.Connected) (hfresh : t.pc = .setup → t.wePaused = false)
    (halive : t.pc ≠ .absent → t.threadUp = true) : BridgeInv block t where
  plays := hplays
  calls := hcalls
  latch := fun hconn => absurd hconn hpc
  fresh := hfresh
  allow := fun i => by
    have hold := h.allow i
    rw [hsend] at hold
    have hnew : t.pc.sending = none := by
      cases hcase : t.pc <;> first | rfl | exact absurd (by rw [hcase]; trivial) hpc
    rw [hallow, hold, hnew]
    simp
  saved := by
    rintro key previous (hpress | ⟨rc, hrelease⟩)
    · exact absurd (by rw [hpress]; trivial) hpc
    · exact absurd (by rw [hrelease]; trivial) hpc
  alive := halive

theorem BridgeInv.noted (h : BridgeInv block s) (hplay : e ≠ .attempt kAAPKeyMediaPlay)
    (hcall : Filtered block e) :
    PlaysOwn (e :: s.hist) ∧ ∀ e' ∈ e :: s.hist, Filtered block e' :=
  ⟨playsOwn_cons h.plays fun he => absurd he hplay, List.forall_mem_cons.mpr ⟨hcall, h.calls⟩⟩

theorem BridgeInv.start (h : BridgeInv block s) (r : StartResult) : BridgeInv block (s.start r) := by
  unfold BridgeState.start
  split
  · exact h
  · rename_i hup
    -- without a watcher, so there is no exemption to lose
    have hpc : s.pc = .absent := by
      by_contra hne
      exact hup (h.alive hne)
    have hsend : s.pc.sending = none := by rw [hpc]; rfl
    extract_lets s₁
    have hoff : BridgeInv block s₁ := by
      refine h.off hsend h.plays h.calls rfl ?_ (fun hsetup => rfl) fun hne => absurd hpc hne
      rw [show s₁.pc = .absent from hpc]
      exact fun hconn => hconn
    cases r with
    | noEventFd => exact hoff
    | noThread => exact hoff
    | spawned watcher =>
      obtain ⟨hplays, hcalls⟩ := hoff.noted (e := .started) (by simp) trivial
      refine hoff.off hsend hplays hcalls ?_ (fun hconn => hconn) (fun hsetup => rfl) fun _ => rfl
      -- the new thread has no exemption, like the others
      have hnone := h.allow_eq_false (by simp [hsend])
      funext t
      show Function.update s.allow watcher false t = s.allow t
      by_cases ht : t = watcher
      · rw [ht, Function.update_self, hnone]
      · rw [Function.update_of_ne ht]

theorem bridgeInv_step {a : BridgeAction} (h : BridgeInv block s)
    (hstep : bridgeStep block s a = some s') : BridgeInv block s' := by
  cases a with
  | start r =>
    rw [bridgeStep, Option.some_inj] at hstep
    exact hstep ▸ h.start r
  | requestStop written =>
    simp only [bridgeStep, Option.ite_none_right_eq_some, Option.some_inj] at hstep
    obtain ⟨-, rfl⟩ := hstep
    exact ⟨h.plays, h.calls, h.latch, h.fresh, h.allow, h.saved, h.alive⟩
  | join =>
    simp only [bridgeStep, Option.ite_none_right_eq_some, Option.some_inj] at hstep
    obtain ⟨⟨-, hpc⟩, rfl⟩ := hstep
    obtain ⟨hplays, hcalls⟩ := h.noted (e := .stopped) (by simp) trivial
    exact h.off (by rw [hpc]; rfl) hplays hcalls rfl (fun hconn => hconn) (fun _ => rfl)
      fun hne => absurd rfl hne
  | loop =>
    simp only [bridgeStep, Option.ite_none_right_eq_some, Option.some_inj] at hstep
    obtain ⟨hpc, rfl⟩ := hstep
    have hsend : s.pc.sending = none := by rw [hpc]; rfl
    have hup := h.alive (by simp [hpc])
    split
    · exact h.off hsend h.plays h.calls rfl (fun hconn => hconn) (fun hsetup => by simp at hsetup)
        fun _ => hup
    · -- a new connection starts with a clear latch
      exact h.off hsend h.plays h.calls rfl (fun hconn => hconn) (fun _ => rfl) fun _ => hup
  | setup ok =>
    simp only [bridgeStep, Option.ite_none_right_eq_some, Option.some_inj] at hstep
    obtain ⟨hpc, rfl⟩ := hstep
    have hsend : s.pc.sending = none := by rw [hpc]; rfl
    have hup := h.alive (by simp [hpc])
    split
    · obtain ⟨hplays, hcalls⟩ := h.noted (e := .connected) (by simp) trivial
      refine Idle.at (s := { s with pc := .watching }.note .connected)
        ⟨hplays, hcalls, fun hpaused => ?_, h.allow_eq_false (by simp [hsend]), hup⟩ rfl
      -- the latch was cleared before the connection was made
      exact absurd ((h.fresh hpc).symm.trans hpaused) (by simp)
    · exact h.off hsend h.plays h.calls rfl (fun hconn => hconn) (fun hsetup => by simp at hsetup)
        fun _ => hup
  | message msg oem =>
    simp only [bridgeStep, Option.ite_none_right_eq_some, Option.some_inj] at hstep
    obtain ⟨hpc, rfl⟩ := hstep
    exact (h.idle hpc).handleMessage hpc msg oem
  | leave =>
    simp only [bridgeStep, Option.ite_none_right_eq_some, Option.some_inj] at hstep
    obtain ⟨hpc, rfl⟩ := hstep
    obtain ⟨hplays, hcalls⟩ := h.noted (e := .disconnected) (by simp) trivial
    exact h.off (by rw [hpc]; rfl) hplays hcalls rfl (fun hconn => hconn)
      (fun hsetup => by simp [BridgeState.note] at hsetup) fun _ => h.alive (by simp [hpc])
  | backoff =>
    simp only [bridgeStep, Option.ite_none_right_eq_some, Option.some_inj] at hstep
    obtain ⟨hpc, rfl⟩ := hstep
    have hup := h.alive (by simp [hpc])
    refine h.off (by rw [hpc]; rfl) h.plays h.calls rfl ?_ ?_ fun _ => hup
    · cases s.stop <;> exact fun hconn => hconn
    · cases s.stop <;> exact fun hsetup => by simp at hsetup
  | press through rcDown =>
    rw [bridgeStep] at hstep
    split at hstep
    · rename_i key previous hpc
      obtain rfl := Option.some_inj.mp hstep
      have hkey : s.pc.sending = some key := by rw [hpc]; rfl
      have hcalled := h.sendKeyInput hkey 1 through
      have hpc₁ : (s.sendKeyInput block ⟨kAAPKeyEventType, key, 1⟩ through).pc =
          .press key previous := by
        cases through <;> exact hpc
      refine ⟨hcalled.plays, hcalled.calls, fun _ => hcalled.latch (by rw [hpc₁]; trivial),
        fun hsetup => by simp at hsetup, fun t => ?_, ?_, fun _ => hcalled.alive (by simp [hpc₁])⟩
      · rw [hcalled.allow t, hpc₁]
        rfl
      · rintro key' previous' (hpress | ⟨rc, hrelease⟩)
        · simp at hpress
        · obtain ⟨-, rfl, -⟩ := WatcherPc.release.inj hrelease
          exact h.saved key previous (.inl hpc)
    · exact absurd hstep (by simp)
  | release through rcUp =>
    rw [bridgeStep] at hstep
    split at hstep
    · rename_i key previous rcDown hpc
      obtain rfl := Option.some_inj.mp hstep
      have hkey : s.pc.sending = some key := by rw [hpc]; rfl
      have hcalled := h.sendKeyInput hkey 0 through
      have hpc₁ : (s.sendKeyInput block ⟨kAAPKeyEventType, key, 0⟩ through).pc =
          .release key previous rcDown := by
        cases through <;> exact hpc
      set s₁ := s.sendKeyInput block ⟨kAAPKeyEventType, key, 0⟩ through
      refine Idle.sent (s := { s₁ with allow := Function.update s₁.allow s₁.watcher previous })
        ⟨hcalled.plays, hcalled.calls, hcalled.latch (by rw [hpc₁]; trivial), fun t => ?_,
          hcalled.alive (by simp [hpc₁])⟩ key _
      -- the exemption goes back to what it was, which is none
      have hprev : previous = false := h.saved key previous (.inr ⟨rcDown, hpc⟩)
      show Function.update s₁.allow s₁.watcher previous t = false
      by_cases ht : t = s₁.watcher
      · rw [ht, Function.update_self, hprev]
      · -- any other thread had none
        rw [Function.update_of_ne ht, Bool.eq_false_iff]
        exact fun hallow => ht ((hcalled.allow t).mp hallow).1
    · exact absurd hstep (by simp)
  | keyInput t args rc =>
    simp only [bridgeStep, Option.ite_none_left_eq_some, Option.some_inj] at hstep
    obtain ⟨hother, rfl⟩ := hstep
    refine h.hook (iff_of_false ?_ (by simp)) args rc
    -- an exempted thread is the watcher's, which makes no call of its own
    intro ht
    obtain ⟨rfl, hplay⟩ := (h.allow t).mp ht
    refine hother ⟨h.alive ?_, rfl⟩
    rintro hpc
    rw [hpc] at hplay
    exact absurd hplay (by simp [WatcherPc.sending])

/-! ## Results -/

theorem resumes_only_own_pause (block : Bool) {s : BridgeState}
    (h : Reach (bridgeStep block) (fun _ _ => True) {} s) :
    (∀ older, .attempt kAAPKeyMediaPlay :: older <:+ s.hist → OwnPause older) ∧
      ∀ t inSend args forwarded, .call t inSend args forwarded ∈ s.hist →
        (shouldFilterMediaPlay args.event = true → block = true → forwarded ≠ none →
          inSend = some kAAPKeyMediaPlay) ∧
        (shouldFilterMediaPlay args.event = false → forwarded = some args) := by
  have hinv : BridgeInv block s :=
    h.invariant (bridgeInv_init block) fun _ _ _ hinv _ hstep => bridgeInv_step hinv hstep
  refine ⟨hinv.plays, fun t inSend args forwarded hmem => ?_⟩
  have hcall : forwarded = _ := hinv.calls _ hmem
  constructor
  · intro hfilter hblock hforwarded
    by_contra hother
    exact hforwarded (hcall.trans (if_pos ⟨hblock, hother, hfilter⟩))
  · intro hfilter
    exact hcall.trans (if_neg fun hall => by simp [hfilter] at hall)

/-- Everything in order, and answered with success. -/
def allThere : OemMedia := ⟨true, true, true, true, true, true⟩

/-- A mute and an unmute; another thread sends MEDIA_PLAY in the middle of the resume. -/
def muteCycle : List BridgeAction :=
  [.start (.spawned 1), .loop, .setup true,
    .message (.mute (some (.byte 2))) allThere, .press (some (5, 0)) 0, .release (some (5, 0)) 0,
    .message (.mute (some (.byte 1))) allThere, .press (some (5, 0)) 0,
    .keyInput 2 ⟨5, some ⟨kAAPKeyEventType, kAAPKeyMediaPlay, 1⟩⟩ 0, .release (some (5, 0)) 0]

theorem resumes_only_own_pause_cycle :
    ∃ s : BridgeState, .attempt kAAPKeyMediaPlay ∈ s.hist ∧
      (∀ older, .attempt kAAPKeyMediaPlay :: older <:+ s.hist → OwnPause older) ∧
        ∀ t inSend args forwarded, .call t inSend args forwarded ∈ s.hist →
          (shouldFilterMediaPlay args.event = true → true = true → forwarded ≠ none →
            inSend = some kAAPKeyMediaPlay) ∧
          (shouldFilterMediaPlay args.event = false → forwarded = some args) := by
  obtain ⟨s, hreach, hplay⟩ : ∃ s, Reach (bridgeStep true) (fun _ _ => True) {} s ∧
      .attempt kAAPKeyMediaPlay ∈ s.hist := Reach.exists_of_replay muteCycle (by decide)
  exact ⟨s, hplay, resumes_only_own_pause true hreach⟩

end OemAaMod.PlayPause
