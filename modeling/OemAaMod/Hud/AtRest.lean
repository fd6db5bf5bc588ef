import OemAaMod.Hud.Frames
import OemAaMod.Hud.Mirror
import OemAaMod.Relay.Frame

/-!
# From the datagrams to the display

The whole of a 1.6 session in one process: datagrams from anyone, the callbacks they come
to, the transport's writes and the turns of the sender, in any order. Whenever it is at rest
the display shows what the callbacks have told so far, and from everywhere it can come to rest.

The sends succeed here (the code logs a failure and goes on), and a sender that is up can
always take its turn: that it is also woken for it is `Hud.Wakeup`'s matter.

* `HudSystem`, `systemStep` — `Hud.Pipeline` behind the receiver;
* `accAfter` — what the callbacks have told, the datagrams that are not well formed left out;
* `HudShows` — what there is on the display;
* `hud_at_rest_shows` — the two together.
-/

namespace OemAaMod

/-! ## The system -/

/-- One callback, on what was told before it. -/
def accNext (hudFoldLatin : Bool) (acc : AaNav16HudState) : SinkCall → AaNav16HudState
  | .guidance g => nav16OnGuidance hudFoldLatin acc g
  | .position p => (nav16OnPosition acc p).getD acc
  | .status st => if st.Clears then { road_terminated := zero_terminated } else acc

def accAfter (hudFoldLatin : Bool) (heard : List SinkCall) : AaNav16HudState :=
  heard.foldl (accNext hudFoldLatin) { road_terminated := zero_terminated }

/-- `heard` are the callbacks there were, for the statements. -/
structure HudSystem where
  pipe  : PipeState := {}
  heard : List SinkCall := []

inductive SystemAction
  /-- `recv` of `rx_main`, and the callback the frame comes to, if any. -/
  | datagram (dgram : List UInt8)
  | rx
  | activate
  | iterate (hudAbsent : Bool)
deriving DecidableEq

def systemStep (hudFoldLatin : Bool) (b : Backend) (s : HudSystem) : SystemAction → Option HudSystem
  | .datagram dgram =>
    if s.pipe.rx = .idle then
      match (rxRecv dgram).bind (hudNav16Feed hudSink) with
      | none => some s
      | some c => (pipeStep hudFoldLatin b s.pipe c.action).map fun pipe => ⟨pipe, s.heard ++ [c]⟩
    else none
  | .rx => (pipeStep hudFoldLatin b s.pipe .rx).map fun pipe => { s with pipe }
  | .activate => (pipeStep hudFoldLatin b s.pipe .activate).map fun pipe => { s with pipe }
  | .iterate hudAbsent =>
    (pipeStep hudFoldLatin b s.pipe (.iterate hudAbsent)).map fun pipe => { s with pipe }

/-! ## The display -/

/-- What the messages sent leave on the display. For svcnavi the last guidance, for the
direct wire the last message of each kind, with the distance on 16 bits. -/
def HudShows (b : Backend) (sent : List (List HudMsg)) (v : View) : Prop :=
  match b with
  | .svcnavi => (sent.flatten.getLast?).elim (v = .blank) (HudMsg.Shows v)
  | .vbs => ∃ cur : NaviSnapshot, cur.view = v ∧ (sent.flatten.foldl VbsHud.receive {}).Shows cur

/-- The counter is a write away from where the sender saw it last: 2^31 writes, and no turn
of the sender between them. -/
def ComesAround (s : PipeState) : Prop :=
  s.rx ≠ .record ∧ s.rx ≠ .reset ∧ ∃ sender ∈ s.sender, s.tx.seq + 2 = sender.lastProcessed

instance (s : PipeState) : Decidable (ComesAround s) :=
  inferInstanceAs (Decidable (_ ∧ _ ∧ ∃ sender ∈ s.sender, _))

/-- The sender comes to a turn now and then, the pipeline goes live in time, and there is a
HUD. -/
def Timely (b : Backend) (s : HudSystem) : SystemAction → Prop
  | .datagram _ => True
  | .rx => ¬ComesAround s.pipe
  | .activate => ¬LateActivation s.pipe .activate
  | .iterate hudAbsent => b = .vbs → hudAbsent = false

instance (b : Backend) (s : HudSystem) : (a : SystemAction) → Decidable (Timely b s a)
  | .datagram _ => isTrue trivial
  | .rx | .activate => inferInstanceAs (Decidable (¬_))
  | .iterate _ => inferInstanceAs (Decidable (_ → _))

/-- No callback is running, and the sender is through with what was written. -/
def AtRest (s : PipeState) : Prop :=
  s.rx = .idle ∧ ∃ sender ∈ s.sender, s.tx.seq = sender.lastProcessed

instance (s : PipeState) : Decidable (AtRest s) :=
  inferInstanceAs (Decidable (_ ∧ ∃ sender ∈ s.sender, _))

variable {hudFoldLatin : Bool} {b : Backend} {s s' : HudSystem} {p p' : PipeState}

/-! ### A turn, displayed -/

/-- A snapshot is shown by its view. -/
theorem VbsHud.Shows.congr {h : VbsHud} {cur cur' : NaviSnapshot} (hshows : h.Shows cur)
    (hview : cur.view = cur'.view) : h.Shows cur' := by
  obtain ⟨hglyph, hdist, hunit, hroad, hlanes⟩ := hshows
  have hicon : cur.dirIcon = cur'.dirIcon := congrArg View.glyph hview
  have hstreet : cur.roadName.str = cur'.roadName.str := congrArg View.road hview
  have hdec : cur.distanceDec = cur'.distanceDec := congrArg View.dist hview
  have hunits : cur.distanceUnit = cur'.distanceUnit := congrArg View.unit hview
  have hcodes : cur.lanes = cur'.lanes := congrArg View.lanes hview
  refine ⟨?_, ?_, ?_, ?_, ?_⟩
  · rw [← hicon]
    exact hglyph
  · rw [← hdec]
    exact hdist
  · rw [← hunits]
    exact hunit
  · rw [← hstreet]
    exact hroad
  · rw [← hcodes]
    exact hlanes

theorem hudShows_nil (b : Backend) : HudShows b [] .blank := by
  cases b with
  | svcnavi => exact rfl
  | vbs => exact ⟨{}, view_zero, shows_blank⟩

/-- **A turn that finds something new shows it.** -/
theorem hudShows_sendOne {sent : List (List HudMsg)} {cur prev : NaviSnapshot} {sync : UInt8}
    {hudAbsent : Bool} (hhud : b = .vbs → hudAbsent = false) (h : HudShows b sent prev.view) :
    HudShows b (sent ++ [(sendOne b hudAbsent cur prev sync).1]) cur.view := by
  cases b with
  | svcnavi =>
    -- one guidance, with all there is
    show ((sent ++ [svcnaviSendOne cur]).flatten.getLast?).elim _ _
    unfold svcnaviSendOne
    rw [List.flatten_concat, List.getLast?_concat]
    exact sendOne_shows .svcnavi hudAbsent cur prev sync _ (List.mem_singleton.mpr rfl)
  | vbs =>
    obtain ⟨cur', hview, hshows⟩ := h
    obtain rfl := hhud rfl
    refine ⟨cur, rfl, ?_⟩
    rw [List.flatten_concat, List.foldl_append]
    exact receive_shows (vbsSendOne_cases cur prev sync) (hshows.congr hview)

/-! ## What every step keeps -/

/-- In the two steps of a clear the accumulator is not reset yet. -/
def Clearing (s : PipeState) : Prop := s.rx = .clear ∨ s.rx = .reset

structure RestInv (hudFoldLatin : Bool) (b : Backend) (s : HudSystem) : Prop where
  gate     : GateInv s.pipe
  told     : ¬Clearing s.pipe → s.pipe.gate.acc = accAfter hudFoldLatin s.heard
  clearing : Clearing s.pipe → accAfter hudFoldLatin s.heard = {}
  setup    : s.pipe.sender = none → s.pipe.tx = {} ∧ s.pipe.sent = []
  live     : s.pipe.sender ≠ none → s.pipe.tx.active = true
  /-- The counter tells the sender whether there is anything new. -/
  fresh    : ∀ sender ∈ s.pipe.sender, s.pipe.tx.seq = sender.lastProcessed →
    s.pipe.tx.snapshot = sender.prev
  shown    : ∀ sender ∈ s.pipe.sender, HudShows b s.pipe.sent sender.prev.view

theorem restInv_init : RestInv hudFoldLatin b {} where
  gate := gateInv_init
  told _ := rfl
  clearing h := absurd h (by simp [Clearing])
  setup _ := ⟨rfl, rfl⟩
  live h := absurd rfl h
  fresh _ h := absurd h (by simp)
  shown _ h := absurd h (by simp)

/-- A call is dropped, or moves the counter. -/
theorem Tx.call_cases (t : Tx) (c : TxCall) : t.call c = t ∨ (t.call c).seq = t.seq + 2 := by
  unfold Tx.call
  split
  · split
    · exact .inr rfl
    · exact .inl rfl
  · exact .inl rfl

/-- The rx thread goes on: it leaves the transport as it is, or moves the counter. -/
theorem advance_tx (hstep : p.advance = some p') :
    p'.tx = p.tx ∨ (p.rx ≠ .record ∧ p.rx ≠ .reset ∧ p'.tx.seq = p.tx.seq + 2) := by
  have hcall (c : TxCall) (hrx : p.rx ≠ .record ∧ p.rx ≠ .reset) :
      p.tx.call c = p.tx ∨ (p.rx ≠ .record ∧ p.rx ≠ .reset ∧ (p.tx.call c).seq = p.tx.seq + 2) :=
    (p.tx.call_cases c).imp_right fun hseq => ⟨hrx.1, hrx.2, hseq⟩
  cases callbackStep_of_advance hstep with
  | nextTurn hrx => exact hcall (nextTurnCall p.gate.acc) (by simp [hrx])
  | distance hrx => exact hcall (distanceCall p.gate.acc) (by simp [hrx])
  | lanes hrx => exact hcall (lanesCall p.gate.acc) (by simp [hrx])
  | clear hrx => exact hcall (.status 2) (by simp [hrx])
  | record | reset => exact .inl rfl

/-- The accumulator is reset at the end of a clear, and kept otherwise. -/
theorem advance_acc (hstep : p.advance = some p') :
    (Clearing p ∧ ¬Clearing p' ∧ p'.gate.acc = {}) ∨
      (p'.gate.acc = p.gate.acc ∧ (Clearing p' ↔ Clearing p)) := by
  unfold Clearing
  cases callbackStep_of_advance hstep with
  | nextTurn hrx | distance hrx | lanes hrx | record hrx => exact .inr ⟨rfl, by simp [hrx]⟩
  | clear hrx => exact .inr ⟨rfl, by simp [hrx]⟩
  | reset hrx => exact .inl ⟨.inr hrx, by simp, rfl⟩

theorem RestInv.rx (hinv : RestInv hudFoldLatin b s) (hguard : ¬ComesAround s.pipe)
    (hstep : s.pipe.advance = some p) : RestInv hudFoldLatin b { s with pipe := p } := by
  have hsender := advance_sender hstep
  have hsent := advance_sent hstep
  have hpipe : pipeStep hudFoldLatin b s.pipe .rx = some p := hstep
  have hgate : GateInv p := gateInv_step hinv.gate (fun h => absurd h.1 (by simp)) hpipe
  refine ⟨hgate, ?_, ?_, fun hnone => ?_, fun hsome => ?_, ?_, ?_⟩
  · -- behind the reset nothing has been told, before it nothing new
    intro hnot
    rcases advance_acc hstep with ⟨hclear, -, hacc⟩ | ⟨hacc, hiff⟩
    · exact hacc.trans (hinv.clearing hclear).symm
    · exact hacc.trans (hinv.told (mt hiff.mpr hnot))
  · intro hclear
    rcases advance_acc hstep with ⟨-, hnot, -⟩ | ⟨-, hiff⟩
    · exact absurd hclear hnot
    · exact hinv.clearing (hiff.mp hclear)
  · -- no worker yet: a dark transport drops the call
    rw [hsender] at hnone
    obtain ⟨htx, hnothing⟩ := hinv.setup hnone
    have hdark : s.pipe.tx.active = false := by rw [htx]
    exact ⟨(advance_inactive hdark hstep).trans htx, hsent.trans hnothing⟩
  · rw [hsender] at hsome
    exact (advance_active hstep).trans (hinv.live hsome)
  · intro sender hmem hseq
    rw [hsender] at hmem
    rcases advance_tx hstep with htx | ⟨hrecord, hreset, hmoved⟩
    · rw [htx] at hseq ⊢
      exact hinv.fresh sender hmem hseq
    · -- a write that the sender takes for the one it has seen is the guard's
      exact absurd ⟨hrecord, hreset, sender, hmem, hmoved.symm.trans hseq⟩ hguard
  · intro sender hmem
    rw [hsender] at hmem
    rw [hsent]
    exact hinv.shown sender hmem

theorem accAfter_concat (hudFoldLatin : Bool) (heard : List SinkCall) (c : SinkCall) :
    accAfter hudFoldLatin (heard ++ [c]) = accNext hudFoldLatin (accAfter hudFoldLatin heard) c :=
  List.foldl_concat ..

/-- An update is begun, or the gate is shut. -/
theorem emitIfChanged_frame (p : PipeState) (acc : AaNav16HudState) :
    (p.emitIfChanged acc).tx = p.tx ∧ (p.emitIfChanged acc).sender = p.sender ∧
      (p.emitIfChanged acc).sent = p.sent ∧ (p.emitIfChanged acc).gate.acc = acc ∧
      ¬Clearing (p.emitIfChanged acc) := by
  refine ⟨rfl, rfl, rfl, rfl, ?_⟩
  unfold Clearing PipeState.emitIfChanged
  dsimp only
  split
  · simp
  · simp

/-- A callback from a thread that is idle: what it makes of the accumulator. -/
theorem pipeStep_action (hidle : p.rx = .idle) {c : SinkCall}
    (hstep : pipeStep hudFoldLatin b p c.action = some p') :
    p'.tx = p.tx ∧ p'.sender = p.sender ∧ p'.sent = p.sent ∧
      (¬Clearing p' → p'.gate.acc = accNext hudFoldLatin p.gate.acc c) ∧
      (Clearing p' → accNext hudFoldLatin p.gate.acc c = {}) := by
  have hnot : ¬Clearing p := by simp [Clearing, hidle]
  cases c with
  | guidance g =>
    cases pipeSteps_of_pipeStep hstep with
    | guidance =>
      obtain ⟨htx, hsender, hsent, hacc, hclear⟩ :=
        emitIfChanged_frame p (nav16OnGuidance hudFoldLatin p.gate.acc g)
      exact ⟨htx, hsender, hsent, fun _ => hacc, fun h => absurd h hclear⟩
  | position pos =>
    cases pipeSteps_of_pipeStep hstep with
    | @position _ acc _ hp =>
      obtain ⟨htx, hsender, hsent, hacc, hclear⟩ := emitIfChanged_frame p acc
      refine ⟨htx, hsender, hsent, fun _ => ?_, fun h => absurd h hclear⟩
      show (p.emitIfChanged acc).gate.acc = (nav16OnPosition p.gate.acc pos).getD p.gate.acc
      rw [hacc, hp]
      rfl
    | positionIgnored _ hp =>
      -- no step distance: the accumulator stays
      refine ⟨rfl, rfl, rfl, fun _ => ?_, fun h => absurd h hnot⟩
      show p.gate.acc = (nav16OnPosition p.gate.acc pos).getD p.gate.acc
      rw [hp]
      rfl
  | status st =>
    cases pipeSteps_of_pipeStep hstep with
    | clears _ hst => exact ⟨rfl, rfl, rfl, fun h => absurd (.inl rfl) h, fun _ => if_pos hst⟩
    | statusIgnored _ hst => exact ⟨rfl, rfl, rfl, fun _ => (if_neg hst).symm, fun h => absurd h hnot⟩

theorem RestInv.call (hinv : RestInv hudFoldLatin b s) (hidle : s.pipe.rx = .idle) {c : SinkCall}
    (hstep : pipeStep hudFoldLatin b s.pipe c.action = some p) :
    RestInv hudFoldLatin b ⟨p, s.heard ++ [c]⟩ := by
  obtain ⟨htx, hsender, hsent, hacc, hclear⟩ := pipeStep_action hidle hstep
  have htold : s.pipe.gate.acc = accAfter hudFoldLatin s.heard :=
    hinv.told (by simp [Clearing, hidle])
  have hgate : GateInv p := gateInv_step hinv.gate (fun h => by cases c <;> cases h.1) hstep
  rw [htold, ← accAfter_concat] at hacc hclear
  refine ⟨hgate, hacc, hclear, fun hnone => ?_, fun hsome => ?_, fun sender hmem hseq => ?_,
    fun sender hmem => ?_⟩
  · -- a callback begins: the transport and the sender are as they were
    exact ⟨htx.trans (hinv.setup (hsender ▸ hnone)).1, hsent.trans (hinv.setup (hsender ▸ hnone)).2⟩
  · show p.tx.active = true
    rw [htx]
    exact hinv.live (hsender ▸ hsome)
  · rw [hsender] at hmem
    rw [htx] at hseq ⊢
    exact hinv.fresh sender hmem hseq
  · rw [hsender] at hmem
    rw [hsent]
    exact hinv.shown sender hmem

theorem RestInv.activate (hinv : RestInv hudFoldLatin b s)
    (hguard : ¬LateActivation s.pipe .activate)
    (hstep : pipeStep hudFoldLatin b s.pipe .activate = some p) :
    RestInv hudFoldLatin b { s with pipe := p } := by
  have hgate : GateInv p := gateInv_step hinv.gate hguard hstep
  cases pipeSteps_of_pipeStep hstep with
  | activate hnone =>
    obtain ⟨htx, hsent⟩ := hinv.setup hnone
    refine ⟨hgate, hinv.told, hinv.clearing, fun h => absurd h (by simp), fun _ => rfl,
      fun sender hmem _ => ?_, fun sender hmem => ?_⟩
    · -- nothing written, and a sender that has seen nothing
      obtain rfl := Option.some_inj.mp hmem
      show s.pipe.tx.snapshot = _
      rw [htx]
    · obtain rfl := Option.some_inj.mp hmem
      show HudShows b s.pipe.sent ({} : NaviSnapshot).view
      rw [hsent, view_zero]
      exact hudShows_nil b

theorem RestInv.iterate (hinv : RestInv hudFoldLatin b s) {hudAbsent : Bool}
    (hhud : b = .vbs → hudAbsent = false)
    (hstep : pipeStep hudFoldLatin b s.pipe (.iterate hudAbsent) = some p) :
    RestInv hudFoldLatin b { s with pipe := p } := by
  cases pipeSteps_of_pipeStep hstep with
  | @iterate sender _ hsender =>
    have hshown := hinv.shown sender hsender
    have hlive : s.pipe.tx.active = true := hinv.live (by simp [hsender])
    have hgate := hinv.gate
    refine ⟨⟨hgate.dark, hgate.written, hgate.last⟩, hinv.told, hinv.clearing,
      fun h => absurd h (by simp), fun _ => hlive, fun sender' hmem hseq => ?_,
      fun sender' hmem => ?_⟩
    · -- `prev` is what was read, or the counter says that there is nothing new
      obtain rfl := Option.some_inj.mp hmem
      show s.pipe.tx.snapshot = (sender.iterate b hudAbsent s.pipe.tx).1.prev
      by_cases hnew : s.pipe.tx.seq ≠ sender.lastProcessed
      · unfold Sender.iterate
        rw [if_pos hnew]
      · unfold Sender.iterate
        rw [if_neg hnew]
        exact hinv.fresh sender hsender (not_not.mp hnew)
    · -- what is sent is the difference to `prev`, which is what the display shows
      obtain rfl := Option.some_inj.mp hmem
      show HudShows b (if s.pipe.tx.seq ≠ sender.lastProcessed then
        s.pipe.sent ++ [(sender.iterate b hudAbsent s.pipe.tx).2] else s.pipe.sent)
        (sender.iterate b hudAbsent s.pipe.tx).1.prev.view
      by_cases hnew : s.pipe.tx.seq ≠ sender.lastProcessed
      · unfold Sender.iterate
        rw [if_pos hnew, if_pos hnew]
        exact hudShows_sendOne hhud hshown
      · unfold Sender.iterate
        rw [if_neg hnew, if_neg hnew]
        exact hshown

/-- **Step lemma.** -/
theorem restInv_step (hinv : RestInv hudFoldLatin b s) {a : SystemAction} (hguard : Timely b s a)
    (hstep : systemStep hudFoldLatin b s a = some s') : RestInv hudFoldLatin b s' := by
  cases a with
  | datagram dgram =>
    simp only [systemStep, Option.ite_none_right_eq_some] at hstep
    obtain ⟨hidle, hstep⟩ := hstep
    split at hstep
    · -- not a frame that the callbacks hear of
      exact Option.some_inj.mp hstep ▸ hinv
    · obtain ⟨p, hp, rfl⟩ := Option.map_eq_some_iff.mp hstep
      exact hinv.call hidle hp
  | rx =>
    obtain ⟨p, hp, rfl⟩ := Option.map_eq_some_iff.mp hstep
    exact hinv.rx hguard hp
  | activate =>
    obtain ⟨p, hp, rfl⟩ := Option.map_eq_some_iff.mp hstep
    exact hinv.activate hguard hp
  | iterate hudAbsent =>
    obtain ⟨p, hp, rfl⟩ := Option.map_eq_some_iff.mp hstep
    exact hinv.iterate hguard hp

/-! ## At rest -/

theorem RestInv.atRest (hinv : RestInv hudFoldLatin b s) (hrest : AtRest s.pipe) :
    HudShows b s.pipe.sent (accAfter hudFoldLatin s.heard).view := by
  obtain ⟨hidle, sender, hsender, hseq⟩ := hrest
  have hlive : s.pipe.tx.active = true :=
    hinv.live fun hnone => absurd (hnone.symm.trans hsender) (by simp)
  -- the display is the snapshot's, the snapshot the accumulator's
  have hwritten := hinv.gate.written hlive
  rw [hidle] at hwritten
  have hview : s.pipe.tx.snapshot.view = s.pipe.gate.acc.view := hwritten
  rw [← hinv.told (by simp [Clearing, hidle]), ← hview, hinv.fresh sender hsender hseq]
  exact hinv.shown sender hsender

/-- The threads go on with what has come in. -/
def GoesOn (b : Backend) (s : HudSystem) (a : SystemAction) : Prop :=
  Timely b s a ∧ (a = .rx ∨ a = .iterate false)

/-- A turn of the sender. -/
theorem exists_turn (hudFoldLatin : Bool) (b : Backend) (hsome : s.pipe.sender ≠ none) :
    ∃ s', Run.Reach (systemStep hudFoldLatin b) (GoesOn b) s s' ∧ s'.heard = s.heard ∧
      s'.pipe.rx = s.pipe.rx ∧ ∃ sender ∈ s'.pipe.sender, s'.pipe.tx.seq = sender.lastProcessed := by
  obtain ⟨sender, hsender⟩ := Option.ne_none_iff_exists'.mp hsome
  have hstep : ∃ p, pipeStep hudFoldLatin b s.pipe (.iterate false) = some p ∧ p.rx = s.pipe.rx ∧
      p.tx = s.pipe.tx ∧ p.sender = some (sender.iterate b false s.pipe.tx).1 := by
    simp only [pipeStep, hsender]
    exact ⟨_, rfl, rfl, rfl, rfl⟩
  obtain ⟨p, hp, hrx, htx, hnext⟩ := hstep
  refine ⟨{ s with pipe := p }, .next .start (a := .iterate false) ?_ ⟨fun _ => rfl, .inr rfl⟩, rfl,
    hrx, _, hnext, ?_⟩
  · simp only [systemStep, hp, Option.map_some]
  · show p.tx.seq = _
    rw [htx]
    unfold Sender.iterate
    by_cases hnew : s.pipe.tx.seq ≠ sender.lastProcessed
    · rw [if_pos hnew]
    · rw [if_neg hnew]
      exact not_not.mp hnew

/-- By induction on the steps the callback has left, a turn before each. -/
theorem exists_atRest (n : ℕ) : ∀ s : HudSystem, s.pipe.rx.left = n → s.pipe.sender ≠ none →
    ∃ t, Run.Reach (systemStep hudFoldLatin b) (GoesOn b) s t ∧ t.heard = s.heard ∧
      AtRest t.pipe := by
  induction n with
  | zero =>
    intro s hleft hsome
    -- no step left: one more turn, and the sender has seen it all
    have hidle : s.pipe.rx = .idle := by
      cases hrx : s.pipe.rx <;> rw [hrx] at hleft <;> first | rfl | exact absurd hleft (by decide)
    obtain ⟨t, hreach, hheard, hrx, hseen⟩ := exists_turn hudFoldLatin b hsome
    exact ⟨t, hreach, hheard, hrx.trans hidle, hseen⟩
  | succ n ih =>
    intro s hleft hsome
    obtain ⟨t, hreach, hheard, hrx, sender, hsender, hseq⟩ :=
      exists_turn hudFoldLatin b hsome
    have hbusy : t.pipe.rx ≠ .idle := by
      rw [hrx]
      intro hidle
      rw [hidle] at hleft
      exact absurd hleft (by simp [RxPc.left])
    obtain ⟨p, hadvance, hless⟩ := exists_advance hbusy
    -- the sender has just seen the counter, which is not a write from coming around
    have hguard : ¬ComesAround t.pipe := by
      rintro ⟨-, -, sender', hsender', haround⟩
      obtain rfl := Option.some_inj.mp (hsender.symm.trans hsender')
      rw [← hseq] at haround
      have hself : t.pipe.tx.seq + 2 = t.pipe.tx.seq + 0 := by rw [haround, UInt32.add_zero]
      exact absurd ((UInt32.add_right_inj _).mp hself) (by decide)
    have hstep : systemStep hudFoldLatin b t .rx = some { t with pipe := p } := by
      have hp : pipeStep hudFoldLatin b t.pipe .rx = some p := hadvance
      simp only [systemStep, hp, Option.map_some]
    have hleft' : p.rx.left = n := by
      rw [hrx] at hless
      omega
    have hsome' : p.sender ≠ none := by
      rw [advance_sender hadvance]
      exact fun hnone => absurd (hnone.symm.trans hsender) (by simp)
    obtain ⟨u, hrest, hheard', hatRest⟩ := ih { t with pipe := p } hleft' hsome'
    have hfirst : Run.Reach (systemStep hudFoldLatin b) (GoesOn b) s { t with pipe := p } :=
      .next hreach hstep ⟨hguard, .inl rfl⟩
    exact ⟨u, hfirst.trans hrest, hheard'.trans hheard, hatRest⟩

/-- **At rest the display shows what the callbacks have told**, whatever datagrams there
were and however the threads came between each other; and a live pipeline can come to rest
without any more of them. -/
theorem hud_at_rest_shows (hudFoldLatin : Bool) (b : Backend) (s : HudSystem)
    (h : Run.Reach (systemStep hudFoldLatin b) (Timely b) {} s) :
    (AtRest s.pipe → HudShows b s.pipe.sent (accAfter hudFoldLatin s.heard).view) ∧
    (s.pipe.sender ≠ none → ∃ t, Run.Reach (systemStep hudFoldLatin b) (GoesOn b) s t ∧
      t.heard = s.heard ∧ AtRest t.pipe ∧
      HudShows b t.pipe.sent (accAfter hudFoldLatin s.heard).view) := by
  have hinv : RestInv hudFoldLatin b s :=
    Run.Reach.invariant restInv_init (fun _ _ _ hi hg hs => restInv_step hi hg hs) h
  refine ⟨hinv.atRest, fun hsome => ?_⟩
  obtain ⟨t, hreach, hheard, hrest⟩ := exists_atRest _ s rfl hsome
  have hinv' : RestInv hudFoldLatin b t :=
    Run.Reach.invariant hinv (fun _ _ _ hi hg hs => restInv_step hi hg.1 hs) hreach
  exact ⟨t, hreach, hheard, hrest, hheard ▸ hinv'.atRest hrest⟩

/-- A NavigationState with a right turn, as it is relayed. -/
def rightTurn : List UInt8 :=
  AaNav16Hdr.bytes ⟨AA_NAV16_MAGIC, AA_NAV16_VERSION, 0, 8⟩ ++ [0x80, 0x06, 10, 4, 10, 2, 8, 8]

/-- It is shown; the datagrams around it are not for us. -/
theorem hud_at_rest_shows_right_turn : ∃ s : HudSystem,
    AtRest s.pipe ∧ s.heard.length = 1 ∧ (accAfter true s.heard).view.glyph = 3 ∧
      HudShows .vbs s.pipe.sent (accAfter true s.heard).view := by
  obtain ⟨s, hreach, hrest, hheard, hglyph⟩ : ∃ s, Run.Reach (systemStep true .vbs) (Timely .vbs)
      {} s ∧ AtRest s.pipe ∧ s.heard.length = 1 ∧ (accAfter true s.heard).view.glyph = 3 :=
    Run.Reach.exists_of_replay
      [.activate, .datagram [1, 2, 3], .datagram rightTurn, .rx, .iterate false, .rx, .rx, .rx,
        .datagram [], .iterate false] (by decide +kernel)
  exact ⟨s, hrest, hheard, hglyph, (hud_at_rest_shows true .vbs s hreach).1 hrest⟩

end OemAaMod
