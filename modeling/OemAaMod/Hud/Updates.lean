import OemAaMod.Hud.Pipeline

/-!
# Whole updates

An update of the accumulator reaches the snapshot in three writes, and each of
them wakes the sender. What it sends belongs to one value of the accumulator
only if it does not read between the writes.

* `WholeUpdates` — each turn of the sender shows one accumulator;
* `mixed_by_torn_read` — a read after the `next_turn` write sends the new arrow
  against the old distance, on either transport;
* `whole_updates_of_untorn_reads` — without such reads everything sent is whole.
-/

namespace OemAaMod

/-- Everything one turn of the sender sends shows one of the accumulators
`nav16_emit_if_changed` ran for. -/
def WholeUpdates (s : PipeState) : Prop :=
  ∀ msgs ∈ s.sent, ∃ acc ∈ s.ran, ∀ m ∈ msgs, m.Shows acc.view

instance (s : PipeState) : Decidable (WholeUpdates s) :=
  inferInstanceAs (Decidable (∀ msgs ∈ s.sent, ∃ acc ∈ s.ran, ∀ m ∈ msgs, m.Shows acc.view))

/-- The rx thread is between the first and the last write of an update. -/
def MidUpdate (s : PipeState) : Prop := s.rx = .distance ∨ s.rx = .lanes

instance (s : PipeState) : Decidable (MidUpdate s) := inferInstanceAs (Decidable (_ ∨ _))

theorem not_midUpdate {s : PipeState} {pc : RxPc} (hrx : s.rx = pc)
    (hpc : pc ≠ .distance ∧ pc ≠ .lanes) : ¬MidUpdate s := by
  rintro (h | h)
  · exact hpc.1 (hrx.symm.trans h)
  · exact hpc.2 (hrx.symm.trans h)

/-- What the snapshot shows is the accumulator being written, or the one written
before it: the writes done, or those still to come, change nothing. -/
def SeesWhole (s : PipeState) : Prop :=
  s.tx.snapshot.view = s.gate.acc.view ∨ ∃ acc ∈ s.fed, s.tx.snapshot.view = acc.view

instance (s : PipeState) : Decidable (SeesWhole s) :=
  inferInstanceAs (Decidable (_ ∨ ∃ acc ∈ s.fed, _))

/-- The sender reads, and will send, something of two updates. -/
def TornRead (s : PipeState) : PipeAction → Prop
  | .iterate _ =>
    MidUpdate s ∧ (∃ sender ∈ s.sender, s.tx.seq ≠ sender.lastProcessed) ∧ ¬SeesWhole s
  | _ => False

/-- The pipeline goes live over an update whose first writes were dropped and
would have shown something. -/
def HalfDropped (s : PipeState) (a : PipeAction) : Prop :=
  a = .activate ∧ MidUpdate s ∧ ¬Written .blank s.gate.acc.view s.rx

/-- The callbacks are those of 0x8006 and 0x8007. -/
def IsStatus : PipeAction → Prop
  | .status _ => True
  | _ => False

instance (s : PipeState) : (a : PipeAction) → Decidable (TornRead s a)
  | .iterate _ => inferInstanceAs (Decidable (_ ∧ (∃ sender ∈ s.sender, _) ∧ _))
  | .guidance _ | .position _ | .status _ | .rx | .activate => inferInstanceAs (Decidable False)

instance (s : PipeState) (a : PipeAction) : Decidable (HalfDropped s a) :=
  inferInstanceAs (Decidable (_ ∧ _ ∧ _))

instance : (a : PipeAction) → Decidable (IsStatus a)
  | .status _ => inferInstanceAs (Decidable True)
  | .guidance _ | .position _ | .rx | .activate | .iterate _ => inferInstanceAs (Decidable False)

/-- A left turn with 120 m to go, then a right turn, which the sender reads as
soon as its arrow is written. -/
def arrowFirst : List PipeAction :=
  [.activate, .guidance { maneuverType := 7 }, .rx, .rx, .rx, .rx,
    .position { haveStep := true, stepDisplay := .ofStrncpy 16 [0x31, 0x32, 0x30], stepUnits := 1 },
    .rx, .rx, .rx, .rx, .iterate false,
    .guidance { maneuverType := 8 }, .rx, .iterate false]

/-- The new arrow is sent against the old distance. -/
theorem mixed_by_torn_read :
    (¬∀ hudFoldLatin s, Run.Reach (pipeStep hudFoldLatin .svcnavi) (fun _ a => ¬IsStatus a) {} s →
      WholeUpdates s) ∧
    (¬∀ hudFoldLatin s, Run.Reach (pipeStep hudFoldLatin .vbs) (fun _ a => ¬IsStatus a) {} s →
      WholeUpdates s) := by
  constructor
  · intro h
    obtain ⟨s, hreach, hmixed⟩ : ∃ s,
        Run.Reach (pipeStep true .svcnavi) (fun _ a => ¬IsStatus a) {} s ∧ ¬WholeUpdates s :=
      Run.Reach.exists_of_replay arrowFirst (by decide +kernel)
    exact hmixed (h true s hreach)
  · intro h
    obtain ⟨s, hreach, hmixed⟩ : ∃ s,
        Run.Reach (pipeStep true .vbs) (fun _ a => ¬IsStatus a) {} s ∧ ¬WholeUpdates s :=
      Run.Reach.exists_of_replay arrowFirst (by decide +kernel)
    exact hmixed (h true s hreach)

/-! ## The invariant -/

/-- Outside an update the snapshot shows what was fed last; or nothing was written
yet, and there is nothing to send. -/
def Settled (s : PipeState) (sender : Sender) : Prop :=
  (∃ acc ∈ s.fed, s.tx.snapshot.view = acc.view) ∨ (s.tx.seq = 0 ∧ sender.lastProcessed = 0)

structure WholeInv (s : PipeState) : Prop where
  whole   : WholeUpdates s
  noClear : s.rx ≠ .clear ∧ s.rx ≠ .reset
  setup   : s.sender = none → s.tx = {} ∧ s.fed = none
  live    : s.sender ≠ none → s.tx.active = true
  accRan  : s.rx ≠ .idle → s.gate.acc ∈ s.ran
  fedRan  : ∀ acc ∈ s.fed, acc ∈ s.ran
  half    : MidUpdate s → s.sender ≠ none → Written s.tx.snapshot.view s.gate.acc.view s.rx
  settled : ¬MidUpdate s → ∀ sender ∈ s.sender, Settled s sender

theorem wholeInv_init : WholeInv {} :=
  ⟨fun _ h => absurd h (by simp), ⟨by simp, by simp⟩, fun _ => ⟨rfl, rfl⟩,
    fun h => absurd rfl h, fun h => absurd rfl h, fun _ h => absurd h (by simp),
    fun h => absurd h (by decide), fun _ _ h => absurd h (by simp)⟩

theorem WholeUpdates.of_ran {s s' : PipeState} (h : WholeUpdates s) (hsent : s'.sent = s.sent)
    (hran : ∀ acc ∈ s.ran, acc ∈ s'.ran) : WholeUpdates s' := by
  intro msgs hmsgs
  rw [hsent] at hmsgs
  obtain ⟨acc, hacc, hshows⟩ := h msgs hmsgs
  exact ⟨acc, hran acc hacc, hshows⟩

/-- A callback starts an update, or finds the gate shut. -/
theorem wholeInv_emitIfChanged {s : PipeState} (hinv : WholeInv s) (hidle : s.rx = .idle)
    (acc : AaNav16HudState) : WholeInv (s.emitIfChanged acc) := by
  obtain ⟨hwhole, -, hsetup, hlive, -, hfed, -, hsettled⟩ := hinv
  -- between callbacks, and still before the first write
  have hout : ¬MidUpdate s := not_midUpdate hidle (by decide)
  have hgrow : ∀ a ∈ s.ran, a ∈ s.ran ++ [acc] := fun a ha => List.mem_append_left _ ha
  have hnew : acc ∈ s.ran ++ [acc] := by simp
  have hpc : (s.emitIfChanged acc).rx = .idle ∨ (s.emitIfChanged acc).rx = .nextTurn := by
    unfold PipeState.emitIfChanged
    dsimp only
    split
    · exact .inl rfl
    · exact .inr rfl
  have hout' : ¬MidUpdate (s.emitIfChanged acc) := by
    rcases hpc with hpc | hpc
    · exact not_midUpdate hpc (by decide)
    · exact not_midUpdate hpc (by decide)
  refine ⟨hwhole.of_ran rfl hgrow, ?_, hsetup, hlive, fun _ => hnew, fun a ha => hgrow a (hfed a ha),
    fun h => absurd h hout', fun _ => hsettled hout⟩
  rcases hpc with hpc | hpc
  · rw [hpc]
    exact ⟨by simp, by simp⟩
  · rw [hpc]
    exact ⟨by simp, by simp⟩

/-- A write of a callback: the part it adds is in place, and after the last one
the accumulator has been fed. -/
theorem wholeInv_advance {s s' : PipeState} (hinv : WholeInv s) (hstep : s.advance = some s') :
    WholeInv s' := by
  obtain ⟨hwhole, hnoClear, hsetup, hlive, hacc, hfed, hhalf, hsettled⟩ := hinv
  -- what a call makes of the transport before the sender is up
  have hsetup' (c : TxCall) : s.sender = none → s.tx.call c = {} := by
    intro hnone
    obtain ⟨htx, -⟩ := hsetup hnone
    rw [Tx.call_inactive s.tx c (by rw [htx]), htx]
  have hlive' (c : TxCall) : s.sender ≠ none → (s.tx.call c).active = true := by
    intro hup
    rw [Tx.call_active, hlive hup]
  have hwritten : Written s.tx.snapshot.view s.gate.acc.view s.rx → s.sender ≠ none →
      Written s'.tx.snapshot.view s'.gate.acc.view s'.rx :=
    fun hw hup => written_advance (hlive hup) hw hstep
  cases callbackStep_of_advance hstep with
  | nextTurn hrx =>
    refine ⟨hwhole, ⟨by simp, by simp⟩,
      fun hn => ⟨hsetup' (nextTurnCall s.gate.acc) hn, (hsetup hn).2⟩, hlive' _,
      fun _ => hacc (by simp [hrx]), hfed, fun _ hup => hwritten (by rw [hrx]; trivial) hup, ?_⟩
    exact fun hout => absurd (.inl rfl) hout
  | distance hrx =>
    refine ⟨hwhole, ⟨by simp, by simp⟩,
      fun hn => ⟨hsetup' (distanceCall s.gate.acc) hn, (hsetup hn).2⟩, hlive' _,
      fun _ => hacc (by simp [hrx]), hfed, fun _ hup => hwritten (hhalf (.inl hrx) hup) hup, ?_⟩
    exact fun hout => absurd (.inr rfl) hout
  | lanes hrx =>
    -- the update is complete, and the accumulator the one fed last
    have haccRan : s.gate.acc ∈ s.ran := hacc (by simp [hrx])
    refine ⟨hwhole, ⟨by simp, by simp⟩, fun hn => ⟨hsetup' (lanesCall s.gate.acc) hn, ?_⟩,
      hlive' _, fun _ => haccRan, ?_, fun hmid => absurd hmid (not_midUpdate rfl (by simp)), ?_⟩
    · show (if s.tx.active then some s.gate.acc else s.fed) = none
      rw [(hsetup hn).1, (hsetup hn).2]
      rfl
    · show ∀ acc ∈ (if s.tx.active then some s.gate.acc else s.fed), acc ∈ s.ran
      split
      · intro acc hmem
        rw [Option.mem_some_iff] at hmem
        exact hmem ▸ haccRan
      · exact hfed
    · intro _ sender hsender
      have hup : s.sender ≠ none := by
        rw [hsender]
        simp
      refine .inl ⟨s.gate.acc, ?_, hwritten (hhalf (.inr hrx) hup) hup⟩
      show s.gate.acc ∈ if s.tx.active then some s.gate.acc else s.fed
      rw [if_pos (hlive hup)]
      rfl
  | record hrx =>
    have hout : ¬MidUpdate s := not_midUpdate hrx (by decide)
    exact ⟨hwhole, ⟨by simp, by simp⟩, hsetup, hlive, fun h => absurd rfl h, hfed,
      fun hmid => absurd hmid (not_midUpdate rfl (by simp)), fun _ => hsettled hout⟩
  -- no clear is in progress
  | clear hrx => exact absurd hrx hnoClear.1
  | reset hrx => exact absurd hrx hnoClear.2

/-- A turn of the sender over a whole snapshot. -/
theorem wholeInv_iterate {b : Backend} {s : PipeState} {sender : Sender} {hudAbsent : Bool}
    (hinv : WholeInv s) (hsender : s.sender = some sender)
    (hguard : ¬TornRead s (.iterate hudAbsent)) :
    WholeInv { s with
      sender := some (sender.iterate b hudAbsent s.tx).1
      sent := if s.tx.seq ≠ sender.lastProcessed then
          s.sent ++ [(sender.iterate b hudAbsent s.tx).2]
        else s.sent } := by
  obtain ⟨hwhole, hnoClear, hsetup, hlive, hacc, hfed, hhalf, hsettled⟩ := hinv
  have hup : s.sender ≠ none := by simp [hsender]
  refine ⟨?_, hnoClear, fun h => absurd h (by simp), fun _ => hlive hup, hacc, hfed,
    fun hmid _ => hhalf hmid hup, ?_⟩
  · by_cases hsend : s.tx.seq ≠ sender.lastProcessed
    · -- what is read is one accumulator: the one being written, or the one fed last
      have hone : ∃ acc ∈ s.ran, s.tx.snapshot.view = acc.view := by
        by_cases hmid : MidUpdate s
        · have hsees : SeesWhole s := by
            by_contra hno
            exact hguard ⟨hmid, ⟨sender, hsender, hsend⟩, hno⟩
          rcases hsees with hsame | ⟨acc, hmem, hsame⟩
          · have hbusy : s.rx ≠ .idle := by
              rcases hmid with h | h <;> simp [h]
            exact ⟨s.gate.acc, hacc hbusy, hsame⟩
          · exact ⟨acc, hfed acc hmem, hsame⟩
        · rcases hsettled hmid sender hsender with ⟨acc, hmem, hsame⟩ | ⟨hseq, hlast⟩
          · exact ⟨acc, hfed acc hmem, hsame⟩
          · exact absurd (hseq.trans hlast.symm) hsend
      obtain ⟨acc, hran, hsame⟩ := hone
      rw [if_pos hsend]
      intro msgs hmsgs
      rcases List.mem_append.mp hmsgs with hold | hnew
      · exact hwhole msgs hold
      · rw [List.mem_singleton] at hnew
        subst hnew
        refine ⟨acc, hran, ?_⟩
        rw [← hsame]
        exact iterate_shows b hudAbsent s.tx sender
    · rw [if_neg hsend]
      exact hwhole
  · intro hout sender' hsender'
    have hsender' : (sender.iterate b hudAbsent s.tx).1 = sender' := Option.some_inj.mp hsender'
    rcases hsettled hout sender hsender with hshows | ⟨hseq, hlast⟩
    · exact .inl hshows
    · -- nothing to send: the sender's locals stay
      have hsame : sender.iterate b hudAbsent s.tx = (sender, []) := by
        unfold Sender.iterate
        rw [if_neg (by simp [hseq, hlast])]
      refine .inr ⟨hseq, ?_⟩
      rw [← hsender', hsame]
      exact hlast

/-- **Step lemma.** -/
theorem wholeInv_step {hudFoldLatin : Bool} {b : Backend} {s s' : PipeState} {a : PipeAction}
    (hinv : WholeInv s) (hguard : ¬IsStatus a ∧ ¬TornRead s a ∧ ¬HalfDropped s a)
    (hstep : pipeStep hudFoldLatin b s a = some s') : WholeInv s' := by
  obtain ⟨hstatus, htorn, hdropped⟩ := hguard
  cases pipeSteps_of_pipeStep hstep with
  | guidance hidle => exact wholeInv_emitIfChanged hinv hidle _
  | position hidle => exact wholeInv_emitIfChanged hinv hidle _
  | positionIgnored => exact hinv
  | clears | statusIgnored => exact absurd trivial hstatus
  | rx hadvance => exact wholeInv_advance hinv hadvance
  | activate hnone =>
    obtain ⟨htx, hfed⟩ := hinv.setup hnone
    refine ⟨hinv.whole, hinv.noClear, fun h => absurd h (by simp), fun _ => rfl, hinv.accRan,
      hinv.fedRan, fun hmid _ => ?_, fun _ sender hsender => ?_⟩
    · -- the half written so far was dropped; by the guard it was blank
      show Written s.tx.snapshot.view s.gate.acc.view s.rx
      rw [htx, view_zero]
      by_contra hno
      exact hdropped ⟨rfl, hmid, hno⟩
    · have hsender : ({} : Sender) = sender := Option.some_inj.mp hsender
      refine .inr ⟨?_, by rw [← hsender]⟩
      show s.tx.seq = 0
      rw [htx]
  | iterate hsender => exact wholeInv_iterate hinv hsender htorn

/-- **Without torn reads everything sent is whole.** -/
theorem whole_updates_of_untorn_reads (hudFoldLatin : Bool) (b : Backend) (s : PipeState)
    (h : Run.Reach (pipeStep hudFoldLatin b)
      (fun s a => ¬IsStatus a ∧ ¬TornRead s a ∧ ¬HalfDropped s a) {} s) : WholeUpdates s :=
  (Run.Reach.invariant wholeInv_init (fun _ _ _ hi hg hs => wholeInv_step hi hg hs) h).whole

/-- The run of `arrowFirst` with the last read after the last write. -/
theorem whole_updates_of_untorn_reads_arrow_last :
    ∃ s, WholeUpdates s ∧ s.sent.length = 2 ∧ s.tx.snapshot.dirIcon = 3 := by
  obtain ⟨s, hreach, hend⟩ : ∃ s, Run.Reach (pipeStep true .svcnavi)
      (fun s a => ¬IsStatus a ∧ ¬TornRead s a ∧ ¬HalfDropped s a) {} s ∧
        (s.sent.length = 2 ∧ s.tx.snapshot.dirIcon = 3) :=
    Run.Reach.exists_of_replay
      [.activate, .guidance { maneuverType := 7 }, .rx, .rx, .rx, .rx,
        .position { haveStep := true, stepDisplay := .ofStrncpy 16 [0x31, 0x32, 0x30],
                    stepUnits := 1 },
        .rx, .rx, .rx, .rx, .iterate false,
        .guidance { maneuverType := 8 }, .rx, .rx, .rx, .iterate false] (by decide +kernel)
  exact ⟨s, whole_updates_of_untorn_reads true .svcnavi s hreach, hend⟩

end OemAaMod
