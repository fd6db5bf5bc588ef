import OemAaMod.Bus.LibDbus
import OemAaMod.Bus.LibJciDbus

/-!
# The connections of the HUD senders

`svcnavi_tx.cpp`, `vbs_tx.cpp` and CarPlay's `hud_send.cpp` have the same sender thread over
two bus libraries: it sets its connection up, sends, blanks the HUD and takes the connection
down, and a stop may come at any point of it.

* `Transport` — what a sender calls at each point; `svcnaviTransport`, `vbsTransport`,
  `hudSendTransport` — the three;
* `senderStep` — the thread, session after session;
* `BusSession`, `JciSession` — the calls of a session, in their order;
* `Transport.Keeps` — what a transport is to show of its calls, once for all runs;
* `senders_in_order` — in every run the calls come in such sessions.
-/

namespace OemAaMod.Bus

/-- The calls of a sender, by their results. -/
structure Transport (γ : Type*) where
  /-- `sender_setup`, up to the connection object. -/
  create  : Bool → List γ
  /-- Then onto the bus, or out of it; and what came of the worker, if there is one. -/
  connect : Bool → Bool → List γ
  /-- The rest of `sender_setup`. -/
  probe   : List γ
  /-- One message: not built at all, or its result. -/
  emit    : Option Bool → List γ
  /-- `sender_teardown`, by `g_hud_absent`: the messages that blank the HUD, -/
  clear   : Bool → List (Option Bool) → List γ
  /-- and the end of it. -/
  release : List γ

/-! ## The three senders -/

/-- `emit_guidance` -/
def emitGuidanceCalls : Option Bool → List (BusCall Empty)
  | none => []
  | some sent => .send :: (if sent then [.flush] else [])

def svcnaviTransport : Transport (BusCall Empty) where
  create ok := .openPrivate ok :: (if ok then [.setExitOnDisconnect false] else [])
  connect ok _ := .register ok :: (if ok then [] else [.close, .unref])
  probe := []
  emit := emitGuidanceCalls
  clear _ results := emitGuidanceCalls (results.headD none)
  release := [.close, .unref]

/-- `sender_setup` of the two senders over libjcidbus; the probe is `GetHUDStatus`. -/
def jciTransport (clear : Bool → List JciCall) : Transport JciCall where
  create ok := [.create ok]
  connect ok started := .connect ok :: (if ok then [.workerStart started] else [.free])
  probe := [.clientCall]
  emit _ := [.clientCall]
  clear hudAbsent _ := clear hudAbsent
  release := [.workerStop, .disconnect, .free]

/-- A blank frame, and the lanes hidden. -/
def vbsTransport : Transport JciCall :=
  jciTransport fun hudAbsent => if hudAbsent then [] else [.clientCall, .clientCall]

def hudSendTransport : Transport JciCall :=
  jciTransport fun hudAbsent => if hudAbsent then [] else [.clientCall]

/-! ## The thread -/

inductive ConnPc
  | down          -- no thread, or one that is through
  | setup
  | connecting
  | connected
  | sending
  | leaving
deriving DecidableEq

/-- `conn` is whether `g_conn` is set. -/
structure ConnState where
  pc   : ConnPc := .down
  conn : Bool := false
deriving DecidableEq

inductive ConnAction
  | start
  /-- `stop` is `g_stop` as it is read here. -/
  | setup (stop ok : Bool)
  | connect (ok started : Bool)
  | probe (stop : Bool)
  /-- A turn of the loop. -/
  | send (results : List (Option Bool))
  | stop
  | teardown (hudAbsent : Bool) (results : List (Option Bool))
deriving DecidableEq

variable {γ : Type*}

def senderStep (k : Transport γ) (s : ConnState) : ConnAction → Option (ConnState × List γ)
  | .start => if s.pc = .down then some ({ s with pc := .setup }, []) else none
  | .setup stop ok =>
    if s.pc = .setup then
      some (if stop then ({ s with pc := .down }, [])
        else if ok then (⟨.connecting, true⟩, k.create true)
        else ({ s with pc := .down }, k.create false))
    else none
  | .connect ok started =>
    if s.pc = .connecting then
      some (if ok then ({ s with pc := .connected }, k.connect true started)
        else (⟨.down, false⟩, k.connect false started))
    else none
  | .probe stop =>
    if s.pc = .connected then
      some (if stop then ({ s with pc := .leaving }, []) else ({ s with pc := .sending }, k.probe))
    else none
  | .send results => if s.pc = .sending then some (s, results.flatMap k.emit) else none
  | .stop => if s.pc = .sending then some ({ s with pc := .leaving }, []) else none
  | .teardown hudAbsent results =>
    if s.pc = .leaving then some (⟨.down, false⟩, k.clear hudAbsent results ++ k.release) else none

/-! ## The order of the calls -/

open Contract (InSessions after inSessions_nil withLog)

/-- The calls on a private connection of svcnavi, if there is one. -/
inductive BusSession : List (BusCall Empty) → Prop
  | notOpened : BusSession [.openPrivate false]
  | refused : BusSession [.openPrivate true, .setExitOnDisconnect false, .register false, .close,
      .unref]
  | whole {uses : List (BusCall Empty)} (h : ∀ c ∈ uses, c = .send ∨ c = .flush) :
    BusSession ([.openPrivate true, .setExitOnDisconnect false, .register true] ++ uses ++
      [.close, .unref])

/-- A transport whose calls make sessions, whatever comes of them: between the connection and
its release only calls that use it. -/
structure Transport.Keeps (k : Transport γ) (Session : List γ → Prop) (Use : γ → Prop) : Prop where
  creates    : k.create true ≠ []
  notCreated : Session (k.create false)
  refused    : ∀ started, Session (k.create true ++ k.connect false started)
  whole      : ∀ started uses, (∀ c ∈ uses, Use c) →
    Session (k.create true ++ k.connect true started ++ uses ++ k.release)
  probe      : ∀ c ∈ k.probe, Use c
  emit       : ∀ result, ∀ c ∈ k.emit result, Use c
  clear      : ∀ absent results, ∀ c ∈ k.clear absent results, Use c

/-- What there is so far of a session, by where the thread is. -/
def AtPc (k : Transport γ) (Use : γ → Prop) (rest : List γ) : ConnPc → Prop
  | .down | .setup => rest = []
  | .connecting => rest = k.create true
  | .connected | .sending | .leaving => ∃ started uses, (∀ c ∈ uses, Use c) ∧
      rest = k.create true ++ k.connect true started ++ uses

/-- **What every step keeps.** -/
structure Orderly (k : Transport γ) (Session : List γ → Prop) (Use : γ → Prop)
    (s : ConnState × List γ) (rest : List γ) : Prop where
  log  : InSessions Session s.2 rest
  pc   : AtPc k Use rest s.1.pc
  conn : s.1.conn = true ↔ rest ≠ []

variable {k : Transport γ} {Session : List γ → Prop} {Use : γ → Prop} {s s' : ConnState × List γ}
  {rest : List γ}

/-- Calls that use the connection. -/
theorem Orderly.use (h : Orderly k Session Use s rest) (hkeeps : k.Keeps Session Use)
    (hpc : s.1.pc = .connected ∨ s.1.pc = .sending ∨ s.1.pc = .leaving) {pc : ConnPc}
    (hpc' : pc = .sending ∨ pc = .leaving) {cs : List γ} (hcs : ∀ c ∈ cs, Use c) :
    Orderly k Session Use ({ s.1 with pc }, s.2 ++ cs) (rest ++ cs) := by
  obtain ⟨started, uses, huses, rfl⟩ : ∃ started uses, (∀ c ∈ uses, Use c) ∧
      rest = k.create true ++ k.connect true started ++ uses := by
    have hat := h.pc
    rcases hpc with hpc | hpc | hpc <;> rwa [hpc] at hat
  refine ⟨h.log.append cs, ?_, ?_⟩
  · have hgoes : ∃ started' uses', (∀ c ∈ uses', Use c) ∧
        k.create true ++ k.connect true started ++ uses ++ cs =
          k.create true ++ k.connect true started' ++ uses' :=
      ⟨started, uses ++ cs, List.forall_mem_append.mpr ⟨huses, hcs⟩, List.append_assoc ..⟩
    rcases hpc' with rfl | rfl <;> exact hgoes
  · exact h.conn.trans (iff_of_true (by simp [hkeeps.creates]) (by simp [hkeeps.creates]))

/-- **Step lemma.** -/
theorem orderly_step (hkeeps : k.Keeps Session Use) (h : Orderly k Session Use s rest)
    {a : ConnAction} (hstep : withLog (senderStep k) s a = some s') :
    ∃ rest', Orderly k Session Use s' rest' := by
  obtain ⟨r, hr, rfl⟩ := Option.map_eq_some_iff.mp hstep
  have hpc := h.pc
  cases a with
  | start =>
    simp only [senderStep, Option.ite_none_right_eq_some, Option.some_inj] at hr
    obtain ⟨hat, rfl⟩ := hr
    rw [hat] at hpc
    exact ⟨rest, by simpa using h.log, hpc, h.conn⟩
  | setup stop ok =>
    simp only [senderStep, Option.ite_none_right_eq_some, Option.some_inj] at hr
    obtain ⟨hat, rfl⟩ := hr
    rw [hat] at hpc
    obtain rfl : rest = [] := hpc
    cases stop with
    -- the stop came before there was a connection
    | true => exact ⟨[], by simpa using h.log, rfl, h.conn⟩
    | false =>
      have hlog := h.log.append (k.create ok)
      rw [List.nil_append] at hlog
      cases ok with
      | true => exact ⟨k.create true, hlog, rfl, iff_of_true rfl hkeeps.creates⟩
      | false => exact ⟨[], hlog.close hkeeps.notCreated, rfl, h.conn⟩
  | connect ok started =>
    simp only [senderStep, Option.ite_none_right_eq_some, Option.some_inj] at hr
    obtain ⟨hat, rfl⟩ := hr
    rw [hat] at hpc
    obtain rfl : rest = k.create true := hpc
    have hlog := h.log.append (k.connect ok started)
    cases ok with
    | true =>
      refine ⟨_, hlog, ⟨started, [], fun _ h => absurd h List.not_mem_nil, by simp⟩, ?_⟩
      exact iff_of_true (h.conn.mpr hkeeps.creates) (by simp [hkeeps.creates])
    | false =>
      exact ⟨[], hlog.close (hkeeps.refused started), rfl, iff_of_false (by simp) (by simp)⟩
  | probe stop =>
    simp only [senderStep, Option.ite_none_right_eq_some, Option.some_inj] at hr
    obtain ⟨hat, rfl⟩ := hr
    cases stop with
    | true => exact ⟨_, h.use hkeeps (.inl hat) (.inr rfl) fun _ h => absurd h List.not_mem_nil⟩
    | false => exact ⟨_, h.use hkeeps (.inl hat) (.inl rfl) hkeeps.probe⟩
  | send results =>
    simp only [senderStep, Option.ite_none_right_eq_some, Option.some_inj] at hr
    obtain ⟨hat, rfl⟩ := hr
    -- any number of messages, with any results
    have huses : ∀ c ∈ results.flatMap k.emit, Use c := by
      intro c hc
      obtain ⟨result, -, hc⟩ := List.mem_flatMap.mp hc
      exact hkeeps.emit result c hc
    have hgoes := h.use hkeeps (.inr (.inl hat)) (.inl rfl) huses
    rw [← hat] at hgoes
    exact ⟨_, hgoes⟩
  | stop =>
    simp only [senderStep, Option.ite_none_right_eq_some, Option.some_inj] at hr
    obtain ⟨hat, rfl⟩ := hr
    exact ⟨_, h.use hkeeps (.inr (.inl hat)) (.inr rfl) fun _ h => absurd h List.not_mem_nil⟩
  | teardown hudAbsent results =>
    simp only [senderStep, Option.ite_none_right_eq_some, Option.some_inj] at hr
    obtain ⟨hat, rfl⟩ := hr
    rw [hat] at hpc
    obtain ⟨started, uses, huses, rfl⟩ := hpc
    -- the messages that blank the HUD still use the connection
    have hsession : Session (k.create true ++ k.connect true started ++ uses ++
        (k.clear hudAbsent results ++ k.release)) := by
      rw [← List.append_assoc, List.append_assoc _ uses]
      exact hkeeps.whole started _
        (List.forall_mem_append.mpr ⟨huses, hkeeps.clear hudAbsent results⟩)
    exact ⟨[], (h.log.append _).close hsession, rfl, iff_of_false (by simp) (by simp)⟩

/-- In every run of a sender the calls come in whole sessions, but for the one under way,
which can still become one; `g_conn` is set in it, and a thread that is through leaves none. -/
def KeepsOrder (k : Transport γ) (Session : List γ → Prop) : Prop :=
  ∀ s, Run.Reach (withLog (senderStep k)) (fun _ _ => True) ({}, []) s →
    ∃ rest, InSessions Session s.2 rest ∧ (∃ more, Session (rest ++ more)) ∧
      (s.1.conn = true ↔ rest ≠ []) ∧ (s.1.pc = .down → rest = [])

/-- **Run lemma.** -/
theorem Transport.Keeps.keepsOrder (hkeeps : k.Keeps Session Use) : KeepsOrder k Session := by
  intro s h
  have hinit : Orderly k Session Use ({}, []) [] :=
    ⟨inSessions_nil, rfl, iff_of_false (by simp) (by simp)⟩
  obtain ⟨rest, horderly⟩ : ∃ rest, Orderly k Session Use s rest :=
    h.invariant (I := fun s => ∃ rest, Orderly k Session Use s rest) ⟨[], hinit⟩
      fun _ _ _ ⟨_, hi⟩ _ hs => orderly_step hkeeps hi hs
  have hpc := horderly.pc
  refine ⟨rest, horderly.log, ?_, horderly.conn, fun hdown => ?_⟩
  · -- the session can end here and now
    cases hat : s.1.pc with
    | down | setup =>
      rw [hat] at hpc
      obtain rfl : rest = [] := hpc
      exact ⟨k.create false, hkeeps.notCreated⟩
    | connecting =>
      rw [hat] at hpc
      obtain rfl : rest = k.create true := hpc
      exact ⟨k.connect false true, hkeeps.refused true⟩
    | connected | sending | leaving =>
      rw [hat] at hpc
      obtain ⟨started, uses, huses, rfl⟩ := hpc
      exact ⟨k.release, hkeeps.whole started uses huses⟩
  · rw [hdown] at hpc
    exact hpc

/-! ## The three senders -/

theorem svcnaviTransport_keeps :
    svcnaviTransport.Keeps BusSession fun c => c = .send ∨ c = .flush where
  creates := List.cons_ne_nil _ _
  notCreated := .notOpened
  refused _ := .refused
  whole _ _ huses := .whole huses
  probe _ h := absurd h List.not_mem_nil
  emit result := by rcases result with _ | _ | _ <;> simp [svcnaviTransport, emitGuidanceCalls]
  clear _ results := by
    rcases results with _ | ⟨_ | _ | _, _⟩ <;> simp [svcnaviTransport, emitGuidanceCalls]

theorem jciTransport_keeps {clear : Bool → List JciCall}
    (hclear : ∀ absent, ∀ c ∈ clear absent, c = .clientCall) :
    (jciTransport clear).Keeps JciSession fun c => c = .clientCall where
  creates := List.cons_ne_nil _ _
  notCreated := .notCreated
  refused _ := .refused
  whole started _ huses := .whole started huses
  probe _ h := List.mem_singleton.mp h
  emit _ _ h := List.mem_singleton.mp h
  clear absent _ := hclear absent

/-- A session of svcnavi is by the rules of libdbus. -/
theorem BusSession.by_rules {x : List (BusCall Empty)} (h : BusSession x) :
    after libDbus none x = some none := by
  cases h with
  | notOpened => rfl
  | refused => rfl
  | whole huses =>
    -- what is sent and flushed leaves the open connection as it is
    have hopen : after libDbus (none : Option (Connection Empty))
        [.openPrivate true, .setExitOnDisconnect false, .register true] =
          some (some { exitOnDisconnect := false, registered := true }) := rfl
    rw [List.append_assoc, Contract.after_append, hopen, Option.bind_some, Contract.after_append,
      Contract.after_of_forall fun c hc => ?_, Option.bind_some]
    · rfl
    · rcases huses c hc with rfl | rfl <;> rfl

/-- **The senders keep the order**, session after session, wherever a stop comes and whatever
fails, the start of the worker too; and svcnavi's calls are by the rules of libdbus. -/
theorem senders_in_order :
    KeepsOrder svcnaviTransport BusSession ∧
    (∀ s, Run.Reach (withLog (senderStep svcnaviTransport)) (fun _ _ => True) ({}, []) s →
      after libDbus none s.2 ≠ none) ∧
    KeepsOrder vbsTransport JciSession ∧ KeepsOrder hudSendTransport JciSession := by
  have hsvcnavi := svcnaviTransport_keeps.keepsOrder
  refine ⟨hsvcnavi, fun s hreach => ?_, (jciTransport_keeps fun absent => ?_).keepsOrder,
    (jciTransport_keeps fun absent => ?_).keepsOrder⟩
  · -- the sessions before leave no connection, and the one under way can still become whole
    obtain ⟨rest, hlog, ⟨more, hmore⟩, -⟩ := hsvcnavi s hreach
    rw [hlog.after_eq fun x hx => hx.by_rules]
    refine Contract.after_ne_none_of_append more ?_
    rw [hmore.by_rules]
    exact Option.some_ne_none _
  · cases absent <;> simp
  · cases absent <;> simp

/-- A second session, in the middle of it, after one that the bus refused; the worker did not
start. -/
theorem senders_in_order_second_session : ∃ s : ConnState × List JciCall,
    s.1.pc = .sending ∧ s.2.length = 9 ∧
      ∃ rest, InSessions JciSession s.2 rest ∧ rest ≠ [] := by
  obtain ⟨s, hreach, hpc, hconn, hlength⟩ : ∃ s,
      Run.Reach (withLog (senderStep vbsTransport)) (fun _ _ => True) ({}, []) s ∧
        s.1.pc = .sending ∧ s.1.conn = true ∧ s.2.length = 9 :=
    Run.Reach.exists_of_replay
      [.start, .setup false true, .connect false true, .start, .setup false true,
        .connect true false, .probe false, .send [some true, some false]] (by decide +kernel)
  obtain ⟨rest, hlog, -, hiff, -⟩ := senders_in_order.2.2.1 s hreach
  exact ⟨s, hpc, hlength, rest, hlog, hiff.mp hconn⟩

end OemAaMod.Bus
