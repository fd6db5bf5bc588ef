import OemAaMod.Lib.Run
import Mathlib.Logic.Function.Basic

/-!
# The mute bridge

`playpause.cpp` pauses the phone when the user mutes the head unit and resumes it on
unmute. Its watcher thread listens on the HMI bus; its preload hook
`aap_send_key_input` sees the key events of every thread of the process.

* `aapSendKeyInput` — the hook, with the thread's exemption as an argument;
* `BridgeState.sendMediaKey`, `onMuteChanged`, `handleMessage` — the watcher's work on
  a message, up to its first call of `RaceAap::SendKeyInput`;
* `bridgeStep` — one step of the watcher, of the session's start and stop, or of
  another thread that sends a key event.

Both calls of a key are steps of their own, so that other threads come in between.
`RaceAap::SendKeyInput` may refuse before it reaches the hook, and answers anything.
-/

namespace OemAaMod.PlayPause

/-! ## Key events -/

/-- `AAP_KeyEvent` -/
structure AapKeyEvent where
  eType    : UInt32
  eKeyCode : UInt32
  bDown    : UInt32
deriving DecidableEq, Repr

def kAAPKeyEventType : UInt32 := 0xe00
def kAAPKeyMediaPlay : UInt32 := 0x7e
def kAAPKeyMediaPause : UInt32 := 0x7f

/-- The arguments of `aap_send_key_input`; the event may be null. -/
structure KeyArgs where
  handle : UInt32
  event  : Option AapKeyEvent
deriving DecidableEq, Repr

def shouldFilterMediaPlay (event : Option AapKeyEvent) : Bool :=
  match event with
  | none => false
  | some key => key.eType == kAAPKeyEventType && key.eKeyCode == kAAPKeyMediaPlay

/-- `aap_send_key_input`: what it returns, and what it calls the real symbol with.
`real` is the answer of that one, if it was found. -/
def aapSendKeyInput (block exempt : Bool) (real : Option Int32) (args : KeyArgs) :
    Int32 × Option KeyArgs :=
  if block && !exempt && shouldFilterMediaPlay args.event then (0, none)
  else
    match real with
    | none => (0x103, none)
    | some rc => (rc, some args)

/-! ## The bus and the OEM -/

/-- `EntertainmentMuteStatus` values. -/
def kEntMuteOn : UInt8 := 2
def kEntMuteOff : UInt8 := 1

/-- The first argument of a signal. -/
inductive BusArg
  | byte (val : UInt8)
  | other
deriving DecidableEq, Repr

/-- A popped message: the mute signal with its first argument, if any, or another one. -/
inductive BusMessage
  | mute (arg : Option BusArg)
  | other
deriving DecidableEq, Repr

/-- What the OEM answers on the way: to the query of the audio manager, then to the
lookups of `send_media_key`. -/
structure OemMedia where
  aapProc      : Bool
  audioManager : Bool
  inFocus      : Bool
  inPlaying    : Bool
  sendAapProc  : Bool
  raceAap      : Bool
deriving DecidableEq, Repr

def OemMedia.aaMediaInFocus (oem : OemMedia) : Bool :=
  oem.aapProc && oem.audioManager && oem.inFocus

def OemMedia.aaMediaInPlaying (oem : OemMedia) : Bool :=
  oem.aapProc && oem.audioManager && oem.inPlaying

/-! ## The state -/

abbrev ThreadId := Nat

/-- Where the watcher is. In `send_media_key` it holds the key, the exemption it found
and, for the release, the result of the press. -/
inductive WatcherPc
  | absent
  | looping             -- before `while (!stop_requested())`
  | setup               -- in `setup_connection`
  | watching            -- in `run_watch_loop`
  | press (key : UInt32) (previous : Bool)
  | release (key : UInt32) (previous : Bool) (rcDown : Int32)
  | backoff             -- after `teardown_connection`
  | exited
deriving DecidableEq, Repr

/-- The key the watcher is sending. -/
def WatcherPc.sending : WatcherPc → Option UInt32
  | press key _ => some key
  | release key _ _ => some key
  | _ => none

/-- What happened, for the statements: no step depends on it. -/
inductive Event
  | started
  | stopped
  | connected
  | disconnected
  /-- `send_media_key` is entered. -/
  | attempt (key : UInt32)
  /-- It returns true. -/
  | delivered (key : UInt32)
  /-- An unmute without focus gives up the pending resume. -/
  | dropped
  /-- A call of the hook, from inside a send or not, and what the real symbol got. -/
  | call (thread : ThreadId) (inSend : Option UInt32) (args : KeyArgs)
      (forwarded : Option KeyArgs)
deriving DecidableEq, Repr

structure BridgeState where
  /-- `g_we_paused` -/
  wePaused : Bool := false
  /-- `g_allow_module_media_play`, of each thread. -/
  allow    : ThreadId → Bool := fun _ => false
  threadUp : Bool := false
  /-- The eventfd is readable. -/
  stop     : Bool := false
  pc       : WatcherPc := .absent
  watcher  : ThreadId := 0
  /-- Newest first. -/
  hist     : List Event := []

def BridgeState.note (s : BridgeState) (e : Event) : BridgeState := { s with hist := e :: s.hist }

/-! ## The watcher -/

/-- What `on_mute_changed` does with the result of `send_media_key`. -/
def BridgeState.sent (s : BridgeState) (key : UInt32) (delivered : Bool) : BridgeState :=
  if delivered then
    { s with
      wePaused := key == kAAPKeyMediaPause
      pc := .watching }.note (.delivered key)
  else { s with pc := .watching }

/-- `send_media_key`, up to the press. -/
def BridgeState.sendMediaKey (s : BridgeState) (key : UInt32) (oem : OemMedia) : BridgeState :=
  let s := s.note (.attempt key)
  if ¬oem.sendAapProc then s.sent key false
  else if ¬oem.raceAap then s.sent key false
  else { s with
    allow := if key = kAAPKeyMediaPlay then Function.update s.allow s.watcher true else s.allow
    pc := .press key (s.allow s.watcher) }

def BridgeState.onMuteChanged (s : BridgeState) (muted : Bool) (oem : OemMedia) : BridgeState :=
  if muted then
    if s.wePaused then s
    else if ¬oem.aaMediaInPlaying then s
    else s.sendMediaKey kAAPKeyMediaPause oem
  else
    if ¬s.wePaused then s
    else if ¬oem.aaMediaInFocus then { s with wePaused := false }.note .dropped
    else s.sendMediaKey kAAPKeyMediaPlay oem

def BridgeState.handleMessage (s : BridgeState) (msg : BusMessage) (oem : OemMedia) :
    BridgeState :=
  match msg with
  | .mute (some (.byte val)) =>
    if val = kEntMuteOn then s.onMuteChanged true oem
    else if val = kEntMuteOff then s.onMuteChanged false oem
    else s
  | _ => s

/-- A call of the hook on the thread `t`; the real symbol is there. -/
def BridgeState.hook (block : Bool) (s : BridgeState) (t : ThreadId) (inSend : Option UInt32)
    (args : KeyArgs) (rc : Int32) : BridgeState :=
  s.note (.call t inSend args (aapSendKeyInput block (s.allow t) (some rc) args).2)

/-- `RaceAap::SendKeyInput` on the watcher's thread. `through` is the handle it calls
the hook with and the real symbol's answer, or nothing if it refuses before that. -/
def BridgeState.sendKeyInput (block : Bool) (s : BridgeState) (evt : AapKeyEvent)
    (through : Option (UInt32 × Int32)) : BridgeState :=
  match through with
  | some (handle, rc) => s.hook block s.watcher (some evt.eKeyCode) ⟨handle, some evt⟩ rc
  | none => s

/-! ## One step -/

inductive StartResult
  | noEventFd
  | noThread
  | spawned (watcher : ThreadId)
deriving DecidableEq, Repr

inductive BridgeAction
  /-- `playpause_post_aap_create_session` -/
  | start (r : StartResult)
  /-- The write of `playpause_pre_aap_destroy_session`, and its join. -/
  | requestStop (written : Bool)
  | join
  | loop
  | setup (ok : Bool)
  | message (msg : BusMessage) (oem : OemMedia)
  /-- `run_watch_loop` returns: the bus is gone, a poll failed, or stop was seen. -/
  | leave
  | backoff
  | press (through : Option (UInt32 × Int32)) (rcDown : Int32)
  | release (through : Option (UInt32 × Int32)) (rcUp : Int32)
  /-- Another thread calls the hook. -/
  | keyInput (t : ThreadId) (args : KeyArgs) (rc : Int32)
deriving DecidableEq, Repr

def BridgeState.start (s : BridgeState) (r : StartResult) : BridgeState :=
  -- a start while the watcher is up does nothing
  if s.threadUp then s
  else
    let s := { s with wePaused := false }
    match r with
    | .spawned watcher =>
      -- a new thread, with thread-local storage of its own
      { s with
        allow := Function.update s.allow watcher false
        threadUp := true
        stop := false
        pc := .looping
        watcher := watcher }.note .started
    | _ => s

def bridgeStep (block : Bool) (s : BridgeState) : BridgeAction → Option BridgeState
  | .start r => some (s.start r)
  | .requestStop written => if s.threadUp then some { s with stop := s.stop || written } else none
  | .join =>
    if s.threadUp ∧ s.pc = .exited then
      some ({ s with threadUp := false, wePaused := false, pc := .absent }.note .stopped)
    else none
  | .loop =>
    if s.pc = .looping then
      some (if s.stop then { s with pc := .exited } else { s with wePaused := false, pc := .setup })
    else none
  | .setup ok =>
    if s.pc = .setup then
      some (if ok then { s with pc := .watching }.note .connected else { s with pc := .backoff })
    else none
  | .message msg oem => if s.pc = .watching then some (s.handleMessage msg oem) else none
  | .leave =>
    if s.pc = .watching then some ({ s with pc := .backoff }.note .disconnected) else none
  | .backoff =>
    if s.pc = .backoff then some { s with pc := if s.stop then .exited else .looping } else none
  | .press through rcDown =>
    match s.pc with
    | .press key previous =>
      let s := s.sendKeyInput block ⟨kAAPKeyEventType, key, 1⟩ through
      some { s with pc := .release key previous rcDown }
    | _ => none
  | .release through rcUp =>
    match s.pc with
    | .release key previous rcDown =>
      let s := s.sendKeyInput block ⟨kAAPKeyEventType, key, 0⟩ through
      let s := { s with allow := Function.update s.allow s.watcher previous }
      some (s.sent key (rcDown = 0 ∧ rcUp = 0))
    | _ => none
  | .keyInput t args rc =>
    -- the watcher's thread sends nothing on its own account
    if s.threadUp ∧ t = s.watcher then none else some (s.hook block t none args rc)

end OemAaMod.PlayPause
