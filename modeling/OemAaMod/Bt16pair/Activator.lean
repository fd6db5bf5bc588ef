import OemAaMod.Lib.CStr
import OemAaMod.Lib.Run

/-!
# The forced activation of the dongle

`bt16pair.cpp`: an AAWireless dongle at GAL 1.6 never asks to be paired, and the OEM waits
for that with its session at connect mode 2. The wrapper of the projection callback arms a
thread that forces the activation.

* `Oem`, `OemEvent` — the objects of the OEM, which change at any time;
* `btStep` — a step of the OEM, of the SDK thread in the callback or of an activator, each
  read of an OEM object on its own;
* `Since` — what has changed behind the back of an activator, which only the proofs look at;
* `forced_iff` — a call that hits anything but the stuck dongle comes behind such a change.
-/

namespace OemAaMod.Bt16pair

open CStr (Bytes)

/-! ## The OEM -/

def kAapProjectionSetup : Int32 := 0x403

def kDongleDevName : Bytes := "AAWireless".toUTF8.toList

def kConnModePendingPair : Int32 := 2

def kConnModeActivated : Int32 := 3

/-- What the OEM's objects say, where they are there. -/
structure Oem where
  aap               : Bool := false
  videoManager      : Bool := false
  videoFocus        : Bool := false
  connectionManager : Bool := false
  devName           : Bytes := []
  connectMode       : Int32 := 0
deriving DecidableEq

/-- `AapConnectionManager_instance` finds it. -/
def Oem.hasCm (o : Oem) : Bool := o.aap && o.connectionManager

/-- AA has the video focus. -/
def Oem.inFocus (o : Oem) : Bool := o.aap && (o.videoManager && o.videoFocus)

inductive OemEvent
  | instances (aap videoManager connectionManager : Bool)
  /-- A connect or a disconnect. -/
  | device (name : Bytes) (mode : Int32)
  | connectMode (mode : Int32)
  /-- The OEM's own activation. -/
  | activate
  | videoFocus (focus : Bool)
deriving DecidableEq

/-- `AapConnectionManager_ActivateAapSession` -/
def Oem.activateAapSession (o : Oem) : Oem := { o with connectMode := kConnModeActivated }

def Oem.after (o : Oem) : OemEvent → Oem
  | .instances aap videoManager connectionManager => { o with aap, videoManager, connectionManager }
  | .device name mode => { o with devName := name, connectMode := mode }
  | .connectMode mode => { o with connectMode := mode }
  | .activate => o.activateAapSession
  | .videoFocus focus => { o with videoFocus := focus }

/-- The dongle waits to be paired and AA is not activated. -/
def Oem.Stuck (o : Oem) : Prop :=
  o.devName = kDongleDevName ∧ o.connectMode = kConnModePendingPair ∧ o.inFocus = false

instance (o : Oem) : Decidable o.Stuck := inferInstanceAs (Decidable (_ ∧ _))

/-! ## The threads -/

/-- What has changed since it was read: the device last went from the dongle to another
since the gate, the connect mode away from 2 since the poll's read of it, AA into the focus
since the poll's read of that. -/
structure Since where
  swapped : Bool := false
  moved   : Bool := false
  focused : Bool := false
deriving DecidableEq

/-- A flag for what is read as `v`, where the OEM goes on to `v'`. -/
def follow {β : Type*} [DecidableEq β] (bad : β → Bool) (v v' : β) (flag : Bool) : Bool :=
  if v' = v then flag else bad v'

def Since.after (since : Since) (o o' : Oem) : Since where
  swapped := follow (· ≠ kDongleDevName) o.devName o'.devName since.swapped
  moved := follow (· ≠ kConnModePendingPair) o.connectMode o'.connectMode since.moved
  focused := follow id o.inFocus o'.inFocus since.focused

/-- Where `activator_thread` is. -/
inductive ActivatorPc
  | aap           -- before `Singleton_AapProc_GetInstance`
  | videoManager
  | focus
  | cm
  | mode
  | activate      -- before `AapConnectionManager_ActivateAapSession`
  | sleep
  | exit          -- before it clears `g_activator_running`
deriving DecidableEq

/-- An activator, with the number of the SETUP that armed it. -/
structure Activator where
  setup : Nat
  since : Since
  tries : Nat := 0
  focus : Bool := false
  pc    : ActivatorPc := .aap
deriving DecidableEq

/-- Where the SDK thread is: in no callback, before the check of the name, or in
`spawn_activator_once`. -/
inductive SdkPc
  | idle
  | gate (setup : Nat)
  | spawn (setup : Nat) (since : Since)
  | create (setup : Nat) (since : Since)   -- before `preload_thread_create`
  | unguard                                -- it failed
deriving DecidableEq

structure ForcedCall where
  setup : Nat
  oem   : Oem
  since : Since
deriving DecidableEq

structure BtState where
  oem              : Oem := {}
  activatorRunning : Bool := false
  sdk              : SdkPc := .idle
  threads          : List Activator := []
  setups           : Nat := 0
  /-- The calls of `AapConnectionManager_ActivateAapSession`, newest first. -/
  calls            : List ForcedCall := []
deriving DecidableEq

inductive BtAction
  | oem (e : OemEvent)
  /-- `our_projection_status_cb`, up to the gate. -/
  | callback (ev : Int32)
  /-- It goes on; whether a thread could be created. -/
  | sdk (created : Bool)
  | activator (i : Nat)
deriving DecidableEq

/-! ## The activator -/

/-- With what a poll has read of the mode, -1 for none. -/
def Activator.decide (t : Activator) (mode : Int32) : Activator :=
  if t.focus = true ∨ mode = kConnModeActivated then { t with pc := .exit }
  else if mode = kConnModePendingPair then { t with pc := .activate }
  else { t with pc := .sleep }

/-- The focus, as a poll has read it. -/
def Activator.readFocus (t : Activator) (focus : Bool) : Activator :=
  { t with focus, since := { t.since with focused := false }, pc := .cm }

/-- Its steps up to the call. -/
def Activator.poll (t : Activator) (o : Oem) : Activator :=
  match t.pc with
  | .aap => if o.aap then { t with pc := .videoManager } else t.readFocus false
  | .videoManager => if o.videoManager then { t with pc := .focus } else t.readFocus false
  | .focus => t.readFocus o.videoFocus
  | .cm => if o.hasCm then { t with pc := .mode } else t.decide (-1)
  | .mode => { t with since := { t.since with moved := false } }.decide o.connectMode
  | .sleep =>
    if t.tries + 1 < 30 then { t with tries := t.tries + 1, pc := .aap } else { t with pc := .exit }
  | .activate | .exit => t

/-! ## The steps -/

def SdkPc.after (sdk : SdkPc) (o o' : Oem) : SdkPc :=
  match sdk with
  | .spawn setup since => .spawn setup (since.after o o')
  | .create setup since => .create setup (since.after o o')
  | sdk => sdk

/-- The OEM goes on. -/
def BtState.oemStep (s : BtState) (e : OemEvent) : BtState :=
  { s with
    oem := s.oem.after e
    sdk := s.sdk.after s.oem (s.oem.after e)
    threads := s.threads.map fun t => { t with since := t.since.after s.oem (s.oem.after e) } }

/-- The callback and `spawn_activator_once`. -/
def BtState.sdkStep (s : BtState) (created : Bool) : Option BtState :=
  match s.sdk with
  | .idle => none
  | .gate setup => some { s with
      sdk := if s.oem.devName = kDongleDevName then .spawn setup {} else .idle }
  | .spawn setup since => some (
      if s.activatorRunning then { s with sdk := .idle }
      else { s with activatorRunning := true, sdk := .create setup since })
  | .create setup since => some (
      if created then { s with sdk := .idle, threads := s.threads ++ [⟨setup, since, 0, false, .aap⟩] }
      else { s with sdk := .unguard })
  | .unguard => some { s with activatorRunning := false, sdk := .idle }

def BtState.activatorStep (s : BtState) (i : Nat) (t : Activator) : BtState :=
  match t.pc with
  | .activate => { s with
      oem := s.oem.activateAapSession
      threads := s.threads.set i { t with pc := .exit }
      calls := ⟨t.setup, s.oem, t.since⟩ :: s.calls }
  | .exit => { s with activatorRunning := false, threads := s.threads.eraseIdx i }
  | _ => { s with threads := s.threads.set i (t.poll s.oem) }

/-- A step, with `use_protocol_v1_6`. -/
def btStep (useProtocolV16 : Bool) (s : BtState) : BtAction → Option BtState
  | .oem e => some (s.oemStep e)
  | .callback ev =>
    if s.sdk ≠ .idle then none
    else if ev = kAapProjectionSetup then
      some { s with
        sdk := if useProtocolV16 = true ∧ s.oem.hasCm = true then .gate s.setups else .idle
        setups := s.setups + 1 }
    else some s
  | .sdk created => s.sdkStep created
  | .activator i => s.threads[i]?.map (s.activatorStep i)

/-! ## What an activator knows -/

variable {v16 : Bool} {s s' : BtState} {o o' : Oem} {t : Activator}

theorem follow_eq {β : Type*} [DecidableEq β] (bad : β → Bool) {v : β} {flag : Bool}
    (h : flag = bad v) (v' : β) : follow bad v v' flag = bad v' := by
  unfold follow
  split
  · rename_i heq
    rw [heq, h]
  · rfl

/-- What has been read is still so, but for what has changed since. -/
structure Knows (o : Oem) (t : Activator) : Prop where
  swapped : t.since.swapped = decide (o.devName ≠ kDongleDevName)
  focused : t.pc = .cm ∨ t.pc = .mode ∨ t.pc = .activate → t.focus = false →
    t.since.focused = o.inFocus
  moved   : t.pc = .activate → t.focus = false ∧
    t.since.moved = decide (o.connectMode ≠ kConnModePendingPair)

theorem Knows.after (h : Knows o t) (o' : Oem) : Knows o' { t with since := t.since.after o o' } where
  swapped := follow_eq (· ≠ kDongleDevName) h.swapped o'.devName
  focused := fun hpc hfocus => follow_eq id (h.focused hpc hfocus) o'.inFocus
  moved := fun hpc =>
    ⟨(h.moved hpc).1, follow_eq (· ≠ kConnModePendingPair) (h.moved hpc).2 o'.connectMode⟩

theorem Knows.readFocus (h : Knows o t) {focus : Bool} (hfocus : focus = false → o.inFocus = false) :
    Knows o (t.readFocus focus) where
  swapped := h.swapped
  focused := fun _ hread => (hfocus hread).symm
  moved := fun hpc => by cases hpc

theorem Knows.decide (h : Knows o t) {mode : Int32}
    (hfocused : t.focus = false → t.since.focused = o.inFocus)
    (hmode : mode = kConnModePendingPair →
      t.since.moved = Decidable.decide (o.connectMode ≠ kConnModePendingPair)) :
    Knows o (t.decide mode) := by
  unfold Activator.decide
  by_cases hactivated : t.focus = true ∨ mode = kConnModeActivated
  · -- activated already, without the call
    rw [if_pos hactivated]
    exact ⟨h.swapped, fun hpc => by simp at hpc, fun hpc => by cases hpc⟩
  · rw [if_neg hactivated]
    obtain ⟨hfocus, -⟩ := not_or.mp hactivated
    rw [Bool.not_eq_true] at hfocus
    by_cases hpending : mode = kConnModePendingPair
    · -- the mode is what the call needs, at the moment it is read
      rw [if_pos hpending]
      exact ⟨h.swapped, fun _ => hfocused, fun _ => ⟨hfocus, hmode hpending⟩⟩
    · rw [if_neg hpending]
      exact ⟨h.swapped, fun hpc => by simp at hpc, fun hpc => by cases hpc⟩

/-- A step of a poll. -/
theorem Knows.poll (h : Knows o t) : Knows o (t.poll o) := by
  unfold Activator.poll
  cases hpc : t.pc with
  | aap =>
    dsimp only
    split
    · exact ⟨h.swapped, fun hpc => by simp at hpc, fun hpc => by cases hpc⟩
    · -- no instance, and without one nothing is in focus
      rename_i hnone
      exact h.readFocus fun _ => by simp [Oem.inFocus, hnone]
  | videoManager =>
    dsimp only
    split
    · exact ⟨h.swapped, fun hpc => by simp at hpc, fun hpc => by cases hpc⟩
    · rename_i hnone
      exact h.readFocus fun _ => by simp [Oem.inFocus, hnone]
  | focus => exact h.readFocus fun hread => by simp [Oem.inFocus, hread]
  | cm =>
    dsimp only
    split
    · exact ⟨h.swapped, fun _ hfocus => h.focused (.inl hpc) hfocus, fun hpc => by cases hpc⟩
    · exact h.decide (h.focused (.inl hpc)) fun hmode => absurd hmode (by decide)
  | mode =>
    have hread : Knows o { t with since := { t.since with moved := false } } :=
      ⟨h.swapped, h.focused, fun hactivate => by simp [hpc] at hactivate⟩
    exact hread.decide (h.focused (.inr (.inl hpc))) fun hmode => by simp [hmode]
  | sleep =>
    dsimp only
    split
    · exact ⟨h.swapped, fun hpc => by simp at hpc, fun hpc => by cases hpc⟩
    · exact ⟨h.swapped, fun hpc => by simp at hpc, fun hpc => by cases hpc⟩
  | activate | exit => exact h

/-! ## The invariant -/

/-- The SDK thread has set `g_activator_running` and has started no activator yet. -/
def SdkPc.holds : SdkPc → Bool
  | .create .. | .unguard => true
  | .idle | .gate _ | .spawn .. => false

/-- The SETUP it is in the callback of. -/
def SdkPc.setup? : SdkPc → Option Nat
  | .gate setup | .spawn setup _ | .create setup _ => some setup
  | .idle | .unguard => none

/-- What has changed since the check of the name. -/
def SdkPc.since? : SdkPc → Option Since
  | .spawn _ since | .create _ since => some since
  | .idle | .gate _ | .unguard => none

/-- **What every step keeps.** -/
structure BtInv (s : BtState) : Prop where
  single  : s.threads.length + s.sdk.holds.toNat = s.activatorRunning.toNat
  sdk     : ∀ since ∈ s.sdk.since?, since.swapped = decide (s.oem.devName ≠ kDongleDevName)
  knows   : ∀ t ∈ s.threads, Knows s.oem t
  -- the SETUPs are served in their order
  armed   : ∀ setup ∈ s.sdk.setup?, setup < s.setups ∧ (∀ t ∈ s.threads, t.setup < setup) ∧
    ∀ c ∈ s.calls, c.setup < setup
  started : ∀ t ∈ s.threads, t.setup < s.setups ∧ (t.pc ≠ .exit → ∀ c ∈ s.calls, c.setup < t.setup)
  called  : ∀ c ∈ s.calls, c.setup < s.setups
  once    : s.calls.Pairwise fun c c' => c'.setup < c.setup
  hits    : ∀ c ∈ s.calls, c.oem.Stuck ↔ c.since = {}

theorem btInv_init (o : Oem) : BtInv { oem := o } where
  single := rfl
  sdk := fun _ h => by cases h
  knows := fun _ h => by cases h
  armed := fun _ h => by cases h
  started := fun _ h => by cases h
  called := fun _ h => by cases h
  once := .nil
  hits := fun _ h => by cases h

/-- There is at most one activator, and none while the SDK thread is about to start one. -/
theorem BtInv.threads_eq (h : BtInv s) {i : Nat} {t : Activator} (ht : s.threads[i]? = some t) :
    i = 0 ∧ s.threads = [t] ∧ s.sdk.holds = false ∧ s.activatorRunning = true := by
  have hi : i < s.threads.length := (List.getElem?_eq_some_iff.mp ht).1
  have hrunning : s.activatorRunning.toNat ≤ 1 := Bool.toNat_le _
  have hsingle := h.single
  -- the flag pays for one thread only
  have hlength : s.threads.length = 1 := by omega
  obtain ⟨t', ht'⟩ := List.length_eq_one_iff.mp hlength
  obtain rfl : i = 0 := by omega
  rw [ht'] at ht ⊢
  obtain rfl : t' = t := by simpa using ht
  refine ⟨rfl, rfl, ?_, ?_⟩
  · cases hholds : s.sdk.holds with
    | false => rfl
    | true =>
      rw [hholds, Bool.toNat_true] at hsingle
      omega
  · cases hflag : s.activatorRunning with
    | true => rfl
    | false =>
      rw [hflag, Bool.toNat_false] at hsingle
      omega

theorem BtInv.oemStep (h : BtInv s) (e : OemEvent) : BtInv (s.oemStep e) := by
  -- the SDK thread stays where it is
  have hholds : (s.sdk.after s.oem (s.oem.after e)).holds = s.sdk.holds := by cases s.sdk <;> rfl
  have hsetup : (s.sdk.after s.oem (s.oem.after e)).setup? = s.sdk.setup? := by cases s.sdk <;> rfl
  have hsince : (s.sdk.after s.oem (s.oem.after e)).since? =
      s.sdk.since?.map fun since => since.after s.oem (s.oem.after e) := by cases s.sdk <;> rfl
  unfold BtState.oemStep
  refine ⟨?_, ?_, ?_, ?_, ?_, h.called, h.once, h.hits⟩
  · dsimp only
    rw [List.length_map, hholds]
    exact h.single
  · dsimp only
    rw [hsince]
    simp only [Option.mem_def, Option.map_eq_some_iff, forall_exists_index, and_imp]
    rintro _ since hs rfl
    exact follow_eq (· ≠ kDongleDevName) (h.sdk since hs) _
  · exact List.forall_mem_map.mpr fun t ht => (h.knows t ht).after _
  · dsimp only
    rw [hsetup]
    exact fun setup hs => ⟨(h.armed setup hs).1,
      List.forall_mem_map.mpr (h.armed setup hs).2.1, (h.armed setup hs).2.2⟩
  · exact List.forall_mem_map.mpr h.started

/-- The SDK thread gets to a place where it holds no SETUP. -/
theorem BtInv.leave (h : BtInv s) (sdk : SdkPc) (activatorRunning : Bool)
    (hsingle : s.threads.length + sdk.holds.toNat = activatorRunning.toNat)
    (hsetup : sdk.setup? = none) (hsince : sdk.since? = none) :
    BtInv { s with sdk, activatorRunning } where
  single := hsingle
  sdk := fun _ hs => by rw [hsince] at hs; cases hs
  knows := h.knows
  armed := fun _ hs => by rw [hsetup] at hs; cases hs
  started := h.started
  called := h.called
  once := h.once
  hits := h.hits

theorem BtInv.sdkStep (h : BtInv s) {created : Bool} (hstep : s.sdkStep created = some s') :
    BtInv s' := by
  have hsingle := h.single
  have hsdk := h.sdk
  have harmed := h.armed
  unfold BtState.sdkStep at hstep
  cases hpc : s.sdk with
  | idle => simp [hpc] at hstep
  | gate setup =>
    rw [hpc] at hsingle harmed
    simp only [hpc, Option.some_inj] at hstep
    subst hstep
    by_cases hdongle : s.oem.devName = kDongleDevName
    · simp only [if_pos hdongle]
      refine ⟨hsingle, ?_, h.knows, harmed, h.started, h.called, h.once, h.hits⟩
      rintro _ ⟨⟩
      simp [hdongle]
    · simp only [if_neg hdongle]
      exact h.leave .idle _ hsingle rfl rfl
  | spawn setup since =>
    rw [hpc] at hsingle harmed hsdk
    simp only [hpc, Option.some_inj] at hstep
    subst hstep
    -- the flag is set: a second activator is not started
    by_cases hrunning : s.activatorRunning = true
    · rw [if_pos hrunning]
      exact h.leave .idle _ hsingle rfl rfl
    · rw [if_neg hrunning]
      rw [Bool.not_eq_true] at hrunning
      rw [hrunning] at hsingle
      refine ⟨?_, hsdk, h.knows, harmed, h.started, h.called, h.once, h.hits⟩
      exact congrArg (· + 1) hsingle
  | create setup since =>
    rw [hpc] at hsingle harmed hsdk
    simp only [hpc, Option.some_inj] at hstep
    subst hstep
    obtain ⟨hnew, -, hcalls⟩ := harmed setup rfl
    cases created with
    | true =>
      -- the new activator takes over what was checked
      refine ⟨?_, ?_, ?_, ?_, ?_, h.called, h.once, h.hits⟩
      · simp only [if_true, List.length_append]
        exact hsingle
      · rintro _ ⟨⟩
      · refine List.forall_mem_append.mpr ⟨h.knows, List.forall_mem_singleton.mpr ?_⟩
        exact ⟨hsdk since rfl, fun hpc => by simp at hpc, fun hpc => by cases hpc⟩
      · rintro _ ⟨⟩
      · exact List.forall_mem_append.mpr
          ⟨h.started, List.forall_mem_singleton.mpr ⟨hnew, fun _ => hcalls⟩⟩
    | false => exact h.leave .unguard _ hsingle rfl rfl
  | unguard =>
    rw [hpc] at hsingle
    simp only [hpc, Option.some_inj] at hstep
    subst hstep
    have hrunning : s.activatorRunning.toNat ≤ 1 := Bool.toNat_le _
    refine h.leave .idle false ?_ rfl rfl
    simp only [SdkPc.holds, Bool.toNat_true, Bool.toNat_false] at hsingle ⊢
    omega

@[simp] theorem readFocus_setup (t : Activator) (focus : Bool) :
    (t.readFocus focus).setup = t.setup := rfl

@[simp] theorem decide_setup (t : Activator) (mode : Int32) : (t.decide mode).setup = t.setup := by
  unfold Activator.decide
  split
  · rfl
  · split <;> rfl

@[simp] theorem poll_setup (t : Activator) (o : Oem) : (t.poll o).setup = t.setup := by
  unfold Activator.poll
  cases t.pc with
  | aap | videoManager | cm | sleep => dsimp only; split <;> simp
  | focus | mode | activate | exit => simp

/-- A step of a poll, of the only activator. -/
theorem BtInv.poll (h : BtInv s) {t : Activator} (hthreads : s.threads = [t]) (hpc : t.pc ≠ .exit) :
    BtInv { s with threads := s.threads.set 0 (t.poll s.oem) } := by
  obtain ⟨hsingle, hsdk, hknows, harmed, hstarted, hcalled, honce, hhits⟩ := h
  rw [hthreads] at hsingle hknows harmed hstarted ⊢
  simp only [List.forall_mem_singleton, List.set_cons_zero] at hknows harmed hstarted ⊢
  refine ⟨hsingle, hsdk, List.forall_mem_singleton.mpr hknows.poll, fun setup hs => ?_,
    List.forall_mem_singleton.mpr ?_, hcalled, honce, hhits⟩
  · obtain ⟨hnew, hthread, hcalls⟩ := harmed setup hs
    exact ⟨hnew, List.forall_mem_singleton.mpr (by rwa [poll_setup]), hcalls⟩
  · rw [poll_setup]
    exact ⟨hstarted.1, fun _ => hstarted.2 hpc⟩

/-- The call. -/
theorem BtInv.call (h : BtInv s) {t : Activator} (hthreads : s.threads = [t])
    (hpc : t.pc = .activate) : BtInv { s with
      oem := s.oem.activateAapSession
      threads := s.threads.set 0 { t with pc := .exit }
      calls := ⟨t.setup, s.oem, t.since⟩ :: s.calls } := by
  obtain ⟨hsingle, hsdk, hknows, harmed, hstarted, hcalled, honce, hhits⟩ := h
  rw [hthreads] at hsingle hknows harmed hstarted ⊢
  simp only [List.forall_mem_singleton, List.set_cons_zero] at hknows harmed hstarted ⊢
  -- every call so far was for an older SETUP
  have holder := hstarted.2 (by simp [hpc])
  refine ⟨hsingle, hsdk, List.forall_mem_singleton.mpr ?_, fun setup hs => ?_,
    List.forall_mem_singleton.mpr ⟨hstarted.1, fun hexit => absurd rfl hexit⟩,
    List.forall_mem_cons.mpr ⟨hstarted.1, hcalled⟩, List.pairwise_cons.mpr ⟨holder, honce⟩,
    List.forall_mem_cons.mpr ⟨?_, hhits⟩⟩
  · exact ⟨hknows.swapped, fun hpc => by simp at hpc, fun hpc => by cases hpc⟩
  · obtain ⟨hnew, hthread, hcalls⟩ := harmed setup hs
    exact ⟨hnew, List.forall_mem_singleton.mpr hthread, List.forall_mem_cons.mpr ⟨hthread, hcalls⟩⟩
  · -- what it has read is what the call needs
    obtain ⟨hfocus, hmoved⟩ := hknows.moved hpc
    have hfocused := hknows.focused (.inr (.inr hpc)) hfocus
    have hsince : t.since = {} ↔
        t.since.swapped = false ∧ t.since.moved = false ∧ t.since.focused = false := by
      cases t.since
      simp
    rw [hsince, hknows.swapped, hmoved, hfocused]
    simp [Oem.Stuck]

theorem BtInv.activatorStep (h : BtInv s) {i : Nat} {t : Activator} (ht : s.threads[i]? = some t) :
    BtInv (s.activatorStep i t) := by
  obtain ⟨rfl, hthreads, hholds, hrunning⟩ := h.threads_eq ht
  unfold BtState.activatorStep
  cases hpc : t.pc with
  | activate => exact h.call hthreads hpc
  | exit =>
    -- it leaves, and clears the flag
    refine ⟨?_, h.sdk, ?_, ?_, ?_, h.called, h.once, h.hits⟩
    · simp [hthreads, hholds]
    · simp [hthreads]
    · exact fun setup hs => ⟨(h.armed setup hs).1, by simp [hthreads], (h.armed setup hs).2.2⟩
    · simp [hthreads]
  | aap | videoManager | focus | cm | mode | sleep => exact h.poll hthreads (by simp [hpc])

/-- **Step lemma.** -/
theorem btInv_step {a : BtAction} (h : BtInv s) (hstep : btStep v16 s a = some s') : BtInv s' := by
  cases a with
  | oem e =>
    rw [btStep, Option.some_inj] at hstep
    exact hstep ▸ h.oemStep e
  | callback ev =>
    simp only [btStep] at hstep
    split at hstep
    · exact absurd hstep (by simp)
    · rename_i hidle
      rw [not_not] at hidle
      have hsingle := h.single
      rw [hidle] at hsingle
      split at hstep
      · rw [Option.some_inj] at hstep
        subst hstep
        -- a new SETUP, younger than every other
        have hcalled : ∀ c ∈ s.calls, c.setup < s.setups + 1 := fun c hc =>
          Nat.lt_succ_of_lt (h.called c hc)
        have hstarted : ∀ t ∈ s.threads, t.setup < s.setups + 1 ∧
            (t.pc ≠ .exit → ∀ c ∈ s.calls, c.setup < t.setup) := fun t ht =>
          ⟨Nat.lt_succ_of_lt (h.started t ht).1, (h.started t ht).2⟩
        by_cases hgate : v16 = true ∧ s.oem.hasCm = true
        · simp only [if_pos hgate]
          refine ⟨hsingle, ?_, h.knows, ?_, hstarted, hcalled, h.once, h.hits⟩
          · rintro _ ⟨⟩
          · rintro _ ⟨⟩
            exact ⟨Nat.lt_succ_self _, fun t ht => (h.started t ht).1, h.called⟩
        · simp only [if_neg hgate]
          refine ⟨hsingle, ?_, h.knows, ?_, hstarted, hcalled, h.once, h.hits⟩
          · rintro _ ⟨⟩
          · rintro _ ⟨⟩
      · rw [Option.some_inj] at hstep
        exact hstep ▸ h
  | sdk created => exact h.sdkStep hstep
  | activator i =>
    simp only [btStep, Option.map_eq_some_iff] at hstep
    obtain ⟨t, ht, rfl⟩ := hstep
    exact h.activatorStep ht

theorem btInv_run (h : Run.Reach (btStep v16) (fun _ _ => True) { oem := o } s) : BtInv s :=
  h.invariant (btInv_init o) fun _ _ _ hi _ hstep => btInv_step hi hstep

/-! ## Results -/

/-- Every forced activation hits the stuck dongle, no two activators run, and no SETUP leads
to two activations. -/
def OnlyStuckDongle (s : BtState) : Prop :=
  (∀ c ∈ s.calls, c.oem.Stuck) ∧ s.threads.length ≤ 1 ∧ (s.calls.map ForcedCall.setup).Nodup

/-- A wired phone takes the dongle's place between the SETUP and the poll. -/
theorem swapped_phone_activated : ¬∀ v16 o s,
    Run.Reach (btStep v16) (fun _ _ => True) { oem := o } s → OnlyStuckDongle s := by
  intro h
  obtain ⟨s, hreach, hmiss⟩ : ∃ s, Run.Reach (btStep true) (fun _ _ => True)
      { oem := ⟨true, true, false, true, kDongleDevName, 0⟩ } s ∧ ¬∀ c ∈ s.calls, c.oem.Stuck :=
    Run.Reach.exists_of_replay [.callback kAapProjectionSetup, .sdk true, .sdk true, .sdk true,
      .oem (.device "Pixel".toUTF8.toList 2), .activator 0, .activator 0, .activator 0,
      .activator 0, .activator 0, .activator 0] (by decide +kernel)
  exact hmiss (h true ⟨true, true, false, true, kDongleDevName, 0⟩ s hreach).1

/-- **The forced activation.** It hits the stuck dongle only, in every run, if and only if
nothing that was read has changed for the worse when it is made. The rest holds anyway. -/
theorem forced_iff (v16 : Bool) (o : Oem) (s : BtState)
    (h : Run.Reach (btStep v16) (fun _ _ => True) { oem := o } s) :
    OnlyStuckDongle s ↔ ∀ c ∈ s.calls, c.since = {} := by
  have hinv := btInv_run h
  have honce : (s.calls.map ForcedCall.setup).Nodup :=
    List.pairwise_map.mpr (hinv.once.imp fun hlt => (Nat.ne_of_lt hlt).symm)
  have hthreads : s.threads.length ≤ 1 := by
    have hrunning : s.activatorRunning.toNat ≤ 1 := Bool.toNat_le _
    have hsingle := hinv.single
    omega
  have hhits : (∀ c ∈ s.calls, c.oem.Stuck) ↔ ∀ c ∈ s.calls, c.since = {} :=
    forall₂_congr hinv.hits
  rw [← hhits]
  exact ⟨fun honly => honly.1, fun hstuck => ⟨hstuck, hthreads, honce⟩⟩

/-- The dongle, stuck. -/
theorem forced_iff_dongle : ∃ s, Run.Reach (btStep true) (fun _ _ => True)
    { oem := ⟨true, true, false, true, kDongleDevName, 2⟩ } s ∧ s.calls.length = 1 ∧
      OnlyStuckDongle s := by
  obtain ⟨s, hreach, hcalls, hsince⟩ : ∃ s, Run.Reach (btStep true) (fun _ _ => True)
      { oem := ⟨true, true, false, true, kDongleDevName, 2⟩ } s ∧ s.calls.length = 1 ∧
        ∀ c ∈ s.calls, c.since = {} :=
    Run.Reach.exists_of_replay [.callback kAapProjectionSetup, .sdk true, .sdk true, .sdk true,
      .activator 0, .activator 0, .activator 0, .activator 0, .activator 0, .activator 0]
      (by decide +kernel)
  exact ⟨s, hreach, hcalls, (forced_iff true _ s hreach).mpr hsince⟩

end OemAaMod.Bt16pair
