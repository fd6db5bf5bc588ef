import OemAaMod.Lib.Run
import OemAaMod.Common.Config
import OemAaMod.Lifecycle.Worker
import OemAaMod.Preload.Resolve

/-!
# The life of a session

`lifecycle.cpp`: the shims of `aap_create_session` and `aap_destroy_session`, in a process
where the OEM calls them again and again.

* `Process` — the globals, with what the workers hold; `Process.create`, `Process.destroy`;
* `Fresh` — the kernel hands out what is not in use;
* `LifeInv` — what holds between two calls; `accounted_of_reach`, `transparent_of_reach`.
-/

namespace OemAaMod

open Config (HudTransport Settings)

/-- A function that the shims stand for. -/
inductive RealFn
  | aap_create_session
  | aap_destroy_session
deriving DecidableEq

/-- The threads of a session. -/
inductive WorkerName
  | touch
  | tx (transport : HudTransport)
  | rx
  | playpause
deriving DecidableEq

def WorkerName.signal : WorkerName → StopSignal
  | .touch => .eventfd
  | .tx _ => .condition
  | .rx => .eventfdOrPoll
  | .playpause => .eventfd

/-- The table of callbacks, by word. -/
abbrev CbList := List ℕ

def kCbListProjSlot : ℕ := 3

def kCbListNavSlot : ℕ := 10

def kUnresolved : Int32 := 0x103

/-- Addresses of the library's own functions. -/
structure Shims where
  create                : ℕ
  destroy               : ℕ
  ourNavCb              : ℕ
  ourProjectionStatusCb : ℕ

def Shims.libaap (shims : Shims) : RealLibrary RealFn ℕ where
  symbols
    | .aap_create_session => ⟨"aap_create_session", shims.create⟩
    | .aap_destroy_session => ⟨"aap_destroy_session", shims.destroy⟩
  soname := some "libaap_interface.so"
  abspath := some "/usr/lib/libaap_interface.so"

/-- A call that came back: what the OEM gave, what the real function was called with, if it
was called, and what both returned. -/
structure Returned where
  fn     : RealFn
  given  : Option CbList
  passed : Option (Option CbList)
  rc     : Int32
  ret    : Int32

structure Process where
  reals        : Reals RealFn ℕ ℕ := {}
  selfGateDone : Bool := false
  enabled      : Bool := false
  session      : Option ℕ := none
  sessionUp    : Bool := false
  /-- `g_tx` -/
  transport    : HudTransport := .svcnavi
  origProjCb   : Option ℕ := none
  workers      : WorkerName → Worker := fun _ => {}
  kernel       : Kernel := {}
  log          : List Returned := []

/-! ## The shims -/

/-- A call of the OEM, with what everything that it leads to answers. -/
structure CreateCall where
  loader    : Loader ℕ ℕ
  /-- `blmjciaapa.so` is mapped. -/
  mapped    : Bool
  cbList    : Option CbList
  rc        : Int32
  /-- `*out_handle` after the real call. -/
  outHandle : Option ℕ
  spawn     : WorkerName → Spawn

structure DestroyCall where
  loader : Loader ℕ ℕ
  rc     : Int32

def Process.resolveRealOnce (shims : Shims) (L : Loader ℕ ℕ) (p : Process) : Process :=
  let created := p.reals.resolve shims.libaap L .aap_create_session
  { p with reals := created.resolve shims.libaap L .aap_destroy_session }

def Process.oemSelfGate (mapped : Bool) (p : Process) : Process :=
  if p.selfGateDone then p else { p with selfGateDone := true, enabled := mapped }

def hudPreAapCreateSession (shims : Shims) (cb : Option CbList) : Option CbList :=
  cb.map fun slots => slots.set kCbListNavSlot shims.ourNavCb

def bt16pairPreAapCreateSession (shims : Shims) (cb : Option CbList) (orig : Option ℕ) :
    Option CbList × Option ℕ :=
  match cb with
  | none => (none, orig)
  | some slots =>
    -- the wrapper is not saved over what it wraps
    if slots[kCbListProjSlot]? = some shims.ourProjectionStatusCb then (some slots, orig)
    else (some (slots.set kCbListProjSlot shims.ourProjectionStatusCb), slots[kCbListProjSlot]?)

def Process.startWorker (spawn : WorkerName → Spawn) (p : Process) (n : WorkerName) : Process :=
  let started := (p.workers n).start n.signal (spawn n) p.kernel
  { p with workers := Function.update p.workers n started.1, kernel := started.2 }

def Process.stopWorker (p : Process) (n : WorkerName) : Process :=
  let stopped := (p.workers n).stop p.kernel
  { p with workers := Function.update p.workers n stopped.1, kernel := stopped.2 }

/-- `hud_post_aap_create_session`, with the transport bound. -/
def hudWorkers (cfg : Settings) (transport : HudTransport) : List WorkerName :=
  .tx transport :: if cfg.useProtocolV16 then [.rx] else []

/-- The workers of a session, as they are started. -/
def sessionWorkers (cfg : Settings) (transport : HudTransport) : List WorkerName :=
  (if cfg.touch then [.touch] else []) ++ (if cfg.hud then hudWorkers cfg transport else []) ++
    if cfg.mutePausesPhone then [.playpause] else []

/-- They are stopped in the same order, but the receiver goes before the transport. -/
def stoppedWorkers (cfg : Settings) (transport : HudTransport) : List WorkerName :=
  (if cfg.touch then [.touch] else []) ++
    (if cfg.hud then (hudWorkers cfg transport).reverse else []) ++
      if cfg.mutePausesPhone then [.playpause] else []

def Process.startSession (cfg : Settings) (spawn : WorkerName → Spawn) (p : Process) : Process :=
  -- the transport is bound once a session, before its worker starts
  let p := if cfg.hud then { p with transport := cfg.hudTransport } else p
  { (sessionWorkers cfg p.transport).foldl (Process.startWorker spawn) p with sessionUp := true }

def Process.stopSession (cfg : Settings) (p : Process) : Process :=
  { (stoppedWorkers cfg p.transport).foldl Process.stopWorker p with sessionUp := false }

/-- What goes on to the real `aap_create_session`. -/
def Process.hook (shims : Shims) (cfg : Settings) (cb : Option CbList) (p : Process) :
    Process × Option CbList :=
  let cb := if p.enabled && cfg.hud then hudPreAapCreateSession shims cb else cb
  if p.enabled && cfg.useProtocolV16 then
    let hooked := bt16pairPreAapCreateSession shims cb p.origProjCb
    ({ p with origProjCb := hooked.2 }, hooked.1)
  else (p, cb)

def Process.create (shims : Shims) (cfg : Settings) (c : CreateCall) (p : Process) : Process :=
  let p := (p.resolveRealOnce shims c.loader).oemSelfGate c.mapped
  match p.reals.real .aap_create_session with
  | none => { p with log := p.log ++ [⟨.aap_create_session, c.cbList, none, c.rc, kUnresolved⟩] }
  | some _ =>
    let hooked := p.hook shims cfg c.cbList
    let p := { hooked.1 with
      log := hooked.1.log ++ [⟨.aap_create_session, c.cbList, some hooked.2, c.rc, c.rc⟩] }
    if c.rc ≠ 0 ∨ p.enabled = false ∨ c.outHandle = none then p
    else
      let p := { p with session := c.outHandle }
      if p.sessionUp then p else p.startSession cfg c.spawn

def Process.destroy (shims : Shims) (cfg : Settings) (c : DestroyCall) (p : Process) : Process :=
  let p := p.resolveRealOnce shims c.loader
  -- torn down before the real call, whatever that returns
  let p :=
    if p.enabled then
      { (if p.sessionUp then p.stopSession cfg else p) with session := none }
    else p
  match p.reals.real .aap_destroy_session with
  | none => { p with log := p.log ++ [⟨.aap_destroy_session, none, none, c.rc, kUnresolved⟩] }
  | some _ => { p with log := p.log ++ [⟨.aap_destroy_session, none, some none, c.rc, c.rc⟩] }

inductive SessionCall
  | create (c : CreateCall)
  | destroy (c : DestroyCall)

def Process.step (shims : Shims) (cfg : Settings) (p : Process) : SessionCall → Option Process
  | .create c => some (p.create shims cfg c)
  | .destroy c => some (p.destroy shims cfg c)

/-! ## What the kernel hands out -/

/-- What the workers `ns` are given is not in use, and no two are given the same. -/
def FreshFor (k : Kernel) (spawn : WorkerName → Spawn) (ns : List WorkerName) : Prop :=
  (∀ n ∈ ns, (∀ fd ∈ (spawn n).eventfd, fd ∉ k.fds) ∧ ∀ t ∈ (spawn n).thread, t ∉ k.threads) ∧
    ns.Pairwise fun n m => (∀ fd ∈ (spawn n).eventfd, fd ∉ (spawn m).eventfd) ∧
      ∀ t ∈ (spawn n).thread, t ∉ (spawn m).thread

instance (k : Kernel) (spawn : WorkerName → Spawn) (ns : List WorkerName) :
    Decidable (FreshFor k spawn ns) := inferInstanceAs (Decidable (_ ∧ _))

def Fresh (cfg : Settings) (p : Process) : SessionCall → Prop
  | .create c => FreshFor p.kernel c.spawn (sessionWorkers cfg cfg.hudTransport)
  | .destroy _ => True

instance (cfg : Settings) (p : Process) : (a : SessionCall) → Decidable (Fresh cfg p a)
  | .create c =>
    inferInstanceAs (Decidable (FreshFor p.kernel c.spawn (sessionWorkers cfg cfg.hudTransport)))
  | .destroy _ => isTrue trivial

variable {shims : Shims} {cfg : Settings} {p : Process} {n m : WorkerName} {ns : List WorkerName}
variable {spawn : WorkerName → Spawn} {w : Worker} {k : Kernel} {signal : StopSignal} {a : Spawn}

/-! ## Several workers -/

/-- Only the workers differ, and what they hold. -/
def SameButWorkers (p q : Process) : Prop :=
  ∃ workers kernel, q = { p with workers := workers, kernel := kernel }

theorem SameButWorkers.trans {q r : Process} (h : SameButWorkers p q) (h' : SameButWorkers q r) :
    SameButWorkers p r := by
  obtain ⟨_, _, rfl⟩ := h
  obtain ⟨workers, kernel, rfl⟩ := h'
  exact ⟨workers, kernel, rfl⟩

theorem workers_startWorker : (p.startWorker spawn n).workers =
    Function.update p.workers n ((p.workers n).start n.signal (spawn n) p.kernel).1 := rfl

theorem workers_stopWorker : (p.stopWorker n).workers =
    Function.update p.workers n ((p.workers n).stop p.kernel).1 := rfl

theorem start_fresh (hidle : w.thread = none → w.stopFd = none)
    (hfresh : ∀ fd ∈ a.eventfd, fd ∉ k.fds) :
    (∀ fd ∈ (w.start signal a k).2.fds, fd ∈ k.fds ∨ fd ∈ a.eventfd) ∧
      ∀ t ∈ (w.start signal a k).2.threads, t ∈ k.threads ∨ t ∈ a.thread := by
  rcases Worker.start_cases hidle hfresh with heq | ⟨-, t', ht', heq | ⟨fd', hfd', heq⟩⟩
  · rw [heq]
    exact ⟨fun _ => .inl, fun _ => .inl⟩
  · rw [heq]
    refine ⟨fun _ => .inl, fun t h => ?_⟩
    rcases Finset.mem_insert.mp h with rfl | h
    · exact .inr ht'
    · exact .inl h
  · rw [heq]
    constructor
    · intro fd h
      rcases Finset.mem_insert.mp h with rfl | h
      · exact .inr hfd'
      · exact .inl h
    · intro t h
      rcases Finset.mem_insert.mp h with rfl | h
      · exact .inr ht'
      · exact .inl h

/-- What the others are given is fresh still. -/
theorem FreshFor.tail (h : FreshFor p.kernel spawn (n :: ns)) (howns : Owns p.workers p.kernel) :
    FreshFor (p.startWorker spawn n).kernel spawn ns := by
  obtain ⟨hfresh, hpairwise⟩ := h
  rw [List.pairwise_cons] at hpairwise
  have hn := hfresh n List.mem_cons_self
  refine ⟨fun m hm => ⟨fun fd hfd hmem => ?_, fun t ht hmem => ?_⟩, hpairwise.2⟩
  · -- it was in use before, or it is what the first was given
    rcases (start_fresh (howns.idle n) hn.1).1 fd hmem with hold | hnew
    · exact (hfresh m (List.mem_cons_of_mem _ hm)).1 fd hfd hold
    · exact (hpairwise.1 m hm).1 fd hnew hfd
  · rcases (start_fresh (howns.idle n) hn.1).2 t hmem with hold | hnew
    · exact (hfresh m (List.mem_cons_of_mem _ hm)).2 t ht hold
    · exact (hpairwise.1 m hm).2 t hnew ht

theorem startWorkers_spec (howns : Owns p.workers p.kernel) (hfresh : FreshFor p.kernel spawn ns) :
    let q := ns.foldl (Process.startWorker spawn) p
    SameButWorkers p q ∧ Owns q.workers q.kernel ∧
      ∀ n, (q.workers n).thread ≠ none → (p.workers n).thread ≠ none ∨ n ∈ ns := by
  induction ns generalizing p with
  | nil => exact ⟨⟨_, _, rfl⟩, howns, fun _ h => .inl h⟩
  | cons n ns ih =>
    have hn := hfresh.1 n List.mem_cons_self
    have hone : Owns (p.startWorker spawn n).workers (p.startWorker spawn n).kernel :=
      howns.start n hn.1 hn.2
    obtain ⟨hsame, howns', hup⟩ := ih hone (hfresh.tail howns)
    have hfirst : SameButWorkers p (p.startWorker spawn n) := ⟨_, _, rfl⟩
    refine ⟨hfirst.trans hsame, howns', fun m hm => ?_⟩
    -- up already when the rest was started, or one of the rest
    rcases hup m hm with hup | hup
    · by_cases hmn : m = n
      · exact .inr (hmn ▸ List.mem_cons_self)
      · left
        rwa [workers_startWorker, Function.update_of_ne hmn] at hup
    · exact .inr (List.mem_cons_of_mem _ hup)

theorem stopWorkers_spec (howns : Owns p.workers p.kernel) (ns : List WorkerName) :
    let q := ns.foldl Process.stopWorker p
    SameButWorkers p q ∧ Owns q.workers q.kernel ∧
      ∀ n, (q.workers n).thread ≠ none → (p.workers n).thread ≠ none ∧ n ∉ ns := by
  induction ns generalizing p with
  | nil => exact ⟨⟨_, _, rfl⟩, howns, fun _ h => ⟨h, List.not_mem_nil⟩⟩
  | cons n ns ih =>
    obtain ⟨hone, hdown⟩ := howns.stop n
    obtain ⟨hsame, howns', hup⟩ := ih (p := p.stopWorker n) hone
    have hfirst : SameButWorkers p (p.stopWorker n) := ⟨_, _, rfl⟩
    refine ⟨hfirst.trans hsame, howns', fun m hm => ?_⟩
    obtain ⟨hthread, hmem⟩ := hup m hm
    -- the one that was stopped is down, and no stop brings it up
    have hmn : m ≠ n := by
      rintro rfl
      rw [workers_stopWorker, Function.update_self] at hthread
      exact hthread hdown
    rw [workers_stopWorker, Function.update_of_ne hmn] at hthread
    exact ⟨hthread, List.not_mem_cons_of_ne_of_not_mem hmn hmem⟩

theorem mem_stoppedWorkers {transport : HudTransport} :
    n ∈ stoppedWorkers cfg transport ↔ n ∈ sessionWorkers cfg transport := by
  unfold stoppedWorkers sessionWorkers
  cases cfg.hud <;> simp

/-- A worker that gets all it asks for is up. -/
theorem startWorkers_up {t : ℕ} (howns : Owns p.workers p.kernel)
    (hfresh : FreshFor p.kernel spawn ns) (hn : (p.workers n).thread = some t ∨
      (p.workers n).thread = none ∧ n ∈ ns ∧ (spawn n).thread = some t ∧
        (spawn n).eventfd.isSome) :
    ((ns.foldl (Process.startWorker spawn) p).workers n).thread = some t := by
  induction ns generalizing p with
  | nil =>
    rcases hn with hn | ⟨-, hmem, -⟩
    · exact hn
    · exact absurd hmem List.not_mem_nil
  | cons m ns ih =>
    have hm := hfresh.1 m List.mem_cons_self
    refine ih (howns.start m hm.1 hm.2) (hfresh.tail howns) ?_
    rw [workers_startWorker]
    by_cases hnm : n = m
    · -- its own turn: up already, or it is given both now
      subst hnm
      left
      rw [Function.update_self]
      rcases hn with hup | ⟨hdown, -, hthread, hfd⟩
      · unfold Worker.start
        rw [hup]
        exact hup
      · obtain ⟨fd, hfd⟩ := Option.isSome_iff_exists.mp hfd
        unfold Worker.start
        rw [hdown]
        cases n <;> simp [WorkerName.signal, StopSignal.open, hthread, hfd]
    · rw [Function.update_of_ne hnm]
      refine hn.imp_right fun ⟨hdown, hmem, hgiven⟩ => ⟨hdown, ?_, hgiven⟩
      exact (List.mem_cons.mp hmem).resolve_left hnm

/-! ## Between two calls -/

/-- The table with our callbacks in the slots that the settings ask for. -/
def substituted (shims : Shims) (cfg : Settings) (slots : CbList) : CbList :=
  let slots := if cfg.hud then slots.set kCbListNavSlot shims.ourNavCb else slots
  if cfg.useProtocolV16 then slots.set kCbListProjSlot shims.ourProjectionStatusCb else slots

/-- What the real function is to be called with. -/
def Returned.due (shims : Shims) (cfg : Settings) (enabled : Bool) (r : Returned) :
    Option CbList :=
  if enabled = true ∧ r.fn = .aap_create_session then r.given.map (substituted shims cfg)
  else r.given

/-- The call went to the real function, with the table that is due, and came back with what
that returned; or there was none to call. -/
def Returned.Transparent (shims : Shims) (cfg : Settings) (enabled : Bool) (r : Returned) : Prop :=
  (r.passed = some (r.due shims cfg enabled) ∧ r.ret = r.rc) ∨
    (r.passed = none ∧ r.ret = kUnresolved)

structure LifeInv (shims : Shims) (cfg : Settings) (p : Process) : Prop where
  owns    : Owns p.workers p.kernel
  up      : ∀ n, (p.workers n).thread ≠ none →
    p.sessionUp = true ∧ n ∈ sessionWorkers cfg cfg.hudTransport
  bound   : p.sessionUp = true → cfg.hud = true → p.transport = cfg.hudTransport
  enabled : p.sessionUp = true → p.enabled = true
  early   : p.selfGateDone = false → p.enabled = false ∧
    ∀ r ∈ p.log, r.fn = .aap_destroy_session
  wrapper : p.origProjCb ≠ some shims.ourProjectionStatusCb
  log     : ∀ r ∈ p.log, r.Transparent shims cfg p.enabled

theorem lifeInv_init : LifeInv shims cfg {} where
  owns := owns_empty
  up _ h := absurd rfl h
  bound h := nomatch h
  enabled h := nomatch h
  early _ := ⟨rfl, fun _ h => absurd h List.not_mem_nil⟩
  wrapper h := nomatch h
  log _ h := absurd h List.not_mem_nil

theorem LifeInv.resolve (h : LifeInv shims cfg p) (L : Loader ℕ ℕ) :
    LifeInv shims cfg (p.resolveRealOnce shims L) :=
  ⟨h.owns, h.up, h.bound, h.enabled, h.early, h.wrapper, h.log⟩

/-- The gate opens before the first table is passed on. -/
theorem LifeInv.gate (h : LifeInv shims cfg p) (mapped : Bool) :
    LifeInv shims cfg (p.oemSelfGate mapped) ∧ (p.oemSelfGate mapped).selfGateDone = true := by
  unfold Process.oemSelfGate
  split
  · rename_i hdone
    exact ⟨h, hdone⟩
  · rename_i hnot
    -- the first create: only destroys are in the log, and they get no table
    obtain ⟨hoff, hdestroy⟩ := h.early (Bool.eq_false_iff.mpr hnot)
    refine ⟨⟨h.owns, h.up, h.bound, fun hup => ?_, fun h => (nomatch h), h.wrapper,
      fun r hr => ?_⟩, rfl⟩
    · rw [h.enabled hup] at hoff
      exact nomatch hoff
    · have hdue : ∀ enabled, r.due shims cfg enabled = r.given := fun enabled =>
        if_neg fun h => RealFn.noConfusion (h.2.symm.trans (hdestroy r hr))
      have hold := h.log r hr
      unfold Returned.Transparent at hold ⊢
      rwa [hdue] at hold ⊢

theorem LifeInv.append (h : LifeInv shims cfg p) {r : Returned}
    (hdone : p.selfGateDone = true ∨ r.fn = .aap_destroy_session)
    (hr : r.Transparent shims cfg p.enabled) : LifeInv shims cfg { p with log := p.log ++ [r] } where
  owns := h.owns
  up := h.up
  bound := h.bound
  enabled := h.enabled
  early hnot := by
    refine ⟨(h.early hnot).1, fun r' hr' => ?_⟩
    rcases List.mem_append.mp hr' with hr' | hr'
    · exact (h.early hnot).2 r' hr'
    · rw [List.mem_singleton.mp hr']
      exact hdone.resolve_left fun h => nomatch (h.symm.trans hnot)
  wrapper := h.wrapper
  log r' hr' := by
    rcases List.mem_append.mp hr' with hr' | hr'
    · exact h.log r' hr'
    · rw [List.mem_singleton.mp hr']
      exact hr

theorem set_of_getElem? {slots : CbList} {i v : ℕ} (h : slots[i]? = some v) :
    slots.set i v = slots := by
  refine List.ext_getElem? fun j => ?_
  rw [List.getElem?_set]
  split
  · rename_i hij
    subst hij
    rw [h, if_pos (List.getElem?_eq_some_iff.mp h).1]
  · rfl

/-- The wrapper is in its slot, and it is not saved as what it wraps. -/
theorem bt16pair_spec {orig : Option ℕ} (horig : orig ≠ some shims.ourProjectionStatusCb)
    (cb : Option CbList) :
    (bt16pairPreAapCreateSession shims cb orig).1 =
        cb.map (fun slots => slots.set kCbListProjSlot shims.ourProjectionStatusCb) ∧
      (bt16pairPreAapCreateSession shims cb orig).2 ≠ some shims.ourProjectionStatusCb := by
  cases cb with
  | none => exact ⟨rfl, horig⟩
  | some slots =>
    unfold bt16pairPreAapCreateSession
    by_cases hslot : slots[kCbListProjSlot]? = some shims.ourProjectionStatusCb
    · -- a table of an earlier try: setting the slot again changes nothing
      simp only [if_pos hslot]
      exact ⟨congrArg some (set_of_getElem? hslot).symm, horig⟩
    · simp only [if_neg hslot]
      exact ⟨rfl, hslot⟩

theorem hook_fst (h : p.origProjCb ≠ some shims.ourProjectionStatusCb) (cb : Option CbList) :
    ∃ orig, orig ≠ some shims.ourProjectionStatusCb ∧
      (p.hook shims cfg cb).1 = { p with origProjCb := orig } := by
  unfold Process.hook
  dsimp only
  split
  · exact ⟨_, (bt16pair_spec h _).2, rfl⟩
  · exact ⟨p.origProjCb, h, rfl⟩

theorem hook_snd (h : p.origProjCb ≠ some shims.ourProjectionStatusCb) (cb : Option CbList) :
    (p.hook shims cfg cb).2 = if p.enabled then cb.map (substituted shims cfg) else cb := by
  have hsnd : (p.hook shims cfg cb).2 = if (p.enabled && cfg.useProtocolV16) = true then
      (if (p.enabled && cfg.hud) = true then hudPreAapCreateSession shims cb else cb).map
        (fun slots => slots.set kCbListProjSlot shims.ourProjectionStatusCb)
      else if (p.enabled && cfg.hud) = true then hudPreAapCreateSession shims cb else cb := by
    unfold Process.hook
    dsimp only
    split
    · exact (bt16pair_spec h _).1
    · rfl
  rw [hsnd]
  unfold substituted hudPreAapCreateSession
  cases p.enabled <;> cases cfg.hud <;> cases cfg.useProtocolV16 <;> cases cb <;> rfl

/-! ## A session starts and stops -/

/-- The transport that is bound makes a difference only with the HUD. -/
theorem sessionWorkers_bound {transport : HudTransport}
    (h : cfg.hud = true → transport = cfg.hudTransport) :
    sessionWorkers cfg transport = sessionWorkers cfg cfg.hudTransport := by
  unfold sessionWorkers
  cases hhud : cfg.hud with
  | false => rfl
  | true => rw [h hhud]

theorem LifeInv.rework {q : Process} {up : Bool} (h : LifeInv shims cfg p)
    (hsame : SameButWorkers p q) (howns : Owns q.workers q.kernel)
    (hup : ∀ n, (q.workers n).thread ≠ none →
      up = true ∧ n ∈ sessionWorkers cfg cfg.hudTransport)
    (hbound : up = true → cfg.hud = true → p.transport = cfg.hudTransport)
    (henabled : up = true → p.enabled = true) :
    LifeInv shims cfg { q with sessionUp := up } := by
  obtain ⟨_, _, rfl⟩ := hsame
  exact ⟨howns, hup, hbound, henabled, h.early, h.wrapper, h.log⟩

/-- With the transport bound the workers are started one after the other. -/
theorem startSession_eq (cfg : Settings) (spawn : WorkerName → Spawn) (p : Process) :
    ∃ transport, (cfg.hud = true → transport = cfg.hudTransport) ∧ p.startSession cfg spawn =
      { (sessionWorkers cfg cfg.hudTransport).foldl (Process.startWorker spawn)
          { p with transport := transport } with sessionUp := true } := by
  obtain ⟨transport, htransport, heq⟩ : ∃ transport,
      (cfg.hud = true → transport = cfg.hudTransport) ∧
        (if cfg.hud then { p with transport := cfg.hudTransport } else p) =
          { p with transport := transport } := by
    cases hhud : cfg.hud with
    | false => exact ⟨p.transport, fun h => (nomatch h), rfl⟩
    | true => exact ⟨cfg.hudTransport, fun _ => rfl, rfl⟩
  refine ⟨transport, htransport, ?_⟩
  unfold Process.startSession
  dsimp only
  rw [heq, sessionWorkers_bound htransport]

/-- **A session starts.** -/
theorem LifeInv.startSession (h : LifeInv shims cfg p) (henabled : p.enabled = true)
    (hdown : p.sessionUp = false)
    (hfresh : FreshFor p.kernel spawn (sessionWorkers cfg cfg.hudTransport)) :
    LifeInv shims cfg (p.startSession cfg spawn) := by
  obtain ⟨transport, htransport, heq⟩ := startSession_eq cfg spawn p
  have hp : LifeInv shims cfg { p with transport := transport } :=
    ⟨h.owns, h.up, fun hup => (nomatch hdown.symm.trans hup), h.enabled, h.early, h.wrapper, h.log⟩
  rw [heq]
  obtain ⟨hsame, howns, hup⟩ := startWorkers_spec (p := { p with transport := transport })
    h.owns hfresh
  refine hp.rework hsame howns (fun n hn => ⟨rfl, ?_⟩) (fun _ => htransport) fun _ => henabled
  exact (hup n hn).elim (fun hn => (h.up n hn).2) id

/-- **A session ends**, and no worker is left. -/
theorem LifeInv.stopSession (h : LifeInv shims cfg p) (hup : p.sessionUp = true) :
    LifeInv shims cfg (p.stopSession cfg) := by
  obtain ⟨hsame, howns, hleft⟩ := stopWorkers_spec h.owns (stoppedWorkers cfg p.transport)
  refine h.rework hsame howns (fun n hn => ?_) (fun h => (nomatch h)) fun h => (nomatch h)
  obtain ⟨hthread, hmem⟩ := hleft n hn
  -- a worker that is up is one that is stopped
  rw [mem_stoppedWorkers, sessionWorkers_bound (h.bound hup)] at hmem
  exact absurd (h.up n hthread).2 hmem

/-! ## The calls -/

theorem LifeInv.create {c : CreateCall} (h : LifeInv shims cfg p)
    (hfresh : FreshFor p.kernel c.spawn (sessionWorkers cfg cfg.hudTransport)) :
    LifeInv shims cfg (p.create shims cfg c) := by
  obtain ⟨hgate, hdone⟩ := (h.resolve c.loader).gate c.mapped
  have hkernel : ((p.resolveRealOnce shims c.loader).oemSelfGate c.mapped).kernel = p.kernel := by
    unfold Process.oemSelfGate
    split <;> rfl
  unfold Process.create
  dsimp only
  -- from here on only the gated process matters
  generalize (p.resolveRealOnce shims c.loader).oemSelfGate c.mapped = q at hgate hdone hkernel
  rw [← hkernel] at hfresh
  split
  · -- no real function
    exact hgate.append (.inl hdone) (.inr ⟨rfl, rfl⟩)
  · -- the hooks write the table that is logged
    obtain ⟨orig, horig, heq⟩ : ∃ orig, orig ≠ some shims.ourProjectionStatusCb ∧
        (q.hook shims cfg c.cbList).1 = { q with origProjCb := orig } :=
      hook_fst hgate.wrapper c.cbList
    have hpassed : (q.hook shims cfg c.cbList).2 = _ := hook_snd hgate.wrapper c.cbList
    rw [heq, hpassed]
    have hhooked : LifeInv shims cfg { q with origProjCb := orig } :=
      ⟨hgate.owns, hgate.up, hgate.bound, hgate.enabled, hgate.early, horig, hgate.log⟩
    have hlogged := hhooked.append (r := ⟨.aap_create_session, c.cbList,
      some (if q.enabled then c.cbList.map (substituted shims cfg) else c.cbList), c.rc, c.rc⟩)
      (.inl hdone) (.inl ⟨by unfold Returned.due; simp, rfl⟩)
    split
    · -- the real call failed or gave no session, or the shims are off
      exact hlogged
    · rename_i hgo
      push Not at hgo
      have hsession : LifeInv shims cfg { q with
          origProjCb := orig
          log := q.log ++ [⟨.aap_create_session, c.cbList,
            some (if q.enabled then c.cbList.map (substituted shims cfg) else c.cbList),
              c.rc, c.rc⟩]
          session := c.outHandle } :=
        ⟨hlogged.owns, hlogged.up, hlogged.bound, hlogged.enabled, hlogged.early,
          hlogged.wrapper, hlogged.log⟩
      split
      · exact hsession
      · rename_i hdown
        exact hsession.startSession (by simpa using hgo.2.1) (by simpa using hdown) hfresh

theorem LifeInv.destroy {c : DestroyCall} (h : LifeInv shims cfg p) :
    LifeInv shims cfg (p.destroy shims cfg c) ∧ (p.destroy shims cfg c).sessionUp = false := by
  -- a destroy has no table to substitute
  have hdue : ∀ passed rc ret enabled,
      Returned.due shims cfg enabled ⟨.aap_destroy_session, none, passed, rc, ret⟩ = none :=
    fun _ _ _ _ => if_neg fun h => RealFn.noConfusion h.2
  have hstopped : ∀ q, LifeInv shims cfg q → ∃ q',
      (if q.enabled then { (if q.sessionUp then q.stopSession cfg else q) with session := none }
        else q) = q' ∧ LifeInv shims cfg q' ∧ q'.sessionUp = false := by
    intro q hq
    refine ⟨_, rfl, ?_⟩
    split
    · split
      · rename_i hup
        have hstop := hq.stopSession hup
        exact ⟨⟨hstop.owns, hstop.up, hstop.bound, hstop.enabled, hstop.early, hstop.wrapper,
          hstop.log⟩, rfl⟩
      · rename_i hdown
        exact ⟨⟨hq.owns, hq.up, hq.bound, hq.enabled, hq.early, hq.wrapper, hq.log⟩,
          by simpa using hdown⟩
    · rename_i hoff
      -- with the shims off no session is up
      exact ⟨hq, Bool.eq_false_iff.mpr fun hup => hoff (hq.enabled hup)⟩
  obtain ⟨q, heq, hq, hdown⟩ := hstopped _ (h.resolve c.loader)
  unfold Process.destroy
  dsimp only
  rw [heq]
  split
  · exact ⟨hq.append (.inr rfl) (.inr ⟨rfl, rfl⟩), hdown⟩
  · exact ⟨hq.append (.inr rfl) (.inl ⟨by rw [hdue], rfl⟩), hdown⟩

/-- **A call keeps the invariant.** -/
theorem lifeInv_step {q : Process} {a : SessionCall} (h : LifeInv shims cfg p)
    (hfresh : Fresh cfg p a) (hstep : p.step shims cfg a = some q) : LifeInv shims cfg q := by
  cases a with
  | create c =>
    rw [← Option.some_inj.mp hstep]
    exact h.create hfresh
  | destroy c =>
    rw [← Option.some_inj.mp hstep]
    exact h.destroy.1

theorem lifeInv_of_reach (h : Run.Reach (Process.step shims cfg) (Fresh cfg) {} p) :
    LifeInv shims cfg p :=
  h.invariant lifeInv_init fun _ _ _ hinv hfresh hstep => lifeInv_step hinv hfresh hstep

/-- Nothing is left where no worker is up. -/
theorem LifeInv.nothing_left (h : LifeInv shims cfg p) (hdown : p.sessionUp = false) :
    p.kernel.fds = ∅ ∧ p.kernel.threads = ∅ := by
  have hnone : ∀ n, (p.workers n).thread = none := by
    intro n
    by_contra hn
    exact nomatch (hdown.symm.trans (h.up n hn).1)
  exact ⟨h.owns.fds.eq_empty fun n => h.owns.idle n (hnone n), h.owns.threads.eq_empty hnone⟩

/-- A create that succeeds with no session up, and to which nothing is refused. -/
def CreateCall.Succeeds (shims : Shims) (cfg : Settings) (p : Process) (c : CreateCall) : Prop :=
  ((p.resolveRealOnce shims c.loader).oemSelfGate c.mapped).enabled = true ∧
    p.sessionUp = false ∧ (p.resolveRealOnce shims c.loader).reals.real .aap_create_session ≠ none ∧
    c.rc = 0 ∧ c.outHandle ≠ none ∧ ∀ n ∈ sessionWorkers cfg cfg.hudTransport,
      (c.spawn n).thread.isSome ∧ (c.spawn n).eventfd.isSome

theorem create_of_succeeds {c : CreateCall} (hc : c.Succeeds shims cfg p) :
    ∃ q : Process, p.create shims cfg c = q.startSession cfg c.spawn ∧ q.workers = p.workers ∧
      q.kernel = p.kernel := by
  obtain ⟨henabled, hdown, hreal, hrc, hhandle, -⟩ := hc
  -- neither the gate nor the hooks touch a worker
  have hgate : ∀ q : Process, ∃ done enabled, q.oemSelfGate c.mapped =
      { q with selfGateDone := done, enabled := enabled } := by
    intro q
    unfold Process.oemSelfGate
    split
    · exact ⟨_, _, rfl⟩
    · exact ⟨_, _, rfl⟩
  have hhook : ∀ q : Process, ∃ orig, (q.hook shims cfg c.cbList).1 =
      { q with origProjCb := orig } := by
    intro q
    unfold Process.hook
    dsimp only
    split
    · exact ⟨_, rfl⟩
    · exact ⟨_, rfl⟩
  obtain ⟨done, enabled, hq⟩ := hgate (p.resolveRealOnce shims c.loader)
  obtain ⟨orig, heq⟩ := hhook
    { p.resolveRealOnce shims c.loader with selfGateDone := done, enabled := enabled }
  rw [hq] at henabled
  unfold Process.create
  dsimp only
  rw [hq]
  split
  · rename_i hnone
    exact absurd hnone hreal
  · rw [heq]
    have hgo : ¬(c.rc ≠ 0 ∨ enabled = false ∨ c.outHandle = none) := by
      rintro (h | h | h)
      · exact h hrc
      · exact nomatch (h.symm.trans henabled)
      · exact hhandle h
    rw [if_neg hgo, if_neg (by simpa [Process.resolveRealOnce] using hdown)]
    exact ⟨_, rfl, rfl, rfl⟩

def exampleShims : Shims := ⟨11, 12, 13, 14⟩

/-- Both functions are found in the library, and not behind the shims. -/
def exampleLoader : Loader ℕ ℕ where
  next name := if name = "aap_create_session" then some 11 else none
  noload path := if path = "/usr/lib/libaap_interface.so" then some 7 else none
  sym _ name := if name = "aap_create_session" then some 101 else some 102

/-- An eventfd for each worker but the receiver, and a thread. -/
def exampleSpawn : WorkerName → Spawn
  | .touch => ⟨some 3, some 21⟩
  | .tx _ => ⟨none, some 22⟩
  | .rx => ⟨none, some 23⟩
  | .playpause => ⟨some 4, none⟩

/-- The first create fails and is tried again, with the table as it was left. -/
def exampleCalls : List SessionCall :=
  [.create ⟨exampleLoader, true, some (.replicate 19 0), 0x104, none, exampleSpawn⟩,
    .create ⟨exampleLoader, true, some (((List.replicate 19 0).set 10 13).set 3 14), 0, some 5,
      exampleSpawn⟩,
    .destroy ⟨exampleLoader, 0⟩,
    .create ⟨exampleLoader, true, some (.replicate 19 9), 0, some 6, exampleSpawn⟩]

end OemAaMod
