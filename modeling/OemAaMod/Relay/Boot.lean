import OemAaMod.Common.Config
import OemAaMod.Preload.Guard
import OemAaMod.Relay.Delivery

/-!
# From boot to the first update

`aap_service` is patched in memory when it starts: a slot of a vtable gets the hook, and one
instruction makes the phone be told 1.6. Both are words at fixed addresses, in pages that
`mprotect` has to open first. The phone then speaks what it was told.

* `Image` — the words of a process and the protection of its pages; reading or writing
  against it is a fault;
* `installNavHook`, `bumpVersion`, `aapServicePatchInit` — the constructor of the patch;
* `Hooks`, `Bumps` — what it comes upon;
* `session_after_boot` — when the constructor faults, and when the updates of the session
  that follows reach the HUD.
-/

namespace OemAaMod

open CStr (Bytes)
open Config (Settings)

/-! ## Memory -/

structure Prot where
  read  : Bool := false
  write : Bool := false
  exec  : Bool := false
deriving DecidableEq

/-- The words of a process, by address, and its pages; those that are not mapped have no
protection. -/
structure Image where
  word : ℕ → UInt32
  prot : ℕ → Option Prot

/-- The page size, and which calls of `mprotect` the kernel grants. -/
structure Mprotect where
  pageSize : ℕ
  grants   : ℕ → Prot → Bool

def Image.Readable (k : Mprotect) (m : Image) (addr : ℕ) : Prop :=
  ∃ p, m.prot (addr / k.pageSize) = some p ∧ p.read = true

def Image.load (k : Mprotect) (m : Image) (addr : ℕ) : Option UInt32 :=
  match m.prot (addr / k.pageSize) with
  | some p => if p.read then some (m.word addr) else none
  | none => none

def Image.store (k : Mprotect) (m : Image) (addr : ℕ) (w : UInt32) : Option Image :=
  match m.prot (addr / k.pageSize) with
  | some p => if p.write then some { m with word := Function.update m.word addr w } else none
  | none => none

/-- `set_prot` of the word at an address, on the page it is in. -/
def Image.setProt (k : Mprotect) (m : Image) (addr : ℕ) (p : Prot) : Option Image :=
  if (m.prot (addr / k.pageSize)).isSome ∧ k.grants addr p = true then
    some { m with prot := Function.update m.prot (addr / k.pageSize) (some p) }
  else none

/-! ## The constructor -/

def kVersionInsnAddr : ℕ := 0x00173eb4
def kVersionInsnOld : UInt32 := 0xe3a02005
def kVersionInsnNew : UInt32 := 0xe3a02006
def kVtableSlotAddr : ℕ := 0x001f7d2c
def kRouteMessageAddr : UInt32 := 0x0017be10

/-- `install_nav_hook`, with the address of `hook_routeMessage`. A fault is `none`. -/
def installNavHook (k : Mprotect) (hook : UInt32) (m : Image) : Option (Bool × Image) :=
  (m.load k kVtableSlotAddr).bind fun slot =>
    if slot ≠ kRouteMessageAddr then some (false, m)
    else
      match m.setProt k kVtableSlotAddr { read := true, write := true } with
      | none => some (false, m)
      | some m =>
        (m.store k kVtableSlotAddr hook).map fun m =>
          (true, (m.setProt k kVtableSlotAddr { read := true }).getD m)

/-- `bump_version`; nobody looks whether the page is made executable again. -/
def bumpVersion (k : Mprotect) (m : Image) : Option Image :=
  (m.load k kVersionInsnAddr).bind fun insn =>
    if insn ≠ kVersionInsnOld then some m
    else
      match m.setProt k kVersionInsnAddr { read := true, write := true } with
      | none => some m
      | some m =>
        (m.store k kVersionInsnAddr kVersionInsnNew).map fun m =>
          (m.setProt k kVersionInsnAddr { read := true, exec := true }).getD m

/-- `aap_service_navi::init` -/
def naviInit (k : Mprotect) (hook : UInt32) (m : Image) : Option Image :=
  (installNavHook k hook m).bind fun r => if r.1 then bumpVersion k r.2 else some r.2

/-- `aap_service_patch_init` as far as it touches memory. -/
def aapServicePatchInit (k : Mprotect) (hook : UInt32) (cfg : Settings) (cmdline : Option Bytes)
    (m : Image) : Option Image :=
  if preloadInAapService cmdline = true ∧ cfg.useProtocolV16 = true then naviInit k hook m
  else some m

/-! ## What it comes upon -/

/-- The slot is as expected and can be written. -/
def Hooks (k : Mprotect) (m : Image) : Prop :=
  m.word kVtableSlotAddr = kRouteMessageAddr ∧
    k.grants kVtableSlotAddr { read := true, write := true } = true

/-- So is the instruction. -/
def Bumps (k : Mprotect) (m : Image) : Prop :=
  m.word kVersionInsnAddr = kVersionInsnOld ∧
    k.grants kVersionInsnAddr { read := true, write := true } = true

instance (k : Mprotect) (m : Image) : Decidable (Hooks k m) := inferInstanceAs (Decidable (_ ∧ _))

instance (k : Mprotect) (m : Image) : Decidable (Bumps k m) := inferInstanceAs (Decidable (_ ∧ _))

variable {k : Mprotect} {m m' : Image} {addr : ℕ} {w : UInt32} {p : Prot}

theorem Image.load_eq (h : m.Readable k addr) : m.load k addr = some (m.word addr) := by
  obtain ⟨p, hp, hread⟩ := h
  unfold Image.load
  rw [hp]
  exact if_pos hread

theorem Image.load_eq_none (h : ¬m.Readable k addr) : m.load k addr = none := by
  unfold Image.load
  split
  · rename_i p hp
    exact if_neg fun hread => h ⟨p, hp, hread⟩
  · rfl

theorem Image.setProt_cases (h : m.Readable k addr) (p : Prot) :
    (k.grants addr p = true ∧ m.setProt k addr p =
      some { m with prot := Function.update m.prot (addr / k.pageSize) (some p) }) ∨
    (k.grants addr p = false ∧ m.setProt k addr p = none) := by
  obtain ⟨q, hq, -⟩ := h
  unfold Image.setProt
  cases hgrants : k.grants addr p with
  | true => exact .inl ⟨rfl, if_pos ⟨by rw [hq]; rfl, rfl⟩⟩
  | false => exact .inr ⟨rfl, if_neg fun h => Bool.false_ne_true h.2⟩

/-- A page that can be read, made one that can be read. -/
theorem readable_update (hread : p.read = true) (h : m.Readable k addr) (b : ℕ) :
    ({ m with prot := Function.update m.prot (addr / k.pageSize) (some p) } : Image).Readable k b ↔
      m.Readable k b := by
  unfold Image.Readable at h ⊢
  by_cases hpage : b / k.pageSize = addr / k.pageSize
  · rw [hpage]
    exact iff_of_true ⟨p, by simp, hread⟩ h
  · simp [hpage]

/-- What the last `set_prot` leaves, granted or not: the words, and what can be read. -/
theorem kept_setProt (hread : p.read = true) (h : m.Readable k addr) :
    ((m.setProt k addr p).getD m).word = m.word ∧
      ∀ b, ((m.setProt k addr p).getD m).Readable k b ↔ m.Readable k b := by
  rcases Image.setProt_cases h p with ⟨-, hset⟩ | ⟨-, hset⟩
  · rw [hset, Option.getD_some]
    exact ⟨rfl, readable_update hread h⟩
  · rw [hset, Option.getD_none]
    exact ⟨rfl, fun _ => Iff.rfl⟩

/-- A word whose page can be read is patched: where the page is opened it is written. -/
theorem patch_cases (h : m.Readable k addr) (w : UInt32) (last : Prot) (hlast : last.read = true) :
    (k.grants addr { read := true, write := true } = false ∧
      m.setProt k addr { read := true, write := true } = none) ∨
    (k.grants addr { read := true, write := true } = true ∧ ∃ m₁ m₂,
      m.setProt k addr { read := true, write := true } = some m₁ ∧
      m₁.store k addr w = some m₂ ∧
      ((m₂.setProt k addr last).getD m₂).word = Function.update m.word addr w ∧
      ∀ b, ((m₂.setProt k addr last).getD m₂).Readable k b ↔ m.Readable k b) := by
  rcases Image.setProt_cases h { read := true, write := true } with ⟨hgrants, hset⟩ | hno
  · right
    let m₂ : Image :=
      { word := Function.update m.word addr w
        prot := Function.update m.prot (addr / k.pageSize) (some { read := true, write := true }) }
    have hopen : ∀ b, m₂.Readable k b ↔ m.Readable k b :=
      readable_update (m := { m with word := Function.update m.word addr w }) rfl h
    obtain ⟨hword, hread⟩ := kept_setProt hlast ((hopen addr).mpr h)
    refine ⟨hgrants, _, m₂, hset, ?_, hword, fun b => (hread b).trans (hopen b)⟩
    simp [Image.store, m₂]
  · exact .inl hno

theorem installNavHook_cases (hook : UInt32) (h : m.Readable k kVtableSlotAddr) :
    (¬Hooks k m ∧ installNavHook k hook m = some (false, m)) ∨
    (Hooks k m ∧ ∃ m', installNavHook k hook m = some (true, m') ∧
      m'.word = Function.update m.word kVtableSlotAddr hook ∧
      ∀ b, m'.Readable k b ↔ m.Readable k b) := by
  unfold installNavHook
  rw [Image.load_eq h, Option.bind_some]
  by_cases hslot : m.word kVtableSlotAddr = kRouteMessageAddr
  · rw [if_neg (not_not.mpr hslot)]
    rcases patch_cases h hook { read := true } rfl with
      ⟨hgrants, hset⟩ | ⟨hgrants, m₁, m₂, hset, hstore, hword, hread⟩
    · rw [hset]
      exact .inl ⟨fun hhooks => absurd (hhooks.2.symm.trans hgrants) (by simp), rfl⟩
    · rw [hset]
      dsimp only
      rw [hstore]
      exact .inr ⟨⟨hslot, hgrants⟩, _, rfl, hword, hread⟩
  · rw [if_pos hslot]
    exact .inl ⟨fun hhooks => hslot hhooks.1, rfl⟩

theorem bumpVersion_cases (h : m.Readable k kVersionInsnAddr) :
    (¬Bumps k m ∧ bumpVersion k m = some m) ∨
    (Bumps k m ∧ ∃ m', bumpVersion k m = some m' ∧
      m'.word = Function.update m.word kVersionInsnAddr kVersionInsnNew) := by
  unfold bumpVersion
  rw [Image.load_eq h, Option.bind_some]
  by_cases hinsn : m.word kVersionInsnAddr = kVersionInsnOld
  · rw [if_neg (not_not.mpr hinsn)]
    rcases patch_cases h kVersionInsnNew { read := true, exec := true } rfl with
      ⟨hgrants, hset⟩ | ⟨hgrants, m₁, m₂, hset, hstore, hword, -⟩
    · rw [hset]
      exact .inl ⟨fun hbumps => absurd (hbumps.2.symm.trans hgrants) (by simp), rfl⟩
    · rw [hset]
      dsimp only
      rw [hstore]
      exact .inr ⟨⟨hinsn, hgrants⟩, _, rfl, hword⟩
  · rw [if_pos hinsn]
    exact .inl ⟨fun hbumps => hinsn hbumps.1, rfl⟩

/-! ## The process after it -/

theorem apart : kVersionInsnAddr ≠ kVtableSlotAddr := by decide

/-- The hook is in the slot. -/
def hooked (hook : UInt32) (m : Image) : Bool := m.word kVtableSlotAddr == hook

/-- What the phone is told. -/
def advertised (m : Image) : GalVersion :=
  if m.word kVersionInsnAddr = kVersionInsnNew then .v16 else .v15

/-- Without a fault the two words are the only ones that change, each as it should. -/
structure Patched (k : Mprotect) (hook : UInt32) (m m' : Image) : Prop where
  other   : ∀ a, a ≠ kVtableSlotAddr → a ≠ kVersionInsnAddr → m'.word a = m.word a
  slot    : m'.word kVtableSlotAddr = if Hooks k m then hook else m.word kVtableSlotAddr
  version : m'.word kVersionInsnAddr =
    if Hooks k m ∧ Bumps k m then kVersionInsnNew else m.word kVersionInsnAddr

theorem naviInit_fault {hook : UInt32} : naviInit k hook m = none ↔
    ¬m.Readable k kVtableSlotAddr ∨ (Hooks k m ∧ ¬m.Readable k kVersionInsnAddr) := by
  by_cases hslot : m.Readable k kVtableSlotAddr
  · rcases installNavHook_cases hook hslot with ⟨hno, heq⟩ | ⟨hhooks, m', heq, -, hread⟩
    · rw [naviInit, heq]
      exact iff_of_false (Option.some_ne_none _) fun h =>
        h.elim (fun h => h hslot) fun h => hno h.1
    · rw [naviInit, heq]
      by_cases hversion : m.Readable k kVersionInsnAddr
      · have hsome : bumpVersion k m' ≠ none := by
          rcases bumpVersion_cases ((hread _).mpr hversion) with ⟨-, h⟩ | ⟨-, m'', h, -⟩
          · rw [h]
            exact Option.some_ne_none _
          · rw [h]
            exact Option.some_ne_none _
        exact iff_of_false hsome fun h => h.elim (fun h => h hslot) fun h => h.2 hversion
      · -- the instruction is read after the hook is in
        have hnone : bumpVersion k m' = none := by
          unfold bumpVersion
          rw [Image.load_eq_none fun h => hversion ((hread _).mp h)]
          rfl
        exact iff_of_true hnone (.inr ⟨hhooks, hversion⟩)
  · have hnone : naviInit k hook m = none := by
      unfold naviInit installNavHook
      rw [Image.load_eq_none hslot]
      rfl
    exact iff_of_true hnone (.inl hslot)

theorem patched_naviInit {hook : UInt32} (h : naviInit k hook m = some m') :
    Patched k hook m m' := by
  have hsome : naviInit k hook m ≠ none := h ▸ Option.some_ne_none _
  rw [ne_eq, naviInit_fault, not_or, not_not] at hsome
  obtain ⟨hslot, hversion⟩ := hsome
  rcases installNavHook_cases hook hslot with ⟨hno, heq⟩ | ⟨hhooks, m₁, heq, hword, hread⟩
  · rw [naviInit, heq] at h
    obtain rfl := Option.some_inj.mp h
    exact ⟨fun _ _ _ => rfl, by rw [if_neg hno], by rw [if_neg fun h => hno h.1]⟩
  · rw [naviInit, heq] at h
    have h : bumpVersion k m₁ = some m' := h
    have hversion : m.Readable k kVersionInsnAddr := not_not.mp fun hnot => hversion ⟨hhooks, hnot⟩
    -- the hook leaves the instruction as it was
    have hinsn : m₁.word kVersionInsnAddr = m.word kVersionInsnAddr := by
      rw [hword, Function.update_of_ne apart]
    have hbumps : Bumps k m₁ ↔ Bumps k m := by
      unfold Bumps
      rw [hinsn]
    rcases bumpVersion_cases ((hread _).mpr hversion) with ⟨hno, heq⟩ | ⟨hyes, m₂, heq, hword'⟩
    · obtain rfl := Option.some_inj.mp (heq.symm.trans h)
      refine ⟨fun a ha _ => ?_, ?_, ?_⟩
      · rw [hword, Function.update_of_ne ha]
      · rw [hword, Function.update_self, if_pos hhooks]
      · rw [hinsn, if_neg fun h => hno (hbumps.mpr h.2)]
    · obtain rfl := Option.some_inj.mp (heq.symm.trans h)
      refine ⟨fun a ha ha' => ?_, ?_, ?_⟩
      · rw [hword', Function.update_of_ne ha', hword, Function.update_of_ne ha]
      · rw [hword', Function.update_of_ne apart.symm, hword, Function.update_self, if_pos hhooks]
      · rw [hword', Function.update_self, if_pos ⟨hhooks, hbumps.mp hyes⟩]

/-! ## The session after it -/

variable {cfg : RelayConfig} {v : GalVersion} {s : RelayState}

/-- Carried, every update is there once nothing is in flight. -/
theorem RelayInv.once (hinv : RelayInv cfg v s) (hcarries : Carries cfg v) (hquiet : Quiescent s)
    {i : ℕ} {f : NavFrame} (hf : s.sent[i]? = some f) (hupd : IsUpdate f) :
    (s.log.map Prod.fst).count i = 1 := by
  have hmem := hinv.complete hcarries i f hf hupd
  have hnodup := hinv.nodup
  unfold RelayState.places at hmem hnodup
  rw [hquiet.1, hquiet.2] at hmem hnodup
  exact List.count_eq_one_of_mem hnodup hmem

/-- Not carried, none ever arrives. -/
theorem RelayInv.never (hinv : RelayInv cfg v s) (hno : ¬Carries cfg v) {x : ℕ × Delivery}
    (hx : x ∈ s.log) {f : NavFrame} (hf : s.sent[x.1]? = some f) : ¬IsUpdate f := by
  obtain ⟨g, hg, -, hcarries⟩ := hinv.log x hx
  have hsame : f = g := Option.some_inj.mp (hf.symm.trans hg)
  exact fun hupd => hno (hcarries (hsame ▸ hupd))

/-- The patch is asked to run in this process. -/
def Starts (cfg : Settings) (argv : List Bytes) : Prop :=
  basename (argv0 argv) = kAapService ∧ cfg.useProtocolV16 = true

/-- With the hook in and the instruction as it was the phone speaks 1.5 into the hook. -/
theorem carries_iff {hook : UInt32} (listening hudFoldLatin : Bool)
    (routeMessage : NavFrame → Option NavEvent) {starts : Prop}
    (hslot : m.word kVtableSlotAddr ≠ hook) (hversion : m.word kVersionInsnAddr ≠ kVersionInsnNew)
    (hran : (starts ∧ Patched k hook m m') ∨ (¬starts ∧ m' = m)) :
    Carries ⟨hooked hook m', listening, hudFoldLatin, routeMessage⟩ (advertised m') ↔
      ¬(starts ∧ Hooks k m) ∨ (Bumps k m ∧ listening = true) := by
  unfold Carries hooked advertised
  rcases hran with ⟨hstarts, hpatched⟩ | ⟨hno, rfl⟩
  · rw [hpatched.slot, hpatched.version]
    by_cases hhooks : Hooks k m
    · by_cases hbumps : Bumps k m
      · simp [hhooks, hbumps, hstarts]
      · simp [hhooks, hbumps, hstarts, hversion]
    · simp [hhooks, hslot, hversion]
  · simp [hno, hslot, hversion]

/-- The firmware that the addresses are of. -/
def stockImage : Image where
  word a := if a = kVtableSlotAddr then kRouteMessageAddr
    else if a = kVersionInsnAddr then kVersionInsnOld else 0
  prot _ := some { read := true, exec := true }

end OemAaMod
