import OemAaMod.Lib.Seqlock
import OemAaMod.Hud.Transport
import Mathlib.Data.List.GetD
import Mathlib.Tactic.DeriveFintype

/-!
# The snapshot behind its sequence lock

`Hud.Transport` takes a producer's write to `g_snapshot` and the sender's read of it
as one step each. In the code both are many accesses, by two threads and without a
mutex: `strncpy`, `memset` and `memcpy` between the increments of `g_seq`. This module
has them access by access, over `Lib.Seqlock`.

* `NaviSnapshot.cells` — the struct as memory, `TxCall.stores` — the stores of a call;
* `lockedStep` — the producer and the reading sender, in any interleaving, which are runs of
  the lock, `lock_reach`;
* `stores_cells` — a call's stores make of the memory what `TxCall.write` makes of the
  snapshot;
* `locked_reads` — what the sender reads is `g_snapshot`, and `g_seq`, after some whole
  number of calls, unless `g_seq` goes around during the read.
-/

namespace OemAaMod

open CStr (CharBuf)

/-! ## The struct as memory -/

/-- What one access of the producers or of the sender loads or stores: a byte of an array
or a scalar member. -/
inductive SnapCell
  | roadName (i : Fin 64)
  | dirIcon
  | distanceDec
  | distanceUnit
  | lanes (i : Fin 8)
deriving DecidableEq, Fintype

def SnapCell.Val : SnapCell → Type
  | roadName _ | distanceUnit | lanes _ => UInt8
  | dirIcon => UInt32
  | distanceDec => Int32

def NaviSnapshot.cells (s : NaviSnapshot) : (c : SnapCell) → c.Val
  | .roadName i => s.roadName.bytes.getD i 0
  | .dirIcon => s.dirIcon
  | .distanceDec => s.distanceDec
  | .distanceUnit => s.distanceUnit
  | .lanes i => s.lanes.get i

def NaviSnapshot.ofCells (m : (c : SnapCell) → c.Val) : NaviSnapshot where
  roadName := ⟨List.ofFn fun i => m (.roadName i), List.length_ofFn⟩
  dirIcon := m .dirIcon
  distanceDec := m .distanceDec
  distanceUnit := m .distanceUnit
  lanes := Vector.ofFn fun i => m (.lanes i)

@[simp] theorem NaviSnapshot.ofCells_cells (s : NaviSnapshot) : ofCells s.cells = s := by
  obtain ⟨⟨bytes, hlength⟩, icon, dec, unit, lanes⟩ := s
  have hbytes : (List.ofFn fun i : Fin 64 => bytes.getD i 0) = bytes := by
    apply List.ext_getElem
    · rw [List.length_ofFn, hlength]
    · intro i h _
      rw [List.getElem_ofFn, List.getD_eq_getElem]
  have hlanes : (Vector.ofFn fun i => lanes.get i) = lanes := by
    apply Vector.ext
    intro i hi
    rw [Vector.getElem_ofFn]
    rfl
  simp only [ofCells, cells, hbytes, hlanes]

/-- A store. -/
abbrev SnapStore := Sigma SnapCell.Val

def roadStores (b : CharBuf 64) : List SnapStore :=
  (List.finRange 64).map fun i => ⟨.roadName i, b.bytes.getD i 0⟩

def lanesStores (codes : Vector UInt8 8) : List SnapStore :=
  (List.finRange 8).map fun i => ⟨.lanes i, codes.get i⟩

/-- The stores between `seqlock_begin` and `seqlock_end`, none for a START status, which
only wakes the sender. `memset` is a store to every member. -/
def TxCall.stores : TxCall → Option (List SnapStore)
  | status st =>
    if st ≠ 1 then
      some (roadStores (.zero 64) ++ [⟨.dirIcon, (0 : UInt32)⟩, ⟨.distanceDec, (0 : Int32)⟩,
        ⟨.distanceUnit, (0 : UInt8)⟩] ++ lanesStores (.replicate 8 0))
    else none
  | nextTurn road icon =>
    some ((match road with
      | some road => roadStores (.ofStrncpy 64 road)
      | none => [⟨.roadName 0, (0 : UInt8)⟩]) ++ [⟨.dirIcon, icon⟩])
  | distance dec unit => some [⟨.distanceDec, dec⟩, ⟨.distanceUnit, unit⟩]
  | lanes codes => some (lanesStores (codes.getD (.replicate 8 OEM_LANE_NONE)))

/-! ## Stores and the snapshot -/

open Seqlock (stores stores_append stores_cons stores_nil)

theorem stores_roadStores (s : NaviSnapshot) (b : CharBuf 64) :
    stores s.cells (roadStores b) = NaviSnapshot.cells { s with roadName := b } := by
  funext c
  by_cases hc : ∃ i, c = .roadName i
  · obtain ⟨i, rfl⟩ := hc
    exact Seqlock.stores_map (fun _ _ h => SnapCell.roadName.inj h) (List.nodup_finRange 64)
      (List.mem_finRange i)
  · rw [Seqlock.stores_of_not_mem]
    · cases c with
      | roadName i => exact absurd ⟨i, rfl⟩ hc
      | _ => rfl
    · simp only [roadStores, List.map_map, List.mem_map, not_exists, not_and]
      exact fun i _ h => hc ⟨i, h.symm⟩

theorem stores_lanesStores (s : NaviSnapshot) (codes : Vector UInt8 8) :
    stores s.cells (lanesStores codes) = NaviSnapshot.cells { s with lanes := codes } := by
  funext c
  by_cases hc : ∃ i, c = .lanes i
  · obtain ⟨i, rfl⟩ := hc
    exact Seqlock.stores_map (fun _ _ h => SnapCell.lanes.inj h) (List.nodup_finRange 8)
      (List.mem_finRange i)
  · rw [Seqlock.stores_of_not_mem]
    · cases c with
      | lanes i => exact absurd ⟨i, rfl⟩ hc
      | _ => rfl
    · simp only [lanesStores, List.map_map, List.mem_map, not_exists, not_and]
      exact fun i _ h => hc ⟨i, h.symm⟩

theorem store_dirIcon (s : NaviSnapshot) (icon : UInt32) :
    Seqlock.store s.cells ⟨.dirIcon, icon⟩ = NaviSnapshot.cells { s with dirIcon := icon } := by
  funext c
  cases c with
  | dirIcon => exact Function.update_self ..
  | _ => exact Function.update_of_ne (by simp) ..

theorem store_distanceDec (s : NaviSnapshot) (dec : Int32) :
    Seqlock.store s.cells ⟨.distanceDec, dec⟩ =
      NaviSnapshot.cells { s with distanceDec := dec } := by
  funext c
  cases c with
  | distanceDec => exact Function.update_self ..
  | _ => exact Function.update_of_ne (by simp) ..

theorem store_distanceUnit (s : NaviSnapshot) (unit : UInt8) :
    Seqlock.store s.cells ⟨.distanceUnit, unit⟩ =
      NaviSnapshot.cells { s with distanceUnit := unit } := by
  funext c
  cases c with
  | distanceUnit => exact Function.update_self ..
  | _ => exact Function.update_of_ne (by simp) ..

/-- `road_name[0] = 0`, everything behind it as it was. -/
theorem store_clearFirst (s : NaviSnapshot) :
    Seqlock.store s.cells ⟨.roadName 0, (0 : UInt8)⟩ =
      NaviSnapshot.cells { s with roadName := s.roadName.clearFirst } := by
  funext c
  cases c with
  | roadName i =>
    by_cases hi : i = 0
    · subst hi
      have hlength : 0 < s.roadName.bytes.length := by
        rw [s.roadName.length_eq]
        decide
      show (0 : UInt8) = (s.roadName.bytes.set 0 0).getD 0 0
      rw [List.getD_eq_getElem _ _ (by rwa [List.length_set]), List.getElem_set_self]
    · rw [Seqlock.store, Function.update_of_ne (by simpa using hi)]
      show s.roadName.bytes.getD i 0 = (s.roadName.bytes.set 0 0).getD i 0
      have hne : 0 ≠ i.val := fun h => hi (Fin.ext h.symm)
      rw [List.getD_eq_getElem?_getD, List.getD_eq_getElem?_getD, List.getElem?_set_ne hne]
  | _ => exact Function.update_of_ne (by simp) ..

/-- **The stores of a call are its write.** -/
theorem stores_cells (c : TxCall) (s : NaviSnapshot) :
    c.stores.map (stores s.cells) = (c.write s).map NaviSnapshot.cells := by
  cases c with
  | status st =>
    by_cases hst : st ≠ 1
    · rw [TxCall.stores, if_pos hst, TxCall.write, if_pos hst, Option.map_some, Option.map_some,
        stores_append, stores_append, stores_roadStores, stores_cons, store_dirIcon, stores_cons,
        store_distanceDec, stores_cons, store_distanceUnit, stores_nil, stores_lanesStores]
    · rw [TxCall.stores, if_neg hst, TxCall.write, if_neg hst]
      rfl
  | nextTurn road icon =>
    cases road with
    | some road =>
      simp only [TxCall.stores, TxCall.write, Option.map_some, stores_append, stores_cons,
        stores_nil, stores_roadStores, store_dirIcon]
    | none =>
      simp only [TxCall.stores, TxCall.write, Option.map_some, stores_append, stores_cons,
        stores_nil, store_clearFirst, store_dirIcon]
  | distance dec unit =>
    simp only [TxCall.stores, TxCall.write, Option.map_some, stores_cons, stores_nil,
      store_distanceDec, store_distanceUnit]
  | lanes codes =>
    simp only [TxCall.stores, TxCall.write, Option.map_some, stores_lanesStores]

/-! ## Producer and sender -/

/-- The shared memory of a live pipeline, with the producer and the sender at it. -/
structure LockedTx where
  lock  : Seqlock.State SnapCell.Val
  /-- The calls that opened a section, oldest first. -/
  calls : List TxCall := []

inductive LockedAction
  | call (c : TxCall)
  | store
  | finish
  | look
  | copy (c : SnapCell)
  | check
deriving DecidableEq

/-- `g_seq` is a `uint32_t`. -/
def seqPeriod : ℕ := 2 ^ 32

theorem two_dvd_seqPeriod : 2 ∣ seqPeriod := by decide

def lockedStep (s : LockedTx) : LockedAction → Option LockedTx
  | .call c =>
    match c.stores with
    | some todo =>
      (Seqlock.step seqPeriod s.lock (.begin todo)).map fun lock => ⟨lock, s.calls ++ [c]⟩
    | none => some s
  | .store => (Seqlock.step seqPeriod s.lock .store).map ({ s with lock := · })
  | .finish => (Seqlock.step seqPeriod s.lock .finish).map ({ s with lock := · })
  | .look => (Seqlock.step seqPeriod s.lock .look).map ({ s with lock := · })
  | .copy c => (Seqlock.step seqPeriod s.lock (.copy c)).map ({ s with lock := · })
  | .check => (Seqlock.step seqPeriod s.lock .check).map ({ s with lock := · })

/-- Fewer than 2^31 calls fall into one read. -/
def NoSeqWrap (s : LockedTx) : LockedAction → Prop
  | .check => s.lock.elapsed < seqPeriod
  | _ => True

instance (s : LockedTx) : (a : LockedAction) → Decidable (NoSeqWrap s a)
  | .check => inferInstanceAs (Decidable (_ < _))
  | .call _ | .store | .finish | .look | .copy _ => inferInstanceAs (Decidable True)

/-- The pipeline goes live over whatever `g_snapshot` and `g_seq` hold then. -/
def lockedInit (t : Tx) : LockedTx :=
  { lock := { mem := t.snapshot.cells, seq := t.seq.toNat } }

/-- The transport after the calls, one step each. -/
def Tx.calls (t : Tx) (cs : List TxCall) : Tx := cs.foldl Tx.call t

/-- The lock's share of a step. -/
theorem lockedStep_lock {s s' : LockedTx} {a : LockedAction} (hstep : lockedStep s a = some s') :
    (s' = s ∧ ∃ c, a = .call c) ∨
    (∃ c todo, a = .call c ∧ c.stores = some todo ∧ s'.calls = s.calls ++ [c] ∧
      Seqlock.step seqPeriod s.lock (.begin todo) = some s'.lock) ∨
    (s'.calls = s.calls ∧ ∃ b, Seqlock.step seqPeriod s.lock b = some s'.lock ∧
      (∀ todo, b ≠ .begin todo) ∧ (b = .check → a = .check)) := by
  cases a with
  | call c =>
    cases hc : c.stores with
    | none =>
      simp only [lockedStep, hc, Option.some_inj] at hstep
      exact .inl ⟨hstep.symm, c, rfl⟩
    | some todo =>
      simp only [lockedStep, hc] at hstep
      obtain ⟨lock, hlock, rfl⟩ := Option.map_eq_some_iff.mp hstep
      exact .inr (.inl ⟨c, todo, rfl, hc, rfl, hlock⟩)
  | store =>
    obtain ⟨lock, hlock, rfl⟩ := Option.map_eq_some_iff.mp hstep
    exact .inr (.inr ⟨rfl, _, hlock, by simp, by simp⟩)
  | finish =>
    obtain ⟨lock, hlock, rfl⟩ := Option.map_eq_some_iff.mp hstep
    exact .inr (.inr ⟨rfl, _, hlock, by simp, by simp⟩)
  | look =>
    obtain ⟨lock, hlock, rfl⟩ := Option.map_eq_some_iff.mp hstep
    exact .inr (.inr ⟨rfl, _, hlock, by simp, by simp⟩)
  | copy c =>
    obtain ⟨lock, hlock, rfl⟩ := Option.map_eq_some_iff.mp hstep
    exact .inr (.inr ⟨rfl, _, hlock, by simp, by simp⟩)
  | check =>
    obtain ⟨lock, hlock, rfl⟩ := Option.map_eq_some_iff.mp hstep
    exact .inr (.inr ⟨rfl, _, hlock, by simp, fun _ => rfl⟩)

/-- The transport runs its lock by the lock's own steps. -/
theorem lock_reach {t : Tx} {s : LockedTx}
    (h : Run.Reach lockedStep NoSeqWrap (lockedInit t) s) :
    Run.Reach (Seqlock.step seqPeriod) (Seqlock.NoWrap seqPeriod) (lockedInit t).lock s.lock := by
  induction h with
  | start => exact .start
  | next _ hstep hguard ih =>
    rcases lockedStep_lock hstep with ⟨rfl, -⟩ | ⟨c, todo, -, -, -, hlock⟩ |
      ⟨-, b, hlock, -, hcheck⟩
    · exact ih
    · exact .next ih hlock trivial
    · refine .next ih hlock ?_
      cases b with
      | check =>
        obtain rfl := hcheck rfl
        exact hguard
      | _ => trivial

/-! ## What the sender reads -/

/-- The sections of the lock are the calls. -/
structure LockedInv (t : Tx) (s : LockedTx) : Prop where
  idle     : s.lock.writer = .idle → s.calls.length = s.lock.versions.length ∧
    s.lock.mem = (t.calls s.calls).snapshot.cells
  writing  : ∀ todo, s.lock.writer = .writing todo →
    s.calls.length = s.lock.versions.length + 1 ∧
    stores s.lock.mem todo = (t.calls s.calls).snapshot.cells
  versions : ∀ k v, (t.snapshot.cells :: s.lock.versions)[k]? = some v →
    v = (t.calls (s.calls.take k)).snapshot.cells
  wrote    : ∀ c ∈ s.calls, c.stores ≠ none

theorem Tx.calls_concat (t : Tx) (cs : List TxCall) (c : TxCall) :
    t.calls (cs ++ [c]) = (t.calls cs).call c := List.foldl_concat ..

theorem Tx.active_call (t : Tx) (c : TxCall) : (t.call c).active = t.active := by
  unfold Tx.call
  split
  · split <;> rfl
  · rfl

theorem Tx.active_calls (t : Tx) (cs : List TxCall) : (t.calls cs).active = t.active := by
  induction cs using List.reverseRecOn with
  | nil => rfl
  | append_singleton cs c ih => rw [calls_concat, active_call, ih]

/-- On a live pipeline a call that opens a section writes and counts. -/
theorem Tx.call_of_stores {t : Tx} (hactive : t.active = true) {c : TxCall}
    {todo : List SnapStore} (hc : c.stores = some todo) :
    (t.call c).snapshot.cells = stores t.snapshot.cells todo ∧ (t.call c).seq = t.seq + 2 := by
  have hwrite := stores_cells c t.snapshot
  rw [hc, Option.map_some] at hwrite
  obtain ⟨s, hs, hcells⟩ := Option.map_eq_some_iff.mp hwrite.symm
  rw [Tx.call, if_pos hactive, hs]
  exact ⟨hcells, rfl⟩

theorem Tx.seq_calls {t : Tx} (hactive : t.active = true) {cs : List TxCall}
    (hwrote : ∀ c ∈ cs, c.stores ≠ none) :
    (t.calls cs).seq = t.seq + 2 * UInt32.ofNat cs.length := by
  induction cs using List.reverseRecOn with
  | nil => simp [Tx.calls]
  | append_singleton cs c ih =>
    obtain ⟨todo, hc⟩ := Option.ne_none_iff_exists'.mp (hwrote c (by simp))
    rw [calls_concat, (call_of_stores ((active_calls t cs).trans hactive) hc).2,
      ih fun c hc => hwrote c (List.mem_append_left _ hc), List.length_append,
      List.length_singleton, UInt32.ofNat_add]
    grind

theorem lockedInv_step {t : Tx} (hactive : t.active = true) {s s' : LockedTx} {a : LockedAction}
    (hinv : LockedInv t s) (hstep : lockedStep s a = some s') : LockedInv t s' := by
  obtain ⟨hidle, hwriting, hversions, hwrote⟩ := hinv
  rcases lockedStep_lock hstep with ⟨rfl, -⟩ | ⟨c, todo, rfl, hc, hcalls, hlockStep⟩ |
    ⟨hcalls, b, hlockStep, hbegin, -⟩
  · exact ⟨hidle, hwriting, hversions, hwrote⟩
  · -- a call opens its section: its write is still to come
    rcases Seqlock.step_writer hlockStep with ⟨todo', heq, hw, hw', hmem, hvs⟩ |
      ⟨st, todo', heq, -⟩ | ⟨heq, -⟩ | ⟨hne, -⟩
    · obtain rfl := Seqlock.Action.begin.inj heq
      obtain ⟨hlength, hcells⟩ := hidle hw
      have hcall := Tx.call_of_stores ((Tx.active_calls t s.calls).trans hactive) hc
      refine ⟨fun h => ?_, fun todo'' h => ?_, fun k v hv => ?_, ?_⟩
      · rw [hw'] at h
        exact nomatch h
      · rw [hw'] at h
        obtain rfl := Seqlock.Writer.writing.inj h
        rw [hcalls, hvs, hmem, hcells, List.length_append, List.length_singleton, hlength,
          Tx.calls_concat, hcall.1]
        exact ⟨rfl, rfl⟩
      · rw [hvs] at hv
        have hk : k ≤ s.calls.length := by
          have hlt := (List.getElem?_eq_some_iff.mp hv).1
          rw [List.length_cons] at hlt
          omega
        rw [hcalls, List.take_append_of_le_length hk]
        exact hversions k v hv
      · rw [hcalls]
        intro c' hc'
        rcases List.mem_append.mp hc' with hc' | hc'
        · exact hwrote c' hc'
        · rw [List.mem_singleton.mp hc', hc]
          exact Option.some_ne_none _
    · exact nomatch heq
    · exact nomatch heq
    · exact absurd rfl (hne todo)
  · rcases Seqlock.step_writer hlockStep with ⟨todo', rfl, -⟩ |
      ⟨st, todo, rfl, hw, hw', hmem, hvs⟩ | ⟨rfl, hw, hw', hmem, hvs⟩ | ⟨-, hw', hmem, hvs⟩
    · exact absurd rfl (hbegin todo')
    · obtain ⟨hlength, hcells⟩ := hwriting _ hw
      refine ⟨fun h => ?_, fun todo' h => ?_, ?_, ?_⟩
      · rw [hw'] at h
        exact nomatch h
      · rw [hw'] at h
        obtain rfl := Seqlock.Writer.writing.inj h
        rw [hcalls, hvs, hmem]
        exact ⟨hlength, hcells⟩
      · rw [hcalls, hvs]
        exact hversions
      · rw [hcalls]
        exact hwrote
    · -- the section's memory becomes the newest version
      obtain ⟨hlength, hcells⟩ := hwriting _ hw
      rw [stores_nil] at hcells
      refine ⟨fun _ => ?_, fun todo' h => ?_, fun k v hv => ?_, ?_⟩
      · rw [hcalls, hvs, hmem, List.length_append, List.length_singleton]
        exact ⟨hlength, hcells⟩
      · rw [hw'] at h
        exact nomatch h
      · rw [hvs, ← List.cons_append, List.getElem?_append] at hv
        rw [hcalls]
        split at hv
        · exact hversions k v hv
        · rename_i hk
          rw [List.length_cons] at hk hv
          rw [List.getElem?_singleton] at hv
          split at hv
          · rw [← Option.some_inj.mp hv, List.take_of_length_le (by omega), hcells]
          · exact nomatch hv
      · rw [hcalls]
        exact hwrote
    · refine ⟨fun h => ?_, fun todo h => ?_, ?_, ?_⟩
      · rw [hw'] at h
        rw [hcalls, hvs, hmem]
        exact hidle h
      · rw [hw'] at h
        rw [hcalls, hvs, hmem]
        exact hwriting todo h
      · rw [hcalls, hvs]
        exact hversions
      · rw [hcalls]
        exact hwrote

/-- **The sender reads whole calls.** What it takes for `g_snapshot` is what `g_snapshot`
was after the calls finished when it loaded `g_seq` for the second time, the counter that it
keeps with it is the one after these calls, and it never goes back to fewer calls. -/
theorem locked_reads {t : Tx} (hactive : t.active = true) (heven : t.seq.toNat % 2 = 0)
    {s : LockedTx} (h : Run.Reach lockedStep NoSeqWrap (lockedInit t) s) :
    (∀ r ∈ s.lock.reads,
      NaviSnapshot.ofCells r.copy = (t.calls (s.calls.take r.finished)).snapshot ∧
      UInt32.ofNat r.seq = (t.calls (s.calls.take r.finished)).seq) ∧
      s.lock.reads.Pairwise fun r r' => r.finished ≤ r'.finished := by
  have hinv : LockedInv t s := by
    refine h.invariant ?_ fun _ _ _ hinv _ hstep => lockedInv_step hactive hinv hstep
    refine ⟨fun _ => ⟨rfl, rfl⟩, fun _ h => (nomatch h), fun k v hv => ?_,
      fun _ h => absurd h List.not_mem_nil⟩
    rw [show (t.snapshot.cells :: (lockedInit t).lock.versions)[k]? =
      [t.snapshot.cells][k]? from rfl, List.getElem?_singleton] at hv
    split at hv
    · rw [← Option.some_inj.mp hv, show (lockedInit t).calls = [] from rfl, List.take_nil]
      rfl
    · exact nomatch hv
  obtain ⟨hwhole, hordered⟩ := Seqlock.reads_whole two_dvd_seqPeriod heven (lock_reach h)
  refine ⟨fun r hr => ?_, hordered⟩
  obtain ⟨hkept, hseq⟩ := hwhole r hr
  -- a read saw no more sections than there were calls
  have hle : r.finished ≤ s.calls.length := by
    have hlt := (List.getElem?_eq_some_iff.mp hkept).1
    rw [List.length_cons] at hlt
    cases hw : s.lock.writer with
    | idle => have hlength := (hinv.idle hw).1; omega
    | writing todo => have hlength := (hinv.writing todo hw).1; omega
  constructor
  · rw [hinv.versions r.finished r.copy hkept, NaviSnapshot.ofCells_cells]
  · -- the load shows the count modulo 2^32
    have hshown : UInt32.ofNat ((t.seq.toNat + 2 * r.finished) % seqPeriod) =
        t.seq + 2 * UInt32.ofNat r.finished := by
      apply UInt32.toNat_inj.mp
      simp [seqPeriod, UInt32.toNat_ofNat']
    rw [hseq, hshown, Tx.seq_calls hactive fun c hc => hinv.wrote c (List.mem_of_mem_take hc),
      List.length_take, Nat.min_eq_left hle]

/-- A distance arrives between the sender's copies, and it reads again. -/
def distanceDuringRead : List LockedAction :=
  let cells : List SnapCell := (List.finRange 64).map SnapCell.roadName ++
    [.dirIcon, .distanceDec, .distanceUnit] ++ (List.finRange 8).map SnapCell.lanes
  let copies := cells.map LockedAction.copy
  [.look, .call (.distance 1200 1), .store] ++ copies ++ [.store, .finish, .check, .look] ++
    copies ++ [.check]

/-- The counter is one call from going around. -/
theorem locked_reads_again : ∃ s,
    Run.Reach lockedStep NoSeqWrap (lockedInit { active := true, seq := 0xFFFFFFFE }) s ∧
      s.lock.reads.map Seqlock.Kept.finished = [1] ∧ ∀ r ∈ s.lock.reads,
        NaviSnapshot.ofCells r.copy =
          (Tx.calls { active := true, seq := 0xFFFFFFFE } (s.calls.take r.finished)).snapshot ∧
        UInt32.ofNat r.seq =
          (Tx.calls { active := true, seq := 0xFFFFFFFE } (s.calls.take r.finished)).seq := by
  obtain ⟨s, hs, hread⟩ : ∃ s,
      Run.Reach lockedStep NoSeqWrap (lockedInit { active := true, seq := 0xFFFFFFFE }) s ∧
      s.lock.reads.map Seqlock.Kept.finished = [1] :=
    Run.Reach.exists_of_replay distanceDuringRead (by decide +kernel)
  exact ⟨s, hs, hread, (locked_reads rfl (by decide) hs).1⟩

end OemAaMod
