import OemAaMod.Lib.Run
import Mathlib.Data.Fintype.Basic
import Mathlib.Tactic

/-!
# Sequence locks

One writer updates a block of memory cell by cell between two increments of a
counter; one reader copies the cells one by one, in any order, and keeps its copy
if the counter was even before and shows the same value after. Nothing blocks, and
any step of the one may fall between any two steps of the other.

The counter is read modulo a `period`, as a machine word is.

* `State`, `step` — writer and reader, access by access;
* `NoWrap` — the counter does not go once around during a read;
* `reads_whole` — then everything a reader keeps is the memory as the sections
  finished by then left it, nothing of an unfinished one, and the counter it keeps
  with it is the counter then;
* `undisturbed_read` — a read beside an idle writer succeeds, whatever the order of
  the copies;
* `torn_of_wrap` — without `NoWrap` a torn copy is kept.
-/

namespace Seqlock

variable {ι : Type*} {β : ι → Type*}

/-! ## Memory -/

section Memory

variable [DecidableEq ι]

/-- A store to one cell. -/
def store (mem : (i : ι) → β i) (st : Sigma β) : (i : ι) → β i := Function.update mem st.1 st.2

/-- Stores, one after the other. -/
def stores (mem : (i : ι) → β i) (todo : List (Sigma β)) : (i : ι) → β i := todo.foldl store mem

@[simp] theorem stores_nil (mem : (i : ι) → β i) : stores mem [] = mem := rfl

@[simp] theorem stores_cons (mem : (i : ι) → β i) (st : Sigma β) (todo : List (Sigma β)) :
    stores mem (st :: todo) = stores (store mem st) todo := rfl

theorem stores_append (mem : (i : ι) → β i) (todo todo' : List (Sigma β)) :
    stores mem (todo ++ todo') = stores (stores mem todo) todo' := List.foldl_append

theorem stores_of_not_mem {mem : (i : ι) → β i} {todo : List (Sigma β)} {i : ι}
    (h : i ∉ todo.map Sigma.fst) : stores mem todo i = mem i := by
  induction todo generalizing mem with
  | nil => rfl
  | cons st todo ih =>
    rw [List.map_cons, List.mem_cons, not_or] at h
    rw [stores_cons, ih h.2, store, Function.update_of_ne h.1]

/-- Stores to distinct cells: each cell holds what was stored to it. -/
theorem stores_of_mem {mem : (i : ι) → β i} {todo : List (Sigma β)} {st : Sigma β}
    (hnodup : (todo.map Sigma.fst).Nodup) (h : st ∈ todo) : stores mem todo st.1 = st.2 := by
  induction todo generalizing mem with
  | nil => exact absurd h List.not_mem_nil
  | cons st' todo ih =>
    rw [List.map_cons, List.nodup_cons] at hnodup
    rw [stores_cons]
    rcases List.mem_cons.mp h with rfl | h
    · rw [stores_of_not_mem hnodup.1, store, Function.update_self]
    · exact ih hnodup.2 h

/-- The same for a family of distinct cells. -/
theorem stores_map {κ : Type*} {g : κ → ι} (hg : Function.Injective g) {f : (k : κ) → β (g k)}
    {ks : List κ} (hnodup : ks.Nodup) {mem : (i : ι) → β i} {k : κ} (hk : k ∈ ks) :
    stores mem (ks.map fun k => ⟨g k, f k⟩) (g k) = f k := by
  have hcells : ((ks.map fun k => (⟨g k, f k⟩ : Sigma β)).map Sigma.fst) = ks.map g := by
    rw [List.map_map]
    rfl
  have hst : (⟨g k, f k⟩ : Sigma β) ∈ ks.map fun k => ⟨g k, f k⟩ := List.mem_map_of_mem hk
  exact stores_of_mem (hcells ▸ hnodup.map hg) hst

end Memory

/-! ## The protocol -/

inductive Writer (β : ι → Type*)
  | idle
  | writing (todo : List (Sigma β))   -- the counter is odd; the stores still to come

inductive Reader (β : ι → Type*)
  | looking                                             -- before the first load of the counter
  | copying (seq : ℕ) (copy : (i : ι) → Option (β i))   -- the value loaded, the cells copied

/-- What the reader keeps. -/
structure Kept (β : ι → Type*) where
  /-- The counter, as it was loaded after the copy. -/
  seq      : ℕ
  copy     : (i : ι) → β i
  /-- How many sections were finished by then, for the statements. -/
  finished : ℕ

structure State (β : ι → Type*) where
  mem    : (i : ι) → β i
  /-- What the counter began with and how often it was incremented. It shows this modulo
  the period. -/
  seq    : ℕ := 0
  writer : Writer β := .idle
  reader : Reader β := .looking
  /-- Oldest first. -/
  reads  : List (Kept β) := []
  /-- The memory after each finished section, oldest first. -/
  versions : List ((i : ι) → β i) := []

inductive Action (β : ι → Type*)
  | begin (todo : List (Sigma β))
  | store
  | finish
  | look
  | copy (i : ι)
  | check

variable [DecidableEq ι] [Fintype ι]

def step (period : ℕ) (s : State β) : Action β → Option (State β)
  | .begin todo =>
    match s.writer with
    | .idle => some { s with seq := s.seq + 1, writer := .writing todo }
    | .writing _ => none
  | .store =>
    match s.writer with
    | .writing (st :: todo) => some { s with mem := store s.mem st, writer := .writing todo }
    | _ => none
  | .finish =>
    match s.writer with
    | .writing [] =>
      some { s with seq := s.seq + 1, writer := .idle, versions := s.versions ++ [s.mem] }
    | _ => none
  | .look =>
    match s.reader with
    -- an odd counter makes the reader yield and look again
    | .looking =>
      if s.seq % period % 2 = 1 then some s
      else some { s with reader := .copying s.seq fun _ => none }
    | .copying .. => none
  | .copy i =>
    match s.reader with
    | .copying seq copy =>
      if copy i = none then
        some { s with reader := .copying seq (Function.update copy i (some (s.mem i))) }
      else none
    | .looking => none
  | .check =>
    match s.reader with
    | .copying seq copy =>
      if h : ∀ i, (copy i).isSome then
        if s.seq % period = seq % period then
          some { s with
            reader := .looking
            reads := s.reads ++
              [⟨s.seq % period, fun i => (copy i).get (h i), s.versions.length⟩] }
        else some { s with reader := .looking }
      else none
    | .looking => none

omit [DecidableEq ι] [Fintype ι] in
/-- How often the counter was incremented since the reader loaded it. -/
def State.elapsed (s : State β) : ℕ :=
  match s.reader with
  | .copying seq _ => s.seq - seq
  | .looking => 0

/-- Where the copy is checked, the counter is not a whole period past what it was
when the copying began. -/
def NoWrap (period : ℕ) (s : State β) : Action β → Prop
  | .check => s.elapsed < period
  | _ => True

instance (period : ℕ) (s : State β) : (a : Action β) → Decidable (NoWrap period s a)
  | .check => inferInstanceAs (Decidable (_ < _))
  | .begin _ | .store | .finish | .look | .copy _ => inferInstanceAs (Decidable True)

variable {period : ℕ} {mem₀ : (i : ι) → β i} {seq₀ : ℕ} {s s' : State β}

/-- What a step does to the memory and to the section under way. -/
theorem step_writer {a : Action β} (hstep : step period s a = some s') :
    (∃ todo, a = .begin todo ∧ s.writer = .idle ∧ s'.writer = .writing todo ∧ s'.mem = s.mem ∧
      s'.versions = s.versions) ∨
    (∃ st todo, a = .store ∧ s.writer = .writing (st :: todo) ∧ s'.writer = .writing todo ∧
      s'.mem = store s.mem st ∧ s'.versions = s.versions) ∨
    (a = .finish ∧ s.writer = .writing [] ∧ s'.writer = .idle ∧ s'.mem = s.mem ∧
      s'.versions = s.versions ++ [s.mem]) ∨
    ((∀ todo, a ≠ .begin todo) ∧ s'.writer = s.writer ∧ s'.mem = s.mem ∧
      s'.versions = s.versions) := by
  cases a with
  | begin todo =>
    cases hw : s.writer with
    | writing todo' => simp [step, hw] at hstep
    | idle =>
      simp only [step, hw, Option.some_inj] at hstep
      subst hstep
      exact .inl ⟨todo, rfl, rfl, rfl, rfl, rfl⟩
  | store =>
    rcases hw : s.writer with - | (- | ⟨st, todo⟩)
    · simp [step, hw] at hstep
    · simp [step, hw] at hstep
    · simp only [step, hw, Option.some_inj] at hstep
      subst hstep
      exact .inr (.inl ⟨st, todo, rfl, rfl, rfl, rfl, rfl⟩)
  | finish =>
    rcases hw : s.writer with - | (- | ⟨st, todo⟩)
    · simp [step, hw] at hstep
    · simp only [step, hw, Option.some_inj] at hstep
      subst hstep
      exact .inr (.inr (.inl ⟨rfl, rfl, rfl, rfl, rfl⟩))
    · simp [step, hw] at hstep
  | look =>
    simp only [step] at hstep
    split at hstep
    · split at hstep <;>
      · rw [Option.some_inj] at hstep
        subst hstep
        exact .inr (.inr (.inr ⟨fun _ h => (nomatch h), rfl, rfl, rfl⟩))
    · exact nomatch hstep
  | copy i =>
    simp only [step] at hstep
    split at hstep
    · split at hstep
      · rw [Option.some_inj] at hstep
        subst hstep
        exact .inr (.inr (.inr ⟨fun _ h => (nomatch h), rfl, rfl, rfl⟩))
      · exact nomatch hstep
    · exact nomatch hstep
  | check =>
    simp only [step] at hstep
    split at hstep
    · split at hstep
      · split at hstep <;>
        · rw [Option.some_inj] at hstep
          subst hstep
          exact .inr (.inr (.inr ⟨fun _ h => (nomatch h), rfl, rfl, rfl⟩))
      · exact nomatch hstep
    · exact nomatch hstep

/-! ## What is kept -/

/-- The counter is even, and the memory the newest version, unless a section is under
way; what was copied while the counter stood still is what the memory holds. -/
structure Inv (period : ℕ) (mem₀ : (i : ι) → β i) (seq₀ : ℕ) (s : State β) : Prop where
  even    : seq₀ % 2 = 0
  idle    : s.writer = .idle → s.seq = seq₀ + 2 * s.versions.length ∧
    (mem₀ :: s.versions)[s.versions.length]? = some s.mem
  writing : ∀ todo, s.writer = .writing todo → s.seq = seq₀ + 2 * s.versions.length + 1
  copying : ∀ seq copy, s.reader = .copying seq copy → seq % 2 = 0 ∧ seq ≤ s.seq ∧
    (s.seq = seq → ∀ i v, copy i = some v → v = s.mem i)
  kept    : ∀ r ∈ s.reads, (mem₀ :: s.versions)[r.finished]? = some r.copy ∧
    r.seq = (seq₀ + 2 * r.finished) % period
  ordered : s.reads.Pairwise fun r r' => r.finished ≤ r'.finished

omit [DecidableEq ι] [Fintype ι] in
theorem inv_init (heven : seq₀ % 2 = 0) : Inv period mem₀ seq₀ { mem := mem₀, seq := seq₀ } where
  even := heven
  idle _ := ⟨rfl, rfl⟩
  writing _ h := nomatch h
  copying _ _ h := nomatch h
  kept _ h := absurd h List.not_mem_nil
  ordered := .nil

omit [DecidableEq ι] [Fintype ι] in
/-- An odd counter belongs to a section, an even one to none. -/
theorem Inv.writer_idle (hinv : Inv period mem₀ seq₀ s) (heven : s.seq % 2 = 0) :
    s.writer = .idle := by
  cases hw : s.writer with
  | idle => rfl
  | writing todo =>
    have hodd := hinv.writing todo hw
    have hinit := hinv.even
    omega

omit [DecidableEq ι] [Fintype ι] in
/-- Later versions do not move the earlier ones. -/
theorem version_append {vs : List ((i : ι) → β i)} {v : (i : ι) → β i} {k : ℕ}
    (h : (mem₀ :: vs)[k]? = some v) (w : (i : ι) → β i) : (mem₀ :: (vs ++ [w]))[k]? = some v := by
  have hk : k < (mem₀ :: vs).length := (List.getElem?_eq_some_iff.mp h).1
  rw [← List.cons_append, List.getElem?_append_left hk, h]

/-- The steps of the writer. -/
theorem inv_writer (hinv : Inv period mem₀ seq₀ s) {a : Action β}
    (hstep : step period s a = some s') (ha : (∃ todo, a = .begin todo) ∨ a = .store ∨ a = .finish) :
    Inv period mem₀ seq₀ s' := by
  rcases ha with ⟨todo, rfl⟩ | rfl | rfl
  · cases hw : s.writer with
    | writing todo' => simp [step, hw] at hstep
    | idle =>
      simp only [step, hw, Option.some_inj] at hstep
      subst hstep
      have hseq := (hinv.idle hw).1
      refine ⟨hinv.even, fun h => (nomatch h), fun _ _ => congrArg (· + 1) hseq, ?_, hinv.kept,
        hinv.ordered⟩
      -- from here on the counter is past whatever the reader loaded
      intro seq copy hr
      obtain ⟨heven, hle, -⟩ := hinv.copying seq copy hr
      exact ⟨heven, Nat.le_succ_of_le hle, fun h => absurd h (by show s.seq + 1 ≠ seq; omega)⟩
  · cases hw : s.writer with
    | idle => simp [step, hw] at hstep
    | writing todo =>
      cases todo with
      | nil => simp [step, hw] at hstep
      | cons st todo =>
        simp only [step, hw, Option.some_inj] at hstep
        subst hstep
        have hseq := hinv.writing _ hw
        have hinit := hinv.even
        refine ⟨hinit, fun h => (nomatch h), fun _ _ => hseq, ?_, hinv.kept, hinv.ordered⟩
        intro seq copy hr
        obtain ⟨heven, hle, -⟩ := hinv.copying seq copy hr
        exact ⟨heven, hle, fun h => absurd h (by show s.seq ≠ seq; omega)⟩
  · cases hw : s.writer with
    | idle => simp [step, hw] at hstep
    | writing todo =>
      cases todo with
      | cons st todo => simp [step, hw] at hstep
      | nil =>
        simp only [step, hw, Option.some_inj] at hstep
        subst hstep
        have hseq := hinv.writing _ hw
        refine ⟨hinv.even, fun _ => ⟨?_, ?_⟩, fun _ h => (nomatch h), ?_,
          fun r hr => (hinv.kept r hr).imp_left (version_append · _), hinv.ordered⟩
        · show s.seq + 1 = seq₀ + 2 * (s.versions ++ [s.mem]).length
          rw [List.length_append, List.length_singleton]
          omega
        · show (mem₀ :: (s.versions ++ [s.mem]))[(s.versions ++ [s.mem]).length]? = some s.mem
          rw [List.length_append, List.length_singleton, List.getElem?_cons_succ,
            List.getElem?_append_right (Nat.le_refl _), Nat.sub_self, List.getElem?_cons_zero]
        · intro seq copy hr
          obtain ⟨heven, hle, -⟩ := hinv.copying seq copy hr
          exact ⟨heven, Nat.le_succ_of_le hle, fun h => absurd h (by show s.seq + 1 ≠ seq; omega)⟩

/-- The steps of the reader before it decides. -/
theorem inv_reader (hperiod : 2 ∣ period) (hinv : Inv period mem₀ seq₀ s) {a : Action β}
    (hstep : step period s a = some s') (ha : a = .look ∨ ∃ i, a = .copy i) :
    Inv period mem₀ seq₀ s' := by
  rcases ha with rfl | ⟨i, rfl⟩
  · cases hr : s.reader with
    | copying seq copy => simp [step, hr] at hstep
    | looking =>
      simp only [step, hr] at hstep
      by_cases hodd : s.seq % period % 2 = 1
      · rw [if_pos hodd, Option.some_inj] at hstep
        exact hstep ▸ hinv
      · rw [if_neg hodd, Option.some_inj] at hstep
        subst hstep
        rw [Nat.mod_mod_of_dvd _ hperiod] at hodd
        refine ⟨hinv.even, hinv.idle, hinv.writing, ?_, hinv.kept, hinv.ordered⟩
        intro seq copy h
        obtain ⟨rfl, rfl⟩ := Reader.copying.inj h
        exact ⟨by omega, Nat.le_refl _, fun _ _ _ h => nomatch h⟩
  · cases hr : s.reader with
    | looking => simp [step, hr] at hstep
    | copying seq copy =>
      simp only [step, hr] at hstep
      split at hstep
      · rw [Option.some_inj] at hstep
        subst hstep
        obtain ⟨heven, hle, hcopied⟩ := hinv.copying seq copy hr
        refine ⟨hinv.even, hinv.idle, hinv.writing, ?_, hinv.kept, hinv.ordered⟩
        intro seq' copy' h
        obtain ⟨rfl, rfl⟩ := Reader.copying.inj h
        refine ⟨heven, hle, fun hseq j v hv => ?_⟩
        by_cases hj : j = i
        · subst hj
          rw [Function.update_self, Option.some_inj] at hv
          exact hv.symm
        · rw [Function.update_of_ne hj] at hv
          exact hcopied hseq j v hv
      · exact nomatch hstep

/-- The reader's decision: unless the counter went around, it stood still, and the copy
is the newest version. -/
theorem inv_check (hinv : Inv period mem₀ seq₀ s)
    (hguard : NoWrap period s .check) (hstep : step period s .check = some s') :
    Inv period mem₀ seq₀ s' := by
  cases hr : s.reader with
  | looking => simp [step, hr] at hstep
  | copying seq copy =>
    obtain ⟨heven, hle, hcopied⟩ := hinv.copying seq copy hr
    have hwrap : s.seq - seq < period := by
      have helapsed : s.elapsed < period := hguard
      rwa [State.elapsed, hr] at helapsed
    simp only [step, hr] at hstep
    split at hstep
    · rename_i hall
      split at hstep
      · rename_i hsame
        rw [Option.some_inj] at hstep
        subst hstep
        -- equal modulo the period, and less than a period apart
        have hstill : s.seq = seq := by
          have hdvd : period ∣ s.seq - seq := (Nat.modEq_iff_dvd' hle).mp hsame.symm
          have hzero := Nat.eq_zero_of_dvd_of_lt hdvd hwrap
          omega
        have hidle := hinv.idle (hinv.writer_idle (by omega))
        have hcopy : (fun i => (copy i).get (hall i)) = s.mem := by
          funext i
          exact hcopied hstill i _ (Option.some_get (hall i)).symm
        refine ⟨hinv.even, hinv.idle, hinv.writing, fun _ _ h => (nomatch h), ?_, ?_⟩
        · intro r hmem
          rcases List.mem_append.mp hmem with hmem | hmem
          · exact hinv.kept r hmem
          · rw [List.mem_singleton.mp hmem, hcopy]
            exact ⟨hidle.2, congrArg (· % period) hidle.1⟩
        · refine List.pairwise_append.mpr ⟨hinv.ordered, List.pairwise_singleton _ _, ?_⟩
          intro r hmem r' hmem'
          rw [List.mem_singleton.mp hmem']
          have hlt := (List.getElem?_eq_some_iff.mp (hinv.kept r hmem).1).1
          exact Nat.le_of_lt_succ hlt
      · rw [Option.some_inj] at hstep
        subst hstep
        exact ⟨hinv.even, hinv.idle, hinv.writing, fun _ _ h => (nomatch h), hinv.kept,
          hinv.ordered⟩
    · exact nomatch hstep

theorem inv_step (hperiod : 2 ∣ period) {a : Action β} (hinv : Inv period mem₀ seq₀ s)
    (hguard : NoWrap period s a) (hstep : step period s a = some s') : Inv period mem₀ seq₀ s' := by
  cases a with
  | begin todo => exact inv_writer hinv hstep (.inl ⟨todo, rfl⟩)
  | store => exact inv_writer hinv hstep (.inr (.inl rfl))
  | finish => exact inv_writer hinv hstep (.inr (.inr rfl))
  | look => exact inv_reader hperiod hinv hstep (.inl rfl)
  | copy i => exact inv_reader hperiod hinv hstep (.inr ⟨i, rfl⟩)
  | check => exact inv_check hinv hguard hstep

/-- **Reads are whole.** Whatever is kept is the memory, and the counter, as they were after
the sections finished at that time; a later read never finds an earlier state. -/
theorem reads_whole (hperiod : 2 ∣ period) (heven : seq₀ % 2 = 0)
    (h : Run.Reach (step period) (NoWrap period) { mem := mem₀, seq := seq₀ } s) :
    (∀ r ∈ s.reads, (mem₀ :: s.versions)[r.finished]? = some r.copy ∧
      r.seq = (seq₀ + 2 * r.finished) % period) ∧
      s.reads.Pairwise fun r r' => r.finished ≤ r'.finished := by
  have hinv : Inv period mem₀ seq₀ s :=
    h.invariant (inv_init heven) fun _ _ _ hinv hguard hstep => inv_step hperiod hinv hguard hstep
  exact ⟨hinv.kept, hinv.ordered⟩

/-! ## Reads succeed -/

/-- Copying the cells `is` one by one beside a memory that stands still. -/
theorem replay_copies {guard : State β → Action β → Prop} [∀ s a, Decidable (guard s a)]
    {is : List ι} (hnodup : is.Nodup) {copy : (i : ι) → Option (β i)} {seq : ℕ}
    (hr : s.reader = .copying seq copy) (hnone : ∀ i ∈ is, copy i = none)
    (hguard : ∀ s i, guard s (.copy i)) :
    Run.replay (step period) guard s (is.map .copy) = some { s with
      reader := .copying seq fun i => if i ∈ is then some (s.mem i) else copy i } := by
  induction is generalizing s copy with
  | nil =>
    simp only [List.map_nil, Run.replay, List.not_mem_nil, if_false]
    rw [← hr]
  | cons i is ih =>
    rw [List.nodup_cons] at hnodup
    have hi : copy i = none := hnone i (List.mem_cons_self ..)
    have hstep : step period s (.copy i) = some { s with
        reader := .copying seq (Function.update copy i (some (s.mem i))) } := by
      simp [step, hr, hi]
    rw [List.map_cons, Run.replay, if_pos (hguard s i), hstep, Option.bind_some,
      ih hnodup.2 rfl fun j hj => ?_]
    · congr 3
      funext j
      by_cases hj : j = i
      · subst hj
        simp [hnodup.1]
      · simp [hj]
    · rw [Function.update_of_ne (by rintro rfl; exact hnodup.1 hj)]
      exact hnone j (List.mem_cons_of_mem _ hj)

/-- **Undisturbed reads succeed.** Beside an idle writer the reader keeps the memory after
one look, one copy of each cell and one check. -/
theorem undisturbed_read (hperiod : 2 ∣ period) (hinit : seq₀ % 2 = 0)
    (h : Run.Reach (step period) (NoWrap period) { mem := mem₀, seq := seq₀ } s)
    (hidle : s.writer = .idle) (hlooking : s.reader = .looking) {is : List ι}
    (hnodup : is.Nodup) (hall : ∀ i, i ∈ is) :
    Run.replay (step period) (fun _ _ => True) s (.look :: (is.map .copy ++ [.check])) =
      some { s with reads := s.reads ++ [⟨s.seq % period, s.mem, s.versions.length⟩] } := by
  have hinv : Inv period mem₀ seq₀ s :=
    h.invariant (inv_init hinit) fun _ _ _ hinv hguard hstep => inv_step hperiod hinv hguard hstep
  have heven : ¬s.seq % period % 2 = 1 := by
    have hseq := (hinv.idle hidle).1
    rw [Nat.mod_mod_of_dvd _ hperiod]
    omega
  have hlook : step period s .look = some { s with reader := .copying s.seq fun _ => none } := by
    simp [step, hlooking, heven]
  rw [Run.replay, if_pos trivial, hlook, Option.bind_some, Run.replay_append,
    replay_copies hnodup rfl (fun _ _ => rfl) fun _ _ => trivial, Option.bind_some, Run.replay,
    if_pos trivial]
  simp [step, hall, Run.replay, hlooking]

/-! ## The counter going around -/

/-- A section of two stores. -/
def twoStores (st st' : Sigma β) : List (Action β) := [.begin [st, st'], .store, .store, .finish]

theorem reach_twoStores {guard : State β → Action β → Prop} (hguard : ∀ s a, guard s a)
    {init : State β} (h : Run.Reach (step period) guard init s) (hidle : s.writer = .idle)
    (st st' : Sigma β) : Run.Reach (step period) guard init { s with
      mem := stores s.mem [st, st']
      seq := s.seq + 2
      writer := .idle
      versions := s.versions ++ [stores s.mem [st, st']] } := by
  have hbegin : step period s (.begin [st, st']) =
      some { s with seq := s.seq + 1, writer := .writing [st, st'] } := by
    simp [step, hidle]
  have h₁ := Run.Reach.next h hbegin (hguard _ _)
  have h₂ := Run.Reach.next (a := .store) h₁ rfl (hguard _ _)
  have h₃ := Run.Reach.next (a := .store) h₂ rfl (hguard _ _)
  exact Run.Reach.next (a := .finish) h₃ rfl (hguard _ _)

/-- Any number of sections that all store the same: the memory, and every version of it
but the first, holds what they store. -/
theorem reach_sections {guard : State β → Action β → Prop} (hguard : ∀ s a, guard s a)
    {init : State β} (h : Run.Reach (step period) guard init s) (hidle : s.writer = .idle)
    {st st' : Sigma β} (hne : st.1 ≠ st'.1) (n : ℕ) :
    ∃ t, Run.Reach (step period) guard init t ∧ t.writer = .idle ∧ t.seq = s.seq + 2 * n ∧
      t.reader = s.reader ∧ t.reads = s.reads ∧
      (0 < n → t.mem st.1 = st.2 ∧ t.mem st'.1 = st'.2) ∧
      ∀ v ∈ t.versions, v ∈ s.versions ∨ v st.1 = st.2 := by
  have hstored (mem : (i : ι) → β i) :
      stores mem [st, st'] st.1 = st.2 ∧ stores mem [st, st'] st'.1 = st'.2 := by
    have hnodup : (([st, st'] : List (Sigma β)).map Sigma.fst).Nodup := by simpa using hne
    exact ⟨stores_of_mem hnodup (by simp), stores_of_mem hnodup (by simp)⟩
  induction n with
  | zero =>
    exact ⟨s, h, hidle, rfl, rfl, rfl, fun h => absurd h (Nat.lt_irrefl 0), fun v hv => .inl hv⟩
  | succ n ih =>
    obtain ⟨t, ht, htidle, hseq, hreader, hreads, -, hversions⟩ := ih
    refine ⟨_, reach_twoStores hguard ht htidle st st', rfl, ?_, hreader, hreads,
      fun _ => hstored t.mem, fun v hv => ?_⟩
    · show t.seq + 2 = s.seq + 2 * (n + 1)
      omega
    · rcases List.mem_append.mp hv with hv | hv
      · exact hversions v hv
      · rw [List.mem_singleton.mp hv]
        exact .inr (hstored t.mem).1

/-- **`NoWrap` is needed.** If half a period of sections falls into a read, the reader
keeps a copy that the memory never held. -/
theorem torn_of_wrap {n : ℕ} (hn : 0 < n) {st st' : Sigma β} (hne : st.1 ≠ st'.1)
    (hst : st.2 ≠ mem₀ st.1) (hst' : st'.2 ≠ mem₀ st'.1) :
    ∃ s, Run.Reach (step (2 * n)) (fun _ _ => True) { mem := mem₀ } s ∧
      ∃ r ∈ s.reads, r.copy ∉ mem₀ :: s.versions := by
  have htrue : ∀ (s : State β) (a : Action β), True := fun _ _ => trivial
  -- the reader copies every cell but the second
  have hlook : Run.Reach (step (2 * n)) (fun _ _ => True) { mem := mem₀ }
      { mem := mem₀, reader := .copying 0 fun _ => none } :=
    .next (a := .look) .start (by simp [step]) trivial
  have hcopies : Run.replay (step (2 * n)) (fun _ _ => True)
      { mem := mem₀, reader := .copying 0 fun _ => none }
      ((Finset.univ.erase st'.1).toList.map .copy) = some _ :=
    replay_copies (Finset.nodup_toList _) rfl (fun _ _ => rfl) fun _ _ => trivial
  have hbefore := hlook.trans (Run.Reach.of_replay _ hcopies)
  -- then the counter goes around
  obtain ⟨t, ht, -, hseq, hreader, hreads, hmem, hversions⟩ :=
    reach_sections htrue hbefore rfl hne n
  obtain ⟨hmem, hmem'⟩ := hmem hn
  -- and the second cell is copied out of the last section
  have hcopy : step (2 * n) t (.copy st'.1) = some { t with
      reader := .copying 0 fun i => if i = st'.1 then some (t.mem i) else some (mem₀ i) } := by
    simp only [step, hreader]
    rw [if_pos (by simp)]
    congr 3
    funext i
    by_cases hi : i = st'.1
    · subst hi
      simp
    · simp [hi]
  have hall : ∀ i, (if i = st'.1 then some (t.mem i) else some (mem₀ i)).isSome := by
    intro i
    split
    · rfl
    · rfl
  have hcheck := Run.Reach.next (a := .check) (ht.next hcopy trivial)
    (by simp only [step]; rw [dif_pos hall, if_pos (by simp [hseq])]) trivial
  refine ⟨_, hcheck, _, List.mem_append_right _ (List.mem_singleton_self _), ?_⟩
  intro hold
  rcases List.mem_cons.mp hold with hold | hold
  · exact hst' (by simpa [hmem'] using congrFun hold st'.1)
  · rcases hversions _ hold with hold | hold
    · exact absurd hold List.not_mem_nil
    · exact hst (by simpa [hne] using hold.symm)

end Seqlock
