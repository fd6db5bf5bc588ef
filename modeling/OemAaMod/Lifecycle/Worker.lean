import OemAaMod.Lib.Holding

/-!
# Worker threads and their stop signals

How the modules of `blmjciaapa` start and stop their threads: `touch.cpp`, `playpause.cpp`,
`nav16_rx.cpp` and the two transports.

* `Kernel` — the descriptors and threads that they hold;
* `Worker.start`, `Worker.stop` — one worker, with the calls that can fail;
* `Owns` — a set of workers holds what is open, each its own.
-/

namespace OemAaMod

open Holding (Holds)

/-- What the kernel keeps for the workers. `misused` is set once something is closed or joined
that is not there. -/
structure Kernel where
  fds     : Finset ℕ := ∅
  threads : Finset ℕ := ∅
  misused : Bool := false
deriving DecidableEq

def Kernel.closeFd (k : Kernel) (fd : ℕ) : Kernel :=
  { k with fds := k.fds.erase fd, misused := k.misused || decide (fd ∉ k.fds) }

def Kernel.join (k : Kernel) (t : ℕ) : Kernel :=
  { k with threads := k.threads.erase t, misused := k.misused || decide (t ∉ k.threads) }

/-- How a worker is told to stop. -/
inductive StopSignal
  /-- A flag and a condition variable. -/
  | condition
  /-- An eventfd, without which the worker is not started. -/
  | eventfd
  /-- An eventfd, without which it polls. -/
  | eventfdOrPoll
deriving DecidableEq

/-- `g_stop_fd`, and `g_thread` while `g_thread_up`. -/
structure Worker where
  stopFd : Option ℕ := none
  thread : Option ℕ := none
deriving DecidableEq

/-- What `eventfd` and `pthread_create` give a worker. -/
structure Spawn where
  eventfd : Option ℕ := none
  thread  : Option ℕ := none
deriving DecidableEq

/-- Only the workers with an eventfd ask for one. -/
def StopSignal.open (signal : StopSignal) (a : Spawn) : Option ℕ :=
  match signal with
  | .condition => none
  | _ => a.eventfd

def Worker.start (signal : StopSignal) (a : Spawn) (w : Worker) (k : Kernel) : Worker × Kernel :=
  match w.thread with
  | some _ => (w, k)
  | none =>
    match signal.open a with
    | some fd =>
      let k := { k with fds := insert fd k.fds }
      match a.thread with
      | some t => (⟨some fd, some t⟩, { k with threads := insert t k.threads })
      | none => (⟨none, none⟩, k.closeFd fd)
    | none =>
      if signal = .eventfd then (⟨none, none⟩, k)
      else
        match a.thread with
        | some t => (⟨none, some t⟩, { k with threads := insert t k.threads })
        | none => (⟨none, none⟩, k)

def Worker.stop (w : Worker) (k : Kernel) : Worker × Kernel :=
  match w.thread with
  | none => (w, k)
  | some t =>
    let k := k.join t
    match w.stopFd with
    | some fd => (⟨none, none⟩, k.closeFd fd)
    | none => (⟨none, none⟩, k)

/-! ## What a worker does to the kernel -/

variable {ι : Type*} {ws : ι → Worker} {k : Kernel} {i j : ι} {signal : StopSignal} {a : Spawn}
variable {w : Worker}

/-- What is open is what the workers hold, each its own; a worker without a thread holds
nothing. -/
structure Owns (ws : ι → Worker) (k : Kernel) : Prop where
  fds        : Holds (fun i => (ws i).stopFd) k.fds
  threads    : Holds (fun i => (ws i).thread) k.threads
  idle       : ∀ i, (ws i).thread = none → (ws i).stopFd = none
  notMisused : k.misused = false

theorem owns_empty : Owns (fun _ : ι => ({} : Worker)) {} where
  fds := Holding.holds_empty
  threads := Holding.holds_empty
  idle _ _ := rfl
  notMisused := rfl

/-- The worker stays, or it is up with what it was given. -/
theorem Worker.start_cases (hidle : w.thread = none → w.stopFd = none)
    (hfresh : ∀ fd, a.eventfd = some fd → fd ∉ k.fds) :
    w.start signal a k = (w, k) ∨ w = {} ∧ ∃ t, a.thread = some t ∧
      (w.start signal a k = (⟨none, some t⟩, { k with threads := insert t k.threads }) ∨
        ∃ fd, a.eventfd = some fd ∧ w.start signal a k =
          (⟨some fd, some t⟩, { k with fds := insert fd k.fds, threads := insert t k.threads })) := by
  obtain ⟨stopFd, thread⟩ := w
  unfold Worker.start
  cases thread with
  | some t => exact .inl rfl
  | none =>
    obtain rfl : stopFd = none := hidle rfl
    cases hopen : signal.open a with
    | some fd =>
      have hfd : a.eventfd = some fd := by
        unfold StopSignal.open at hopen
        cases signal with
        | condition => exact nomatch hopen
        | eventfd => exact hopen
        | eventfdOrPoll => exact hopen
      cases hthread : a.thread with
      | some t => exact .inr ⟨rfl, t, rfl, .inr ⟨fd, hfd, rfl⟩⟩
      | none =>
        -- the descriptor is closed again
        left
        have hback : (({ k with fds := insert fd k.fds } : Kernel).closeFd fd) = k := by
          simp [Kernel.closeFd, Finset.erase_insert (hfresh fd hfd)]
        exact congrArg (Prod.mk _) hback
    | none =>
      by_cases hsignal : signal = .eventfd
      · left
        simp only [if_pos hsignal]
      · simp only [if_neg hsignal]
        cases a.thread with
        | some t => exact .inr ⟨trivial, t, rfl, .inl rfl⟩
        | none => exact .inl rfl

/-- A worker goes down with all that it holds. -/
theorem Worker.stop_cases (h : Owns ws k) (i : ι) :
    ((ws i).thread = none ∧ (ws i).stop k = (ws i, k)) ∨
      ∃ t, (ws i).thread = some t ∧ (ws i).stop k = ({}, { k with
        fds := (ws i).stopFd.elim k.fds k.fds.erase, threads := k.threads.erase t }) := by
  unfold Worker.stop
  cases hthread : (ws i).thread with
  | none => exact .inl ⟨rfl, rfl⟩
  | some t =>
    refine .inr ⟨t, rfl, ?_⟩
    have ht : t ∈ k.threads := (h.threads.mem t).mpr ⟨i, hthread⟩
    cases hfd : (ws i).stopFd with
    | none => simp [Kernel.join, ht]
    | some fd =>
      have hfd' : fd ∈ k.fds := (h.fds.mem fd).mpr ⟨i, hfd⟩
      simp [Kernel.join, Kernel.closeFd, ht, hfd']

variable [DecidableEq ι]

theorem comp_update {β : Type*} (ws : ι → Worker) (i : ι) (v : Worker) (g : Worker → β) :
    (fun j => g (Function.update ws i v j)) = Function.update (fun j => g (ws j)) i (g v) := by
  funext j
  by_cases hj : j = i
  · subst hj
    rw [Function.update_self, Function.update_self]
  · rw [Function.update_of_ne hj, Function.update_of_ne hj]

theorem Owns.update_idle (h : Owns ws k) {v : Worker} (hv : v.thread = none → v.stopFd = none)
    (j : ι) (hj : (Function.update ws i v j).thread = none) :
    (Function.update ws i v j).stopFd = none := by
  by_cases hji : j = i
  · subst hji
    rw [Function.update_self] at hj ⊢
    exact hv hj
  · rw [Function.update_of_ne hji] at hj ⊢
    exact h.idle j hj

/-- **A start** keeps the books. -/
theorem Owns.start (h : Owns ws k) (i : ι) (hfd : ∀ fd, a.eventfd = some fd → fd ∉ k.fds)
    (hthread : ∀ t, a.thread = some t → t ∉ k.threads) :
    Owns (Function.update ws i ((ws i).start signal a k).1) ((ws i).start signal a k).2 := by
  rcases Worker.start_cases (h.idle i) hfd with heq | ⟨hw, t, ht, heq | ⟨fd, hfd', heq⟩⟩
  · rw [heq, Function.update_eq_self]
    exact h
  · rw [heq]
    refine ⟨?_, ?_, h.update_idle (fun h => nomatch h), h.notMisused⟩
    · rw [comp_update ws i _ Worker.stopFd]
      exact h.fds.keep (congrArg Worker.stopFd hw)
    · rw [comp_update ws i _ Worker.thread]
      exact h.threads.take (congrArg Worker.thread hw) (hthread t ht)
  · rw [heq]
    refine ⟨?_, ?_, h.update_idle (fun h => nomatch h), h.notMisused⟩
    · rw [comp_update ws i _ Worker.stopFd]
      exact h.fds.take (congrArg Worker.stopFd hw) (hfd fd hfd')
    · rw [comp_update ws i _ Worker.thread]
      exact h.threads.take (congrArg Worker.thread hw) (hthread t ht)

/-- **A stop** keeps the books, and the worker is down. -/
theorem Owns.stop (h : Owns ws k) (i : ι) :
    Owns (Function.update ws i ((ws i).stop k).1) ((ws i).stop k).2 ∧
      ((ws i).stop k).1.thread = none := by
  rcases Worker.stop_cases h i with ⟨hnone, heq⟩ | ⟨t, ht, heq⟩
  · rw [heq, Function.update_eq_self]
    exact ⟨h, hnone⟩
  · rw [heq]
    refine ⟨⟨?_, ?_, h.update_idle fun _ => rfl, h.notMisused⟩, rfl⟩
    · rw [comp_update ws i _ Worker.stopFd]
      cases hfd : (ws i).stopFd with
      | none => exact h.fds.keep hfd
      | some fd => exact h.fds.give hfd
    · rw [comp_update ws i _ Worker.thread]
      exact h.threads.give ht

end OemAaMod
