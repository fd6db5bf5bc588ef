import Mathlib.Data.List.Basic

/-!
# Runs of a labelled transition system

A system is a partial step function: `step s a = some s'` when the action `a`
is enabled in `s` and leads to `s'`. `Reach step guard init` are the states of
the runs all of whose steps meet `guard`; with the trivial guard these are the
reachable states.

* `Reach.invariant` — what holds initially and is kept by every guarded step
  holds in every state reached;
* `Reach.of_replay`, `Reach.exists_of_replay` — a concrete run, checked by
  evaluation, reaches its last state;
* `Trace`, `Trace.of_record` — the same with the steps on the way, each with the state
  it was taken in.
-/

namespace Run

variable {σ α : Type*}

/-- The states reached from `init` by steps that meet `guard`. -/
inductive Reach (step : σ → α → Option σ) (guard : σ → α → Prop) (init : σ) : σ → Prop
  | start : Reach step guard init init
  | next {s s' : σ} {a : α} (h : Reach step guard init s) (hstep : step s a = some s')
      (hguard : guard s a) : Reach step guard init s'

variable {step : σ → α → Option σ} {guard : σ → α → Prop} {init s s' : σ}

/-- **Invariant rule.** -/
theorem Reach.invariant {I : σ → Prop} (hinit : I init)
    (hkeep : ∀ s a s', I s → guard s a → step s a = some s' → I s')
    (h : Reach step guard init s) : I s := by
  induction h with
  | start => exact hinit
  | next _ hstep hguard ih => exact hkeep _ _ _ ih hguard hstep

/-- Runs compose. -/
theorem Reach.trans (h : Reach step guard init s) (h' : Reach step guard s s') :
    Reach step guard init s' := by
  induction h' with
  | start => exact h
  | next _ hstep hguard ih => exact .next ih hstep hguard

/-- Taking the actions `as` one after the other, as long as the guard is met. -/
def replay (step : σ → α → Option σ) (guard : σ → α → Prop) [∀ s a, Decidable (guard s a)] :
    σ → List α → Option σ
  | s, [] => some s
  | s, a :: as => if guard s a then (step s a).bind (replay step guard · as) else none

theorem replay_append [∀ s a, Decidable (guard s a)] (as as' : List α) :
    replay step guard s (as ++ as') =
      (replay step guard s as).bind (replay step guard · as') := by
  induction as generalizing s with
  | nil => rfl
  | cons a as ih =>
    rw [List.cons_append, replay, replay]
    by_cases hguard : guard s a
    · rw [if_pos hguard, if_pos hguard, Option.bind_assoc]
      exact Option.bind_congr fun _ _ => ih
    · rw [if_neg hguard, if_neg hguard]
      rfl

/-- A run that replays reaches its last state. -/
theorem Reach.of_replay [∀ s a, Decidable (guard s a)] (as : List α)
    (h : replay step guard s as = some s') : Reach step guard s s' := by
  induction as generalizing s with
  | nil =>
    rw [replay, Option.some_inj] at h
    exact h ▸ .start
  | cons a as ih =>
    rw [replay] at h
    by_cases hguard : guard s a
    · rw [if_pos hguard] at h
      obtain ⟨t, ht, hrest⟩ := Option.bind_eq_some_iff.mp h
      exact Reach.trans (.next .start ht hguard) (ih hrest)
    · rw [if_neg hguard] at h
      exact absurd h (by simp)

/-- A run that replays into a state with `p` reaches such a state. -/
theorem Reach.exists_of_replay [∀ s a, Decidable (guard s a)] {p : σ → Prop} [DecidablePred p]
    (as : List α) (h : (replay step guard s as).any (fun t => decide (p t)) = true) :
    ∃ t, Reach step guard s t ∧ p t := by
  cases hrun : replay step guard s as with
  | none => simp [hrun] at h
  | some t =>
    rw [hrun, Option.any_some, decide_eq_true_eq] at h
    exact ⟨t, Reach.of_replay as hrun, h⟩

/-! ## Traces -/

/-- The runs from `init` with their steps, oldest first, and the state they end in. -/
inductive Trace (step : σ → α → Option σ) (guard : σ → α → Prop) (init : σ) :
    List (σ × α) → σ → Prop
  | start : Trace step guard init [] init
  | next {tr : List (σ × α)} {s s' : σ} {a : α} (h : Trace step guard init tr s)
      (hstep : step s a = some s') (hguard : guard s a) :
      Trace step guard init (tr ++ [(s, a)]) s'

theorem Trace.reach {tr : List (σ × α)} (h : Trace step guard init tr s) :
    Reach step guard init s := by
  induction h with
  | start => exact .start
  | next _ hstep hguard ih => exact .next ih hstep hguard

/-- Taking the actions `as` behind the steps `tr`, as long as the guard is met. -/
def record (step : σ → α → Option σ) (guard : σ → α → Prop) [∀ s a, Decidable (guard s a)] :
    List (σ × α) → σ → List α → Option (List (σ × α) × σ)
  | tr, s, [] => some (tr, s)
  | tr, s, a :: as =>
    if guard s a then (step s a).bind fun s' => record step guard (tr ++ [(s, a)]) s' as else none

/-- A run that is recorded is one. -/
theorem Trace.of_record [∀ s a, Decidable (guard s a)] (as : List α) {tr tr' : List (σ × α)}
    (h : Trace step guard init tr s) (hrecord : record step guard tr s as = some (tr', s')) :
    Trace step guard init tr' s' := by
  induction as generalizing tr s with
  | nil =>
    rw [record, Option.some_inj, Prod.mk.injEq] at hrecord
    obtain ⟨rfl, rfl⟩ := hrecord
    exact h
  | cons a as ih =>
    rw [record] at hrecord
    by_cases hguard : guard s a
    · rw [if_pos hguard] at hrecord
      obtain ⟨t, ht, hrest⟩ := Option.bind_eq_some_iff.mp hrecord
      exact ih (.next h ht hguard) hrest
    · rw [if_neg hguard] at hrecord
      exact absurd hrecord (by simp)

/-- A recorded run with a property is a run with it. -/
theorem Trace.exists_of_record [∀ s a, Decidable (guard s a)]
    {p : List (σ × α) → σ → Prop} [∀ tr s, Decidable (p tr s)] (as : List α)
    (h : (record step guard [] init as).any (fun r => decide (p r.1 r.2)) = true) :
    ∃ tr s, Trace step guard init tr s ∧ p tr s := by
  cases hrun : record step guard [] init as with
  | none => simp [hrun] at h
  | some r =>
    rw [hrun, Option.any_some, decide_eq_true_eq] at h
    exact ⟨r.1, r.2, Trace.of_record as .start hrun, h⟩

end Run
