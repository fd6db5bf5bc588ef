import Mathlib.Tactic

/-!
# Computations that note what they do

A `Comp ε α` notes events of a type `ε` on its way, and returns an `α` or runs out of
fuel. `Meets P m Q` says that every event of `m` satisfies `P` and that `m` returns,
with a result that satisfies `Q`: safety, termination and result in one triple.

* `Meets.pure`, `Meets.note`, `Meets.bind`, `Meets.mono` — the rules of the parts;
* `Meets.loop` — the rule of loops, by an invariant and a variant below the fuel.
-/

namespace Logged

universe u v

/-- The events in order, and the result; `none` is out of fuel. -/
structure Comp (ε : Type v) (α : Type u) where
  log    : List ε
  result : Option α

variable {ε : Type v} {α β σ : Type u}

instance : Monad (Comp ε) where
  pure a := ⟨[], some a⟩
  bind m f :=
    match m.result with
    | some a => ⟨m.log ++ (f a).log, (f a).result⟩
    | none => ⟨m.log, none⟩

def note (e : ε) : Comp ε PUnit.{u + 1} := ⟨[e], some ⟨⟩⟩

/-- `body`, until it ends the loop with a value. -/
def loop (body : σ → Comp ε (σ ⊕ α)) : Nat → σ → Comp ε α
  | 0, _ => ⟨[], none⟩
  | fuel + 1, s => do
    match ← body s with
    | .inl s => loop body fuel s
    | .inr a => pure a

/-- Every event satisfies `P`, and a result is returned that satisfies `Q`. -/
def Meets (P : ε → Prop) (m : Comp ε α) (Q : α → Prop) : Prop :=
  (∀ e ∈ m.log, P e) ∧ ∃ a, m.result = some a ∧ Q a

variable {P : ε → Prop} {Q : α → Prop} {R : β → Prop}

theorem Meets.pure {a : α} (h : Q a) : Meets P (pure a) Q :=
  ⟨fun _ he => absurd he List.not_mem_nil, a, rfl, h⟩

theorem Meets.note {e : ε} (h : P e) : Meets P (note e : Comp ε PUnit.{u + 1}) fun _ => True :=
  ⟨fun _ he => List.mem_singleton.mp he ▸ h, _, rfl, trivial⟩

theorem Meets.bind {m : Comp ε α} {f : α → Comp ε β} (hm : Meets P m Q)
    (hf : ∀ a, Q a → Meets P (f a) R) : Meets P (m >>= f) R := by
  obtain ⟨hlog, a, hresult, ha⟩ := hm
  obtain ⟨hlog', b, hresult', hb⟩ := hf a ha
  have heq : (m >>= f) = ⟨m.log ++ (f a).log, (f a).result⟩ := by
    show (match m.result with
      | some a => Comp.mk (m.log ++ (f a).log) (f a).result
      | none => ⟨m.log, none⟩) = _
    rw [hresult]
  rw [heq]
  refine ⟨fun e he => ?_, b, hresult', hb⟩
  rcases List.mem_append.mp he with he | he
  · exact hlog e he
  · exact hlog' e he

/-- A note before the rest. -/
theorem Meets.note_bind {e : ε} {f : PUnit.{u + 1} → Comp ε β} (h : P e)
    (hf : Meets P (f ⟨⟩) R) : Meets P (Logged.note e >>= f) R :=
  (Meets.note h).bind fun _ _ => hf

theorem Meets.mono {m : Comp ε α} {Q' : α → Prop} (h : Meets P m Q) (hQ : ∀ a, Q a → Q' a) :
    Meets P m Q' := by
  obtain ⟨hlog, a, hresult, ha⟩ := h
  exact ⟨hlog, a, hresult, hQ a ha⟩

/-- **The loop rule.** The body keeps `I` and decreases `v`, or ends with a `Q`. -/
theorem Meets.loop {body : σ → Comp ε (σ ⊕ α)} (I : σ → Prop) (v : σ → Nat)
    (hbody : ∀ s, I s → Meets P (body s) (Sum.elim (fun s' => I s' ∧ v s' < v s) Q)) :
    ∀ fuel s, I s → v s < fuel → Meets P (loop body fuel s) Q := by
  intro fuel
  induction fuel with
  | zero => exact fun s _ hfuel => absurd hfuel (Nat.not_lt_zero _)
  | succ fuel ih =>
    intro s hs hfuel
    refine (hbody s hs).bind fun r hr => ?_
    cases r with
    | inl s' => exact ih s' hr.1 (by have := hr.2; omega)
    | inr a => exact .pure hr

end Logged
