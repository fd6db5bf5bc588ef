import OemAaMod.Lib.Run

/-!
# A library and its caller

The rules of a library are a partial step function on the calls: `rule k c` is the library
after the call `c`, or `none` if the caller may not make it. A caller is a program whose
steps make calls.

* `withLibrary` — the caller and the library side by side; the library's side is `none` from
  the first misuse on;
* `sees_of_reach` — a relation that every step of the caller keeps along with the library:
  then there is no misuse in any run;
* `withLog` — the caller beside the log of its calls;
* `InSessions` — a log that is made of whole sessions, and of the one under way.
-/

namespace Contract

variable {σ κ α γ : Type*}

/-- The library after the calls `cs`. -/
def after (rule : κ → γ → Option κ) (k : κ) (cs : List γ) : Option κ := cs.foldlM rule k

/-- One step of the caller, with its calls made. -/
def withLibrary (prog : σ → α → Option (σ × List γ)) (rule : κ → γ → Option κ)
    (s : σ × Option κ) (a : α) : Option (σ × Option κ) :=
  (prog s.1 a).map fun r => (r.1, s.2.bind (after rule · r.2))

variable {prog : σ → α → Option (σ × List γ)} {rule : κ → γ → Option κ}
  {guard : σ × Option κ → α → Prop}

@[simp] theorem after_nil (k : κ) : after rule k [] = some k := rfl

@[simp] theorem after_cons (k : κ) (c : γ) (cs : List γ) :
    after rule k (c :: cs) = (rule k c).bind (after rule · cs) := rfl

theorem after_append (k : κ) (cs cs' : List γ) :
    after rule k (cs ++ cs') = (after rule k cs).bind (after rule · cs') :=
  List.foldlM_append

/-- Calls that leave the library as it is. -/
theorem after_of_forall {k : κ} {cs : List γ} (h : ∀ c ∈ cs, rule k c = some k) :
    after rule k cs = some k := by
  induction cs with
  | nil => rfl
  | cons c cs ih =>
    rw [after_cons, h c List.mem_cons_self, Option.bind_some]
    exact ih fun c hc => h c (List.mem_cons_of_mem _ hc)

/-- **Simulation rule.** Every step of the caller, from a library it `Sees` as it is. -/
theorem sees_of_reach {Sees : σ → κ → Prop} {init : σ} {k₀ : κ} (hinit : Sees init k₀)
    (hstep : ∀ s k a r, Sees s k → guard (s, some k) a → prog s a = some r →
      ∃ k', after rule k r.2 = some k' ∧ Sees r.1 k') {s : σ × Option κ}
    (h : Run.Reach (withLibrary prog rule) guard (init, some k₀) s) :
    ∃ k, s.2 = some k ∧ Sees s.1 k := by
  refine h.invariant (I := fun s => ∃ k, s.2 = some k ∧ Sees s.1 k) ⟨k₀, rfl, hinit⟩ ?_
  rintro ⟨s, -⟩ a s' ⟨k, rfl, hsees⟩ hguard hs
  obtain ⟨r, hr, rfl⟩ := Option.map_eq_some_iff.mp hs
  exact hstep s k a r hsees hguard hr

/-! ## Logs -/

/-- One step of the caller, with its calls noted. -/
def withLog (prog : σ → α → Option (σ × List γ)) (s : σ × List γ) (a : α) : Option (σ × List γ) :=
  (prog s.1 a).map fun r => (r.1, s.2 ++ r.2)

/-- The log is made of sessions, and of what there is so far of another, `rest`. -/
def InSessions (Session : List γ → Prop) (log rest : List γ) : Prop :=
  ∃ done : List (List γ), log = done.flatten ++ rest ∧ ∀ x ∈ done, Session x

variable {Session : List γ → Prop} {log rest : List γ}

theorem inSessions_nil : InSessions Session [] [] := ⟨[], rfl, fun _ h => absurd h List.not_mem_nil⟩

/-- The session goes on. -/
theorem InSessions.append (h : InSessions Session log rest) (cs : List γ) :
    InSessions Session (log ++ cs) (rest ++ cs) := by
  obtain ⟨done, rfl, hdone⟩ := h
  exact ⟨done, List.append_assoc .., hdone⟩

/-- The session is over. -/
theorem InSessions.close (h : InSessions Session log rest) (hrest : Session rest) :
    InSessions Session log [] := by
  obtain ⟨done, rfl, hdone⟩ := h
  refine ⟨done ++ [rest], by simp, ?_⟩
  exact List.forall_mem_append.mpr ⟨hdone, List.forall_mem_singleton.mpr hrest⟩

/-- A library that takes every session from `k` back to `k` is at `k` between them. -/
theorem InSessions.after_eq {k : κ} (h : InSessions Session log rest)
    (hsession : ∀ x, Session x → after rule k x = some k) :
    after rule k log = after rule k rest := by
  obtain ⟨done, rfl, hdone⟩ := h
  induction done with
  | nil => rfl
  | cons x done ih =>
    obtain ⟨hx, hdone⟩ := List.forall_mem_cons.mp hdone
    rw [List.flatten_cons, List.append_assoc, after_append, hsession x hx, Option.bind_some]
    exact ih hdone

/-- Whatever can still become a session was called as the library asks. -/
theorem after_ne_none_of_append {k : κ} {cs : List γ} (more : List γ)
    (h : after rule k (cs ++ more) ≠ none) : after rule k cs ≠ none := by
  intro hnone
  rw [after_append, hnone] at h
  exact h rfl

end Contract
