import Mathlib.Data.List.Induction
import Mathlib.Logic.Function.Basic

/-!
# The real implementation behind a shim

`resolve_real_symbol` of `preload.h`, and the globals around it: one for each symbol that a
library interposes, and one handle for all of them.

* `Loader` — what `dlsym` and `dlopen` answer, at one moment;
* `resolveRealSymbol`, `Reals.resolve` — a lookup, and a lookup where none was successful yet;
* `lookups_resolved` — through any lookups no global is ever a shim, none that is resolved
  changes, and the library is opened once.
-/

namespace OemAaMod

/-- The dynamic loader, with every address and every handle that is not `NULL`. -/
structure Loader (Addr Handle : Type*) where
  /-- `dlsym(RTLD_NEXT, name)` -/
  next   : String → Option Addr
  /-- `dlopen(path, RTLD_NOW | RTLD_NOLOAD)` -/
  noload : String → Option Handle
  /-- `dlsym(handle, name)` -/
  sym    : Handle → String → Option Addr

/-- The handle that the caller owns, and how often the library was opened for it. -/
structure HandleCache (Handle : Type*) where
  handle : Option Handle := none
  opens  : ℕ := 0

variable {Addr Handle ι : Type*}

/-! ## A lookup -/

/-- Open the library if it is resident and the handle is not there yet. -/
def HandleCache.fill (c : HandleCache Handle) (L : Loader Addr Handle)
    (soname abspath : Option String) : HandleCache Handle :=
  match c.handle with
  | some _ => c
  | none =>
    match (soname.bind L.noload).or (abspath.bind L.noload) with
    | some h => ⟨some h, c.opens + 1⟩
    | none => c

def resolveRealSymbol [DecidableEq Addr] (L : Loader Addr Handle) (name : String)
    (soname abspath : Option String) (ownShim : Addr) (c : HandleCache Handle) : Option Addr × HandleCache Handle :=
  match (L.next name).filter (· ≠ ownShim) with
  | some p => (some p, c)
  | none =>
    let c := c.fill L soname abspath
    ((c.handle.bind fun h => L.sym h name).filter (· ≠ ownShim), c)

/-! ## The globals -/

/-- A symbol that is interposed. -/
structure Interposed (Addr : Type*) where
  name    : String
  ownShim : Addr

/-- The library that defines them. -/
structure RealLibrary (ι Addr : Type*) where
  symbols : ι → Interposed Addr
  soname  : Option String
  abspath : Option String

/-- `g_real_*` and the handle. -/
structure Reals (ι Addr Handle : Type*) where
  real  : ι → Option Addr := fun _ => none
  cache : HandleCache Handle := {}

/-- Look `i` up if it is not resolved. -/
def Reals.resolve [DecidableEq Addr] [DecidableEq ι] (lib : RealLibrary ι Addr) (L : Loader Addr Handle)
    (r : Reals ι Addr Handle) (i : ι) : Reals ι Addr Handle :=
  match r.real i with
  | some _ => r
  | none =>
    let found := resolveRealSymbol L (lib.symbols i).name lib.soname lib.abspath
      (lib.symbols i).ownShim r.cache
    ⟨Function.update r.real i found.1, found.2⟩

/-! ## What a lookup does -/

variable {lib : RealLibrary ι Addr} {L : Loader Addr Handle} {c : HandleCache Handle}
variable {r r' : Reals ι Addr Handle} {name : String} {soname abspath : Option String}
variable {own p : Addr} {i j : ι}

/-- The handle is there exactly if the library was opened, and then it was opened once. -/
def HandleCache.Once (c : HandleCache Handle) : Prop := c.opens = if c.handle.isSome then 1 else 0

theorem HandleCache.Once.fill (h : c.Once) : (c.fill L soname abspath).Once := by
  unfold HandleCache.fill
  cases hhandle : c.handle with
  | some _ => exact h
  | none =>
    rw [HandleCache.Once, hhandle] at h
    cases (soname.bind L.noload).or (abspath.bind L.noload) with
    | some _ => exact congrArg (· + 1) h
    | none =>
      rw [HandleCache.Once, hhandle]
      exact h

/-- An address that the loader gives for the symbol now. -/
def Loader.Gives (L : Loader Addr Handle) (name : String) (p : Addr) : Prop :=
  L.next name = some p ∨ ∃ h, L.sym h name = some p

variable [DecidableEq Addr]

theorem resolveRealSymbol_spec (hc : c.Once) :
    (resolveRealSymbol L name soname abspath own c).2.Once ∧
      ∀ p, (resolveRealSymbol L name soname abspath own c).1 = some p →
        p ≠ own ∧ L.Gives name p := by
  unfold resolveRealSymbol
  split
  · rename_i q hnext
    obtain ⟨hgives, hne⟩ := Option.filter_eq_some_iff.mp hnext
    refine ⟨hc, fun p hp => ?_⟩
    obtain rfl := Option.some_inj.mp hp
    exact ⟨by simpa using hne, .inl hgives⟩
  · refine ⟨hc.fill, fun p hp => ?_⟩
    obtain ⟨hgives, hne⟩ := Option.filter_eq_some_iff.mp hp
    obtain ⟨h, -, hsym⟩ := Option.bind_eq_some_iff.mp hgives
    exact ⟨by simpa using hne, .inr ⟨h, hsym⟩⟩

/-- What `RTLD_NEXT` has behind the shim is found. -/
theorem next_of_resolveRealSymbol_none (hp : L.next name = some p)
    (hnone : (resolveRealSymbol L name soname abspath own c).1 = none) : p = own := by
  by_contra hne
  unfold resolveRealSymbol at hnone
  rw [hp, Option.filter_some_pos (by simpa using hne)] at hnone
  exact absurd hnone (by simp)

variable [DecidableEq ι]

/-- The symbol was resolved before, or it is looked up. -/
theorem Reals.resolve_cases (lib : RealLibrary ι Addr) (L : Loader Addr Handle)
    (r : Reals ι Addr Handle) (i : ι) :
    (r.resolve lib L i = r ∧ r.real i ≠ none) ∨
      (r.real i = none ∧ ∃ found, found = resolveRealSymbol L (lib.symbols i).name lib.soname
        lib.abspath (lib.symbols i).ownShim r.cache ∧
          (r.resolve lib L i).real = Function.update r.real i found.1 ∧
            (r.resolve lib L i).cache = found.2) := by
  unfold Reals.resolve
  split
  · rename_i p hp
    exact .inl ⟨rfl, by simp [hp]⟩
  · rename_i hnone
    exact .inr ⟨hnone, _, rfl, rfl, rfl⟩

/-- A global that is resolved stays. -/
theorem Reals.resolve_of_some (h : r.real j = some p) : (r.resolve lib L i).real j = some p := by
  rcases r.resolve_cases lib L i with ⟨heq, -⟩ | ⟨hnone, found, -, hreal, -⟩
  · rwa [heq]
  · have hj : j ≠ i := by
      rintro rfl
      rw [h] at hnone
      exact absurd hnone (by simp)
    rw [hreal, Function.update_of_ne hj, h]

/-- The globals after some lookups. -/
structure Resolved (lib : RealLibrary ι Addr) (ls : List (Loader Addr Handle × ι))
    (r : Reals ι Addr Handle) : Prop where
  once  : r.cache.Once
  found : ∀ i p, r.real i = some p →
    p ≠ (lib.symbols i).ownShim ∧ ∃ L, (L, i) ∈ ls ∧ L.Gives (lib.symbols i).name p
  none  : ∀ i, r.real i = none →
    ∀ L p, (L, i) ∈ ls → L.next (lib.symbols i).name = some p → p = (lib.symbols i).ownShim

omit [DecidableEq Addr] [DecidableEq ι] in
theorem resolved_empty : Resolved lib [] ({} : Reals ι Addr Handle) :=
  ⟨rfl, fun _ _ h => absurd h (by simp), fun _ _ _ _ h => absurd h List.not_mem_nil⟩

theorem Resolved.resolve {ls : List (Loader Addr Handle × ι)} (h : Resolved lib ls r)
    (L : Loader Addr Handle) (i : ι) : Resolved lib (ls ++ [(L, i)]) (r.resolve lib L i) := by
  have hold : ∀ j p, r.real j = some p → p ≠ (lib.symbols j).ownShim ∧
      ∃ L', (L', j) ∈ ls ++ [(L, i)] ∧ L'.Gives (lib.symbols j).name p := by
    intro j p hp
    obtain ⟨hne, L', hmem, hgives⟩ := h.found j p hp
    exact ⟨hne, L', List.mem_append_left _ hmem, hgives⟩
  have hlast : ∀ j L', (L', j) ∈ ls ++ [(L, i)] → (L', j) ∈ ls ∨ L' = L ∧ j = i := by
    intro j L' hmem
    rw [List.mem_append, List.mem_singleton, Prod.mk.injEq] at hmem
    exact hmem
  rcases r.resolve_cases lib L i with ⟨heq, hsome⟩ | ⟨hnone, found, hfound, hreal, hcache⟩
  · rw [heq]
    refine ⟨h.once, hold, fun j hj L' p hmem => ?_⟩
    rcases hlast j L' hmem with hmem | ⟨-, rfl⟩
    · exact h.none j hj L' p hmem
    · exact absurd hj hsome
  · have hspec : found.2.Once ∧ ∀ p, found.1 = some p →
        p ≠ (lib.symbols i).ownShim ∧ L.Gives (lib.symbols i).name p := by
      rw [hfound]
      exact resolveRealSymbol_spec h.once
    refine ⟨hcache.symm ▸ hspec.1, fun j p hp => ?_, fun j hj L' p hmem hnext => ?_⟩
    · rw [hreal] at hp
      by_cases hj : j = i
      · subst hj
        rw [Function.update_self] at hp
        exact ⟨(hspec.2 p hp).1, L, by simp, (hspec.2 p hp).2⟩
      · rw [Function.update_of_ne hj] at hp
        exact hold j p hp
    · rw [hreal] at hj
      by_cases hji : j = i
      · subst hji
        rw [Function.update_self] at hj
        rcases hlast j L' hmem with hmem | ⟨rfl, -⟩
        · exact h.none j hnone L' p hmem hnext
        · rw [hfound] at hj
          exact next_of_resolveRealSymbol_none hnext hj
      · rw [Function.update_of_ne hji] at hj
        rcases hlast j L' hmem with hmem | ⟨-, rfl⟩
        · exact h.none j hj L' p hmem hnext
        · exact absurd rfl hji

/-! ## Any lookups -/

/-- The symbols `ls` are looked up, one after the other, while libraries come and go. -/
def lookups (lib : RealLibrary ι Addr) (ls : List (Loader Addr Handle × ι)) :
    Reals ι Addr Handle :=
  ls.foldl (fun r l => r.resolve lib l.1 l.2) {}

theorem lookups_append (ls ls' : List (Loader Addr Handle × ι)) :
    lookups lib (ls ++ ls') =
      ls'.foldl (fun r l => r.resolve lib l.1 l.2) (lookups lib ls) := by
  unfold lookups
  rw [List.foldl_append]

theorem resolved_lookups (ls : List (Loader Addr Handle × ι)) :
    Resolved lib ls (lookups lib ls) := by
  induction ls using List.reverseRecOn with
  | nil => exact resolved_empty
  | append_singleton ls l ih =>
    rw [lookups_append]
    exact ih.resolve l.1 l.2

/-- **The lookups are safe.** However the loader answers: the library is opened once at most;
a global is what the loader gave for its symbol and never the shim; one that is resolved stays
for good; and one that is not had nothing but the shim in the global scope each time. -/
theorem lookups_resolved (lib : RealLibrary ι Addr) (ls : List (Loader Addr Handle × ι)) :
    (lookups lib ls).cache.opens ≤ 1 ∧ ∀ i,
      (∀ p, (lookups lib ls).real i = some p → p ≠ (lib.symbols i).ownShim ∧
        (∃ L, (L, i) ∈ ls ∧ L.Gives (lib.symbols i).name p) ∧
          ∀ ls', (lookups lib (ls ++ ls')).real i = some p) ∧
      ((lookups lib ls).real i = none → ∀ L p, (L, i) ∈ ls →
        L.next (lib.symbols i).name = some p → p = (lib.symbols i).ownShim) := by
  have h : Resolved lib ls (lookups lib ls) := resolved_lookups ls
  refine ⟨?_, fun i => ⟨fun p hp => ⟨(h.found i p hp).1, (h.found i p hp).2, fun ls' => ?_⟩,
    fun hnone L p => h.none i hnone L p⟩⟩
  · rw [h.once]
    split
    · exact Nat.le_refl 1
    · exact Nat.zero_le 1
  · rw [lookups_append]
    generalize lookups lib ls = r at hp
    induction ls' generalizing r with
    | nil => exact hp
    | cons l ls' ih => exact ih _ (Reals.resolve_of_some hp)

end OemAaMod
