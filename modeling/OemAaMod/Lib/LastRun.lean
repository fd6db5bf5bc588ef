import Mathlib.Data.List.Chain
import Mathlib.Data.List.Infix

/-!
# The last run of a list

Of a list whose elements follow one another or start anew, the last run is the longest
suffix in which each element follows the one before.

* `IsLastRun` — what that means;
* `lastRun` — the run, element by element;
* `lastRun_isLastRun` — it is the longest.
-/

namespace LastRun

variable {α : Type*} (r : α → α → Prop)

/-- The longest suffix of `l` in which each element follows the one before by `r`. -/
structure IsLastRun (l run : List α) : Prop where
  suffix  : run <:+ l
  chain   : run.IsChain r
  longest : ∀ c, c <:+ l → c.IsChain r → c <:+ run

variable [DecidableRel r]

/-- What an element makes of the run before it. -/
def extend (run : List α) (a : α) : List α :=
  if ∀ b ∈ run.getLast?, r b a then run ++ [a] else [a]

def lastRun (l : List α) : List α := l.foldl (extend r) []

theorem lastRun_concat (l : List α) (a : α) : lastRun r (l ++ [a]) = extend r (lastRun r l) a := by
  unfold lastRun
  rw [List.foldl_append]
  rfl

/-- The last element is always in it. -/
theorem getLast?_lastRun (l : List α) : (lastRun r l).getLast? = l.getLast? := by
  induction l using List.reverseRecOn with
  | nil => rfl
  | append_singleton l a _ =>
    rw [lastRun_concat, List.getLast?_concat]
    unfold extend
    split
    · exact List.getLast?_concat
    · rfl

/-- **The run is the longest suffix that is one.** -/
theorem lastRun_isLastRun (l : List α) : IsLastRun r l (lastRun r l) := by
  induction l using List.reverseRecOn with
  | nil => exact ⟨List.suffix_refl [], List.IsChain.nil, fun c hc _ => hc⟩
  | append_singleton l a ih =>
    rw [lastRun_concat]
    unfold extend
    by_cases hr : ∀ b ∈ (lastRun r l).getLast?, r b a
    · rw [if_pos hr]
      refine ⟨?_, ?_, ?_⟩
      · exact List.suffix_concat_iff.mpr (Or.inr ⟨_, rfl, ih.suffix⟩)
      · exact List.isChain_append.mpr ⟨ih.chain, List.isChain_singleton a, by simpa using hr⟩
      · intro c hc hchain
        rcases List.suffix_concat_iff.mp hc with rfl | ⟨t, rfl, ht⟩
        · exact List.nil_suffix
        · have hrun := ih.longest t ht (List.isChain_append.mp hchain).1
          exact List.suffix_concat_iff.mpr (Or.inr ⟨t, rfl, hrun⟩)
    · rw [if_neg hr]
      refine ⟨List.suffix_append l [a], List.isChain_singleton a, ?_⟩
      intro c hc hchain
      rcases List.suffix_concat_iff.mp hc with rfl | ⟨t, rfl, p, rfl⟩
      · exact List.nil_suffix
      · -- nothing before `a` leads to it
        have hnil : t = [] := by
          by_contra hne
          rw [getLast?_lastRun, List.getLast?_append_of_ne_nil _ hne] at hr
          exact hr fun b hb => (List.isChain_append.mp hchain).2.2 b hb a rfl
        rw [hnil, List.nil_append]

end LastRun
