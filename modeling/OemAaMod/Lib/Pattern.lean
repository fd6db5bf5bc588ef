import Mathlib.Data.List.Infix

/-!
# Patterns with wildcards

The patterns of `grep` that are words in which a place may stand for any symbol.

* `occurs` — a pattern matches somewhere in a word;
* `occursThen` — two patterns match, the one behind the other;
* `replaceFirst` — `s/word/other/`, and `replaceFirst_back_iff`, when the reverse takes it back;
* `NoClash` — a pattern can not overlap a word. Then replacing the word by another of the
  kind makes no difference to it: `occurs_replaceFirst`, `occursThen_replaceFirst`.
-/

namespace Pattern

variable {α : Type*} [DecidableEq α]

/-- A place of a pattern, `none` for any symbol. -/
abbrev Pat (α : Type*) := List (Option α)

/-- A word as a pattern. -/
def lit (w : List α) : Pat α := w.map some

def fits (o : Option α) (c : α) : Bool := o = none ∨ o = some c

/-- The pattern matches at the start of a word. -/
def isPrefix : Pat α → List α → Bool
  | [], _ => true
  | _ :: _, [] => false
  | o :: p, c :: l => fits o c && isPrefix p l

/-- It matches somewhere in it. -/
def occurs (p : Pat α) : List α → Bool
  | [] => isPrefix p []
  | c :: l => isPrefix p (c :: l) || occurs p l

/-- `p` matches, and `q` behind it. -/
def occursThen (p q : Pat α) : List α → Bool
  | [] => isPrefix p [] && occurs q []
  | c :: l => (isPrefix p (c :: l) && occurs q ((c :: l).drop p.length)) || occursThen p q l

/-- The first `w` of a word replaced by `r`. -/
def replaceFirst (w r : List α) : List α → List α
  | [] => []
  | c :: l => if w.isPrefixOf (c :: l) then r ++ (c :: l).drop w.length else c :: replaceFirst w r l

/-- As far as both go, the pattern matches the word. -/
def compat : Pat α → List α → Bool
  | [], _ => true
  | _, [] => true
  | o :: p, c :: l => fits o c && compat p l

/-- The pattern can not overlap the word, wherever it starts. -/
def NoClash (p : Pat α) (w : List α) : Prop :=
  (∀ w' ∈ w.tails, w' ≠ [] → compat p w' = false) ∧ ∀ p' ∈ p.tails, p' ≠ [] → compat p' w = false

instance (p : Pat α) (w : List α) : Decidable (NoClash p w) := inferInstanceAs (Decidable (_ ∧ _))

variable {p q : Pat α} {a b w r l : List α}

/-! ## Where a pattern matches -/

theorem isPrefix_append (h : isPrefix p a = true) (b : List α) : isPrefix p (a ++ b) = true := by
  induction p generalizing a with
  | nil => rfl
  | cons o p ih =>
    cases a with
    | nil => exact absurd h Bool.false_ne_true
    | cons c a =>
      simp only [isPrefix, Bool.and_eq_true] at h
      simp only [List.cons_append, isPrefix, Bool.and_eq_true]
      exact ⟨h.1, ih h.2⟩

theorem compat_of_isPrefix (h : isPrefix p (w ++ b) = true) : compat p w = true := by
  induction p generalizing w with
  | nil => rfl
  | cons o p ih =>
    cases w with
    | nil => rfl
    | cons c w =>
      simp only [List.cons_append, isPrefix, Bool.and_eq_true] at h
      simp only [compat, Bool.and_eq_true]
      exact ⟨h.1, ih h.2⟩

/-- A match that starts in `a` ends in it or goes on into what is behind. -/
theorem isPrefix_append_cases (h : isPrefix p (a ++ b) = true) :
    isPrefix p a = true ∨ ∃ p', p' <:+ p ∧ p' ≠ [] ∧ isPrefix p' b = true := by
  induction p generalizing a with
  | nil => exact .inl rfl
  | cons o p ih =>
    cases a with
    | nil => exact .inr ⟨o :: p, List.suffix_refl _, by simp, h⟩
    | cons c a =>
      simp only [List.cons_append, isPrefix, Bool.and_eq_true] at h
      rcases ih h.2 with hin | ⟨p', hsuffix, hne, hrest⟩
      · left
        simp only [isPrefix, Bool.and_eq_true]
        exact ⟨h.1, hin⟩
      · exact .inr ⟨p', hsuffix.trans (List.suffix_cons _ _), hne, hrest⟩

theorem occurs_of_suffix (hsuffix : b <:+ l) (h : occurs p b = true) : occurs p l = true := by
  induction l with
  | nil => rwa [List.suffix_nil.mp hsuffix] at h
  | cons c l ih =>
    rcases List.suffix_cons_iff.mp hsuffix with rfl | hsuffix
    · exact h
    · rw [occurs, ih hsuffix, Bool.or_true]

theorem occurs_append_left (h : occurs p a = true) (b : List α) : occurs p (a ++ b) = true := by
  induction a with
  | nil =>
    cases b with
    | nil => exact h
    | cons c b =>
      have hp : p = [] := by
        cases p with
        | nil => rfl
        | cons o p => exact absurd h Bool.false_ne_true
      rw [hp]
      rfl
  | cons c a ih =>
    rw [occurs, Bool.or_eq_true] at h
    rw [List.cons_append, occurs, Bool.or_eq_true]
    exact h.imp (fun h => isPrefix_append h b) ih

/-! ## Words that a pattern does not overlap -/

theorem NoClash.not_start (h : NoClash p w) {w' : List α} (hsuffix : w' <:+ w) (hne : w' ≠ []) :
    isPrefix p (w' ++ b) = false := by
  rw [← Bool.not_eq_true]
  intro hmatch
  have hcompat := h.1 w' ((List.mem_tails ..).mpr hsuffix) hne
  rw [compat_of_isPrefix hmatch] at hcompat
  exact absurd hcompat (by simp)

theorem NoClash.not_into (h : NoClash p w) {p' : Pat α} (hsuffix : p' <:+ p) (hne : p' ≠ []) :
    isPrefix p' (w ++ b) = false := by
  rw [← Bool.not_eq_true]
  intro hmatch
  have hcompat := h.2 p' ((List.mem_tails ..).mpr hsuffix) hne
  rw [compat_of_isPrefix hmatch] at hcompat
  exact absurd hcompat (by simp)

/-- Induction along a word that the pattern does not overlap: it matches at no place of it. -/
theorem NoClash.induction {P : List α → Prop} (h : NoClash p w) (b : List α) (hnil : P [])
    (hcons : ∀ c w', isPrefix p (c :: (w' ++ b)) = false → P w' → P (c :: w')) : P w := by
  have hall : ∀ w', w' <:+ w → P w' := by
    intro w'
    induction w' with
    | nil => exact fun _ => hnil
    | cons c w' ih =>
      intro hsuffix
      exact hcons c w' (h.not_start hsuffix (by simp)) (ih ((List.suffix_cons c w').trans hsuffix))
  exact hall w (List.suffix_refl w)

/-- Past a word that it does not overlap a pattern matches behind it. -/
theorem NoClash.occurs_word (h : NoClash p w) : occurs p (w ++ b) = occurs p b := by
  refine h.induction (P := fun w => occurs p (w ++ b) = occurs p b) b rfl fun c w' hstart ih => ?_
  rw [List.cons_append, occurs, hstart, Bool.false_or, ih]

theorem NoClash.isPrefix_around (h : NoClash p w) :
    isPrefix p (a ++ (w ++ b)) = true → a ≠ [] → isPrefix p a = true := by
  intro hmatch _
  rcases isPrefix_append_cases hmatch with hin | ⟨p', hsuffix, hne, hrest⟩
  · exact hin
  · rw [h.not_into hsuffix hne] at hrest
    exact absurd hrest Bool.false_ne_true

/-- Around a word that it does not overlap a pattern matches before or behind it. -/
theorem NoClash.occurs_around (h : NoClash p w) (hne : p ≠ []) :
    occurs p (a ++ (w ++ b)) = true ↔ occurs p a = true ∨ occurs p b = true := by
  induction a with
  | nil =>
    have hnil : occurs p [] = false := by
      cases p with
      | nil => exact absurd rfl hne
      | cons o p => rfl
    rw [List.nil_append, h.occurs_word, hnil]
    simp
  | cons c a ih =>
    rw [List.cons_append, occurs, occurs, Bool.or_eq_true, Bool.or_eq_true, ih, or_assoc]
    refine or_congr_left ⟨fun hmatch => ?_, fun hmatch => ?_⟩
    · exact h.isPrefix_around hmatch (by simp)
    · exact isPrefix_append hmatch _

theorem length_le_of_isPrefix (h : isPrefix p l = true) : p.length ≤ l.length := by
  induction p generalizing l with
  | nil => exact Nat.zero_le _
  | cons o p ih =>
    cases l with
    | nil => exact absurd h Bool.false_ne_true
    | cons c l =>
      simp only [isPrefix, Bool.and_eq_true] at h
      exact Nat.succ_le_succ (ih h.2)

theorem NoClash.occursThen_word (h : NoClash p w) : occursThen p q (w ++ b) = occursThen p q b := by
  refine h.induction (P := fun w => occursThen p q (w ++ b) = occursThen p q b) b rfl
    fun c w' hstart ih => ?_
  rw [List.cons_append, occursThen, hstart, Bool.false_and, Bool.false_or, ih]

theorem NoClash.occursThen_around (hp : NoClash p w) (hq : NoClash q w) (hpne : p ≠ [])
    (hqne : q ≠ []) : occursThen p q (a ++ (w ++ b)) = true ↔
      occursThen p q a = true ∨ (occurs p a = true ∧ occurs q b = true) ∨
        occursThen p q b = true := by
  induction a with
  | nil =>
    have hnil : occurs p [] = false := by
      cases p with
      | nil => exact absurd rfl hpne
      | cons o p => rfl
    have hthen : occursThen p q [] = false := by
      cases p with
      | nil => exact absurd rfl hpne
      | cons o p => rfl
    rw [List.nil_append, hp.occursThen_word, hthen, hnil]
    simp
  | cons c a ih =>
    have hhere : isPrefix p (c :: (a ++ (w ++ b))) = true ∧
        occurs q ((c :: (a ++ (w ++ b))).drop p.length) = true ↔
          isPrefix p (c :: a) = true ∧
            (occurs q ((c :: a).drop p.length) = true ∨ occurs q b = true) := by
      have hmatch : isPrefix p (c :: (a ++ (w ++ b))) = true ↔ isPrefix p (c :: a) = true :=
        ⟨fun h => hp.isPrefix_around h (by simp), fun h => isPrefix_append h _⟩
      rw [hmatch]
      refine and_congr_right fun h => ?_
      have hdrop : (c :: (a ++ (w ++ b))).drop p.length = (c :: a).drop p.length ++ (w ++ b) := by
        rw [← List.cons_append, List.drop_append_of_le_length (length_le_of_isPrefix h)]
      rw [hdrop, hq.occurs_around hqne]
    rw [List.cons_append, occursThen, occursThen, occurs, Bool.or_eq_true, Bool.or_eq_true,
      Bool.or_eq_true, Bool.and_eq_true, Bool.and_eq_true, hhere, ih]
    constructor
    · rintro (⟨hfirst, hsecond | hbehind⟩ | hin | ⟨hfirst, hbehind⟩ | hbehind)
      · exact .inl (.inl ⟨hfirst, hsecond⟩)
      · exact .inr (.inl ⟨.inl hfirst, hbehind⟩)
      · exact .inl (.inr hin)
      · exact .inr (.inl ⟨.inr hfirst, hbehind⟩)
      · exact .inr (.inr hbehind)
    · rintro ((⟨hfirst, hsecond⟩ | hin) | ⟨hfirst | hfirst, hbehind⟩ | hbehind)
      · exact .inl ⟨hfirst, .inl hsecond⟩
      · exact .inr (.inl hin)
      · exact .inl ⟨hfirst, .inr hbehind⟩
      · exact .inr (.inr (.inl ⟨hfirst, hbehind⟩))
      · exact .inr (.inr (.inr hbehind))

/-! ## Replacing -/

theorem isPrefix_lit (w l : List α) : isPrefix (lit w) l = w.isPrefixOf l := by
  induction w generalizing l with
  | nil => cases l <;> rfl
  | cons c w ih =>
    cases l with
    | nil => rfl
    | cons d l =>
      have hfits : fits (some c) d = (c == d) := by simp [fits, beq_eq_decide]
      show (fits (some c) d && isPrefix (lit w) l) = (c == d && w.isPrefixOf l)
      rw [hfits, ih]

/-- Where there is nothing to replace nothing changes. -/
theorem replaceFirst_cases (hne : w ≠ []) (r l : List α) :
    (occurs (lit w) l = false ∧ replaceFirst w r l = l) ∨
      ∃ a b, l = a ++ (w ++ b) ∧ replaceFirst w r l = a ++ (r ++ b) := by
  induction l with
  | nil =>
    left
    obtain ⟨c, w, rfl⟩ := List.exists_cons_of_ne_nil hne
    exact ⟨rfl, rfl⟩
  | cons c l ih =>
    by_cases hmatch : w.isPrefixOf (c :: l) = true
    · right
      obtain ⟨b, hb⟩ := List.isPrefixOf_iff_prefix.mp hmatch
      refine ⟨[], b, hb.symm, ?_⟩
      rw [replaceFirst, if_pos hmatch, ← hb, List.drop_left, List.nil_append]
    · rw [replaceFirst, if_neg hmatch]
      rcases ih with ⟨hnone, heq⟩ | ⟨a, b, heq, hreplace⟩
      · left
        rw [occurs, hnone, isPrefix_lit, Bool.or_false, heq]
        exact ⟨Bool.eq_false_iff.mpr hmatch, rfl⟩
      · exact .inr ⟨c :: a, b, by rw [heq]; rfl, by rw [hreplace]; rfl⟩

theorem occurs_lit_around (a w b : List α) : occurs (lit w) (a ++ (w ++ b)) = true := by
  refine occurs_of_suffix (List.suffix_append a _) ?_
  have hword : isPrefix (lit w) (w ++ b) = true := by
    rw [isPrefix_lit, List.isPrefixOf_iff_prefix]
    exact List.prefix_append w b
  cases hwb : w ++ b with
  | nil => rwa [hwb] at hword
  | cons c l => rw [occurs, ← hwb, hword, Bool.true_or]

theorem replaceFirst_of_not_occurs (hne : w ≠ []) (h : occurs (lit w) l = false) :
    replaceFirst w r l = l := by
  rcases replaceFirst_cases hne r l with ⟨-, heq⟩ | ⟨a, b, rfl, -⟩
  · exact heq
  · rw [occurs_lit_around] at h
    exact absurd h (by simp)

/-- A word and one of another length: the replacement is seen. -/
theorem replaceFirst_eq_self (hne : w ≠ []) (hlength : w.length ≠ r.length) :
    replaceFirst w r l = l ↔ occurs (lit w) l = false := by
  refine ⟨fun hself => ?_, replaceFirst_of_not_occurs hne⟩
  rcases replaceFirst_cases hne r l with ⟨hnone, -⟩ | ⟨a, b, rfl, heq⟩
  · exact hnone
  · have hsame := congrArg List.length (heq.symm.trans hself)
    simp only [List.length_append] at hsame
    omega

theorem replaceFirst_ne_nil (hw : w ≠ []) (hr : r ≠ []) (hl : l ≠ []) :
    replaceFirst w r l ≠ [] := by
  rcases replaceFirst_cases hw r l with ⟨-, heq⟩ | ⟨a, b, -, heq⟩
  · rwa [heq]
  · rw [heq]
    simp [hr]

/-- No end of the word is a start of it. -/
def Borderless (w : List α) : Prop := ∀ p ∈ (lit w).tail.tails, p ≠ [] → compat p w = false

instance (w : List α) : Decidable (Borderless w) :=
  inferInstanceAs (Decidable (∀ p ∈ (lit w).tail.tails, p ≠ [] → compat p w = false))

/-- A match that starts in front of the word ends there. -/
theorem Borderless.isPrefix_around (hborder : Borderless w) (hne : w ≠ []) {d : α}
    (h : isPrefix (lit w) (d :: (a ++ (w ++ b))) = true) : isPrefix (lit w) (d :: a) = true := by
  obtain ⟨c, v, rfl⟩ := List.exists_cons_of_ne_nil hne
  obtain ⟨hfits, hrest⟩ := Bool.and_eq_true_iff.mp h
  rcases isPrefix_append_cases hrest with hin | ⟨p, hsuffix, hp, hword⟩
  · exact Bool.and_eq_true_iff.mpr ⟨hfits, hin⟩
  · have hclash := hborder p ((List.mem_tails ..).mpr hsuffix) hp
    rw [compat_of_isPrefix hword] at hclash
    exact absurd hclash (by simp)

theorem replaceFirst_word (hne : w ≠ []) (b : List α) : replaceFirst w r (w ++ b) = r ++ b := by
  obtain ⟨c, w, rfl⟩ := List.exists_cons_of_ne_nil hne
  have hword : (c :: w).isPrefixOf (c :: (w ++ b)) = true :=
    List.isPrefixOf_iff_prefix.mpr (List.prefix_append (c :: w) b)
  rw [List.cons_append, replaceFirst, if_pos hword, ← List.cons_append, List.drop_left]

/-- Behind letters without it, the first such word is the one that is seen. -/
theorem replaceFirst_around (hborder : Borderless w) (hne : w ≠ [])
    (h : occurs (lit w) a = false) (b : List α) :
    replaceFirst w r (a ++ (w ++ b)) = a ++ (r ++ b) := by
  induction a with
  | nil => exact replaceFirst_word hne b
  | cons d a ih =>
    rw [occurs, Bool.or_eq_false_iff] at h
    have hstart : ¬w.isPrefixOf (d :: (a ++ (w ++ b))) = true := by
      intro hmatch
      rw [← isPrefix_lit] at hmatch
      rw [hborder.isPrefix_around hne hmatch] at h
      exact absurd h.1 (by simp)
    rw [List.cons_append, replaceFirst, if_neg hstart, ih h.2, List.cons_append]

/-- A replacement is taken back, where the new word was nowhere before. -/
theorem replaceFirst_replaceFirst (hborder : Borderless r) (hw : w ≠ []) (hr : r ≠ [])
    (h : occurs (lit r) l = false) : replaceFirst r w (replaceFirst w r l) = l := by
  rcases replaceFirst_cases hw r l with ⟨-, heq⟩ | ⟨a, b, rfl, heq⟩
  · rw [heq, replaceFirst_of_not_occurs hr h]
  · have ha : occurs (lit r) a = false := by
      rw [← Bool.not_eq_true] at h ⊢
      exact fun hin => h (occurs_append_left hin _)
    rw [heq, replaceFirst_around hborder hr ha]

/-- Which of two words is the first in a line. -/
def firstOf (w r : List α) : List α → Option Bool
  | [] => none
  | c :: l => if w.isPrefixOf (c :: l) then some true
    else if r.isPrefixOf (c :: l) then some false else firstOf w r l

/-- Past a word that `w` does not overlap the replacement goes on behind it. -/
theorem NoClash.replaceFirst_word (h : NoClash (lit w) a) (r b : List α) :
    replaceFirst w r (a ++ b) = a ++ replaceFirst w r b := by
  refine h.induction (P := fun a => replaceFirst w r (a ++ b) = a ++ replaceFirst w r b) b rfl
    fun c a' hstart ih => ?_
  rw [isPrefix_lit] at hstart
  rw [List.cons_append, replaceFirst, hstart, if_neg Bool.false_ne_true, ih, List.cons_append]

/-- A replacement is taken back unless the new word stands in front of the first old one, and
where neither is there is none to take back. -/
theorem replaceFirst_back_iff (hborder : Borderless r) (hclash : NoClash (lit w) r) (hw : w ≠ [])
    (hr : r ≠ []) : replaceFirst r w (replaceFirst w r l) = l ↔ firstOf w r l ≠ some false := by
  induction l with
  | nil => simp [replaceFirst, firstOf]
  | cons c l ih =>
    by_cases hword : w.isPrefixOf (c :: l) = true
    · obtain ⟨b, hb⟩ := List.isPrefixOf_iff_prefix.mp hword
      have hback : replaceFirst r w (replaceFirst w r (c :: l)) = c :: l := by
        rw [← hb, replaceFirst_word hw, replaceFirst_word hr]
      simp [firstOf, hword, hback]
    · by_cases hother : r.isPrefixOf (c :: l) = true
      · obtain ⟨b, hb⟩ := List.isPrefixOf_iff_prefix.mp hother
        -- the new word that was there is the one that goes
        have hback : replaceFirst r w (replaceFirst w r (c :: l)) = w ++ replaceFirst w r b := by
          rw [← hb, hclash.replaceFirst_word, replaceFirst_word hr]
        have hne : replaceFirst r w (replaceFirst w r (c :: l)) ≠ c :: l := by
          rw [hback]
          exact fun heq => hword (List.isPrefixOf_iff_prefix.mpr ⟨_, heq⟩)
        simp [firstOf, hword, hother, hne]
      · -- what is replaced behind does not make the new word start here
        have hstart : ¬r.isPrefixOf (c :: replaceFirst w r l) = true := by
          rcases replaceFirst_cases hw r l with ⟨-, heq⟩ | ⟨a, b, heq, hreplace⟩
          · rwa [heq]
          · intro hmatch
            rw [hreplace, ← isPrefix_lit] at hmatch
            refine hother ?_
            rw [heq, ← isPrefix_lit]
            exact isPrefix_append (hborder.isPrefix_around hr hmatch) (w ++ b)
        rw [replaceFirst, if_neg hword, replaceFirst, if_neg hstart, firstOf, if_neg hword,
          if_neg hother, List.cons.injEq, eq_self, true_and, ih]

/-- Replacing a word makes no difference to a pattern that overlaps neither it nor its
replacement. -/
theorem occurs_replaceFirst (hw : NoClash p w) (hr : NoClash p r) (hne : p ≠ []) (hwne : w ≠ [])
    (l : List α) : occurs p (replaceFirst w r l) = occurs p l := by
  rcases replaceFirst_cases hwne r l with ⟨-, heq⟩ | ⟨a, b, heq, hreplace⟩
  · rw [heq]
  · rw [hreplace, heq, Bool.eq_iff_iff, hw.occurs_around hne, hr.occurs_around hne]

theorem occursThen_replaceFirst (hpw : NoClash p w) (hpr : NoClash p r) (hqw : NoClash q w)
    (hqr : NoClash q r) (hp : p ≠ []) (hq : q ≠ []) (hwne : w ≠ []) (l : List α) :
    occursThen p q (replaceFirst w r l) = occursThen p q l := by
  rcases replaceFirst_cases hwne r l with ⟨-, heq⟩ | ⟨a, b, heq, hreplace⟩
  · rw [heq]
  · rw [hreplace, heq, Bool.eq_iff_iff, hpw.occursThen_around hqw hp hq,
      hpr.occursThen_around hqr hp hq]

end Pattern
