import OemAaMod.Installer.Service

/-!
# Patching a service

`patch_service` of `run.sh`, on the two service manager configs and their backups.

* `target`, `patchService` — the config that is patched, and what happens to both;
* `patchText` — what happens to its text; `sanity_iff` — when the insertion passes its check;
* `AllOrNothing` — the patch is there as a whole or not at all; `allOrNothing_iff`.
-/

namespace OemAaMod.Installer

open CStr (Bytes)
open Pattern (NoClash lit occurs)
open Text (File records grepQ awk sed strip wcL insertBehind)

/-- `sm.conf` and `sm_WCP.conf` -/
inductive Conf
  | sm
  | wcp
deriving DecidableEq

/-- A config and its `.orig`, where they are there. -/
structure ConfFile where
  text : Option (File UInt8) := none
  orig : Option (File UInt8) := none
deriving DecidableEq

/-- The configs, and the libraries in the directory of the mod. -/
@[ext] structure Fs where
  conf : Conf → ConfFile
  lib  : Service → Bool

/-! ## The steps of `patch_service` -/

def bakOrig (f : ConfFile) : ConfFile := if f.orig = none then { f with orig := f.text } else f

/-- The configs that have a stanza of the service. -/
def present (svc : Service) (fs : Fs) : List Conf :=
  [.sm, .wcp].filter fun c => (fs.conf c).text.any (grepQ (names svc))

def target (svc : Service) (fs : Fs) : Option Conf :=
  if .wcp ∈ present svc fs then some .wcp else (present svc fs).head?

/-- The stale lines of a service go, where the config is not the target. -/
def stripStale (svc : Service) (f : ConfFile) : ConfFile :=
  if f.text.any (grepQ (hasToken svc)) then
    { text := f.text.map (strip (hasToken svc)), orig := (bakOrig f).orig }
  else f

/-- The check of the insertion. -/
def sanity (svc : Service) (old new : File UInt8) : Bool :=
  wcL new = wcL old + (injected svc).length && grepQ (hasToken svc) new

def insertText (svc : Service) (t : File UInt8) : File UInt8 :=
  if grepQ (hasToken svc) t then t
  else
    let new := awk t (insertBehind (names svc) (injected svc))
    if sanity svc t new then new else t

/-- The insertion, and `reset_board`. -/
def patchText (svc : Service) (t : File UInt8) : File UInt8 :=
  sed (insertText svc t) (onNaming svc resetNo)

def patchTarget (svc : Service) (f : ConfFile) : ConfFile :=
  { text := f.text.map (patchText svc), orig := (bakOrig f).orig }

def patchService (svc : Service) (fs : Fs) : Fs :=
  match target svc fs with
  | none => fs
  | some c =>
    { fs with
      conf := fun c' =>
        if c' = c then patchTarget svc (fs.conf c')
        else if c' ∈ present svc fs then stripStale svc (fs.conf c')
        else fs.conf c' }

/-! ## All or nothing -/

/-- The file says `SANITY FAILED`. -/
def SanityFailed (svc : Service) (t : File UInt8) : Prop :=
  grepQ (hasToken svc) t = false ∧
    sanity svc t (awk t (insertBehind (names svc) (injected svc))) = false

instance (svc : Service) (t : File UInt8) : Decidable (SanityFailed svc t) :=
  inferInstanceAs (Decidable (_ ∧ _))

/-- The only line of a file that names the service, and what is around it. -/
structure Stanza (svc : Service) (t : File UInt8) (before : List Bytes) (line : Bytes)
    (after : List Bytes) : Prop where
  eq    : records t = before ++ line :: after
  opens : names svc line = true
  only  : ∀ l ∈ before ++ after, names svc l = false

/-- `t'` is `t` but for the injected lines, if they were not there, behind the only line
that names the service, and its `reset_board`. -/
def Patched (svc : Service) (t t' : File UInt8) : Prop :=
  ∃ before line after, Stanza svc t before line after ∧ (t'.rest = [] ↔ t.rest = []) ∧
    records t' = before ++ resetNo line ::
      ((if grepQ (hasToken svc) t then [] else injected svc) ++ after)

/-- `patch_service` leaves a patched file, or, where the check fails, the file as it was. To
run it again changes nothing. -/
def AllOrNothing (svc : Service) (fs : Fs) (c : Conf) (t : File UInt8) : Prop :=
  ∃ t', ((patchService svc fs).conf c).text = some t' ∧ (SanityFailed svc t → t' = t) ∧
    (t' = t ∨ Patched svc t t') ∧ patchService svc (patchService svc fs) = patchService svc fs

/-- The line has a `reset_board` that is rewritten. -/
def rewritten (l : Bytes) : Bool := occurs (lit resetBoardYes) l

/-- No line that names the service has a `reset_board` to rewrite; or one line names it, with
one `reset_board` to rewrite, and the insertion is made already or finds a newline at the
end of the file. -/
def Orderly (svc : Service) (t : File UInt8) : Prop :=
  (∀ l ∈ records t, names svc l = true → rewritten l = false) ∨
    (∃ before line after, Stanza svc t before line after ∧ rewritten (resetNo line) = false) ∧
      (grepQ (hasToken svc) t = true ∨ t.rest = [])

variable {svc : Service} {fs : Fs} {c : Conf} {t : File UInt8}

/-! ## The text -/

/-- The two spellings, as far as the proofs look at them. -/
theorem checked_reset : resetBoardYes.length = 17 ∧ resetBoardNo.length = 16 ∧
    occurs (lit resetBoardYes) resetBoardYes = true := by
  decide +kernel

theorem resetNo_eq_self {l : Bytes} : resetNo l = l ↔ rewritten l = false := by
  rcases Pattern.replaceFirst_cases resetBoard_ne_nil.1 resetBoardNo l with
    ⟨hnone, heq⟩ | ⟨a, b, rfl, heq⟩
  · exact iff_of_true heq hnone
  · refine iff_of_false ?_ ?_
    · -- a replacement is one byte shorter
      intro hself
      have hlength := congrArg List.length (heq.symm.trans hself)
      obtain ⟨hyes, hno, -⟩ := checked_reset
      simp only [List.length_append] at hlength
      omega
    · have hword : occurs (lit resetBoardYes) (resetBoardYes ++ b) = true :=
        Pattern.occurs_append_left checked_reset.2.2 b
      rw [rewritten, Pattern.occurs_of_suffix (List.suffix_append a _) hword]
      simp

theorem names_onNaming {l : Bytes} : names svc (onNaming svc resetNo l) = names svc l :=
  (quiet_resetNo.onNaming svc).names svc l

/-- The rewriting leaves a file as it is if there is nothing to rewrite. -/
theorem sed_resetNo_eq_self : sed t (onNaming svc resetNo) = t ↔
    ∀ l ∈ records t, names svc l = true → rewritten l = false := by
  rw [Text.sed_eq_self (quiet_resetNo.onNaming svc).ne_nil]
  refine forall₂_congr fun l _ => ?_
  unfold onNaming
  by_cases hl : names svc l = true
  · rw [if_pos hl, resetNo_eq_self]
    exact ⟨fun h _ => h, fun h => h hl⟩
  · rw [if_neg hl]
    exact ⟨fun _ h => absurd h hl, fun _ => rfl⟩

theorem records_sed_resetNo : records (sed t (onNaming svc resetNo)) =
    (records t).map (onNaming svc resetNo) :=
  Text.records_sed (quiet_resetNo.onNaming svc).ne_nil

theorem map_onNaming_of_none {ls : List Bytes} (h : ∀ l ∈ ls, names svc l = false) :
    ls.map (onNaming svc resetNo) = ls := by
  refine Text.map_eq_self.mpr fun l hl => ?_
  rw [onNaming, h l hl]
  rfl

/-- A file has one stanza exactly if one line names the service. -/
theorem exists_stanza_iff : (∃ before line after, Stanza svc t before line after) ↔
    (records t).countP (names svc) = 1 := by
  rw [Text.countP_eq_one_iff]
  constructor
  · rintro ⟨before, line, after, h⟩
    exact ⟨before, line, after, h.eq, h.opens, h.only⟩
  · rintro ⟨before, line, after, hrecords, hnames, honly⟩
    exact ⟨before, line, after, hrecords, hnames, honly⟩

/-- The check passes exactly if one line names the service and the file ends in a newline. -/
theorem sanity_iff (htoken : grepQ (hasToken svc) t = false) :
    sanity svc t (awk t (insertBehind (names svc) (injected svc))) = true ↔
      (records t).countP (names svc) = 1 ∧ t.rest = [] := by
  have hlength : wcL (awk t (insertBehind (names svc) (injected svc))) = wcL t +
      (if t.rest = [] then 0 else 1) + (records t).countP (names svc) * (injected svc).length := by
    rw [← Text.length_records, ← Text.length_insertBehind]
    rfl
  have hinjected : (injected svc).length = 1 ∨ (injected svc).length = 2 := by
    cases svc
    · exact .inl rfl
    · exact .inl rfl
    · exact .inr rfl
  unfold sanity
  rw [Bool.and_eq_true, decide_eq_true_eq, hlength]
  constructor
  · rintro ⟨hcount, hfound⟩
    -- with no stanza nothing is inserted, and there is no token to find
    have hpos : 0 < (records t).countP (names svc) := by
      rw [List.countP_pos_iff]
      by_contra hnone
      push Not at hnone
      have hsame := Text.insertBehind_of_none (injected svc)
        fun l hl => Bool.eq_false_iff.mpr (hnone l hl)
      unfold grepQ at hfound htoken
      rw [Text.records_awk, hsame, htoken] at hfound
      exact absurd hfound Bool.false_ne_true
    -- as many lines more as one stanza gets, and none cut short by a missing newline
    obtain hone | htwo := hinjected
    · rw [hone] at hcount
      split at hcount
      · exact ⟨by omega, ‹_›⟩
      · omega
    · rw [htwo] at hcount
      split at hcount
      · exact ⟨by omega, ‹_›⟩
      · omega
  · rintro ⟨hcount, hrest⟩
    refine ⟨by rw [hcount, if_pos hrest, Nat.add_zero, Nat.one_mul], ?_⟩
    obtain ⟨before, line, after, h⟩ := exists_stanza_iff.mpr hcount
    unfold grepQ
    rw [Text.records_awk, h.eq, List.any_eq_true]
    refine ⟨preloadLine svc, ?_, hasToken_preloadLine.mpr rfl⟩
    rw [List.mem_flatMap]
    refine ⟨line, by simp, ?_⟩
    rw [insertBehind, if_pos h.opens]
    simp [injected]

theorem sanityFailed_iff : SanityFailed svc t ↔ grepQ (hasToken svc) t = false ∧
    ¬((records t).countP (names svc) = 1 ∧ t.rest = []) := by
  refine and_congr_right fun htoken => ?_
  rw [← sanity_iff htoken, Bool.not_eq_true]

/-- The text is left as it is, or the lines are inserted in the only stanza. -/
theorem insertText_cases (svc : Service) (t : File UInt8) :
    (insertText svc t = t ∧ (grepQ (hasToken svc) t = true ∨ SanityFailed svc t)) ∨
      (grepQ (hasToken svc) t = false ∧ t.rest = [] ∧ (insertText svc t).rest = [] ∧
        ∃ before line after, Stanza svc t before line after ∧
          records (insertText svc t) = before ++ line :: (injected svc ++ after)) := by
  unfold insertText
  by_cases htoken : grepQ (hasToken svc) t = true
  · rw [if_pos htoken]
    exact .inl ⟨rfl, .inl htoken⟩
  · rw [if_neg htoken]
    have hnone := Bool.eq_false_iff.mpr htoken
    by_cases hsanity : sanity svc t (awk t (insertBehind (names svc) (injected svc))) = true
    · right
      obtain ⟨hcount, hrest⟩ := (sanity_iff hnone).mp hsanity
      obtain ⟨before, line, after, h⟩ := exists_stanza_iff.mpr hcount
      refine ⟨hnone, hrest, ?_⟩
      simp only [if_pos hsanity]
      refine ⟨rfl, before, line, after, h, ?_⟩
      -- nothing is inserted around the stanza
      have hbefore := Text.insertBehind_of_none (injected svc)
        fun l hl => h.only l (List.mem_append_left _ hl)
      have hafter := Text.insertBehind_of_none (injected svc)
        fun l hl => h.only l (List.mem_append_right _ hl)
      rw [Text.records_awk, h.eq, List.flatMap_append, List.flatMap_cons, hbefore, hafter,
        insertBehind, if_pos h.opens, List.cons_append]
    · left
      refine ⟨?_, .inr ⟨hnone, Bool.eq_false_iff.mpr hsanity⟩⟩
      simp only [if_neg hsanity]

theorem grepQ_token_sed : grepQ (hasToken svc) (sed t (onNaming svc resetNo)) =
    grepQ (hasToken svc) t := by
  unfold grepQ
  rw [records_sed_resetNo, List.any_map]
  exact congrArg _ (funext fun l => (quiet_resetNo.onNaming svc).hasToken svc l)

theorem grepQ_names_sed : grepQ (names svc) (sed t (onNaming svc resetNo)) =
    grepQ (names svc) t := by
  unfold grepQ
  rw [records_sed_resetNo, List.any_map]
  exact congrArg _ (funext fun l => names_onNaming)

theorem rest_sed_resetNo : (sed t (onNaming svc resetNo)).rest = [] ↔ t.rest = [] :=
  Text.rest_sed (quiet_resetNo.onNaming svc).ne_nil

/-- Around the stanza nothing is rewritten. -/
theorem Stanza.map_onNaming {before after : List Bytes} {line : Bytes}
    (h : Stanza svc t before line after) (ins : List Bytes)
    (hins : ∀ l ∈ ins, names svc l = false) :
    (before ++ line :: (ins ++ after)).map (onNaming svc resetNo) =
      before ++ resetNo line :: (ins ++ after) := by
  rw [List.map_append, List.map_cons, List.map_append,
    map_onNaming_of_none fun l hl => h.only l (List.mem_append_left _ hl),
    map_onNaming_of_none fun l hl => h.only l (List.mem_append_right _ hl),
    map_onNaming_of_none hins, onNaming, if_pos h.opens]

/-- One stanza, and the insertion is made already or finds a newline: the check passes. -/
theorem not_sanityFailed {before after : List Bytes} {line : Bytes}
    (h : Stanza svc t before line after) (hfits : grepQ (hasToken svc) t = true ∨ t.rest = []) :
    ¬SanityFailed svc t := by
  rw [sanityFailed_iff]
  rintro ⟨hnone, hnot⟩
  rw [hnone] at hfits
  exact hnot ⟨exists_stanza_iff.mp ⟨before, line, after, h⟩,
    hfits.resolve_left Bool.false_ne_true⟩

/-- Behind an insertion, or where there is nothing to insert, a file with a stanza is patched,
and the token is in it. -/
theorem patched_patchText {before after : List Bytes} {line : Bytes}
    (h : Stanza svc t before line after) (hfits : grepQ (hasToken svc) t = true ∨ t.rest = []) :
    Patched svc t (patchText svc t) ∧ grepQ (hasToken svc) (insertText svc t) = true := by
  rcases insertText_cases svc t with ⟨heq, htoken⟩ | ⟨hnone, hrest, hrest', b, l, a, hst, hrecords⟩
  · -- an earlier run has inserted the lines
    replace htoken := htoken.resolve_right (not_sanityFailed h hfits)
    refine ⟨⟨before, line, after, h, ?_, ?_⟩, heq.symm ▸ htoken⟩
    · rw [patchText, heq, rest_sed_resetNo]
    · rw [patchText, heq, records_sed_resetNo, h.eq, if_pos htoken]
      exact h.map_onNaming [] (by simp)
  · refine ⟨⟨b, l, a, hst, ?_, ?_⟩, ?_⟩
    · rw [patchText, rest_sed_resetNo]
      exact iff_of_true hrest' hrest
    · rw [patchText, records_sed_resetNo, hrecords, hnone, if_neg Bool.false_ne_true]
      exact hst.map_onNaming (injected svc) fun _ => names_of_injected
    · unfold grepQ
      rw [hrecords, List.any_eq_true]
      exact ⟨preloadLine svc, by simp [injected], hasToken_preloadLine.mpr rfl⟩

/-- With the token in it, a patched file is patched again as far as there is something to
rewrite. -/
theorem patchText_patchText_iff (htoken : grepQ (hasToken svc) (insertText svc t) = true) :
    patchText svc (patchText svc t) = patchText svc t ↔
      ∀ l ∈ records (insertText svc t), names svc l = true → rewritten (resetNo l) = false := by
  have hagain : patchText svc (patchText svc t) =
      sed (patchText svc t) (onNaming svc resetNo) := by
    -- the second run finds the token and inserts nothing
    have hsame : insertText svc (patchText svc t) = patchText svc t := by
      rw [insertText, if_pos]
      rw [patchText, grepQ_token_sed]
      exact htoken
    conv_lhs => rw [patchText, hsame]
  rw [hagain, sed_resetNo_eq_self, patchText, records_sed_resetNo]
  simp only [List.forall_mem_map, names_onNaming]
  refine forall₂_congr fun l _ => forall_congr' fun hl => ?_
  rw [onNaming, if_pos hl]

/-- Only injected lines are new, and they name no service. -/
theorem mem_of_mem_insertText {svc' : Service} {l : Bytes} (hl : l ∈ records (insertText svc t))
    (hnames : names svc' l = true) : l ∈ records t := by
  rcases insertText_cases svc t with ⟨heq, -⟩ | ⟨-, -, -, before, line, after, h, hrecords⟩
  · rwa [heq] at hl
  · rw [hrecords, List.mem_append, List.mem_cons, List.mem_append] at hl
    rw [h.eq, List.mem_append, List.mem_cons]
    refine hl.imp_right (Or.imp_right fun hl => hl.resolve_left fun hinjected => ?_)
    rw [names_of_injected hinjected] at hnames
    exact absurd hnames Bool.false_ne_true

theorem Stanza.eq_line {before after : List Bytes} {line l : Bytes}
    (h : Stanza svc t before line after) (hl : l ∈ records t) (hnames : names svc l = true) :
    l = line := by
  rw [h.eq, List.mem_append, List.mem_cons] at hl
  by_contra hne
  have hrest : l ∈ before ++ after := by
    rw [List.mem_append]
    exact hl.imp_right fun hl => hl.resolve_left hne
  rw [h.only l hrest] at hnames
  exact absurd hnames Bool.false_ne_true

/-- A file with a stanza is patched for good if its line is. -/
theorem patchText_of_stanza {before after : List Bytes} {line : Bytes}
    (h : Stanza svc t before line after) (hfits : grepQ (hasToken svc) t = true ∨ t.rest = [])
    (hline : rewritten (resetNo line) = false) :
    (SanityFailed svc t → patchText svc t = t) ∧
      (patchText svc t = t ∨ Patched svc t (patchText svc t)) ∧
        patchText svc (patchText svc t) = patchText svc t := by
  obtain ⟨hpatched, htoken⟩ := patched_patchText h hfits
  refine ⟨fun hfailed => absurd hfailed (not_sanityFailed h hfits), .inr hpatched, ?_⟩
  rw [patchText_patchText_iff htoken]
  intro l hl hnames
  rw [h.eq_line (mem_of_mem_insertText hl hnames) hnames]
  exact hline

/-- The text of `allOrNothing_iff`. -/
theorem patchText_iff : ((SanityFailed svc t → patchText svc t = t) ∧
    (patchText svc t = t ∨ Patched svc t (patchText svc t)) ∧
      patchText svc (patchText svc t) = patchText svc t) ↔ Orderly svc t := by
  constructor
  · rintro ⟨hfailed, hcases, hagain⟩
    by_cases hkeep : ∀ l ∈ records t, names svc l = true → rewritten l = false
    · exact .inl hkeep
    right
    rcases insertText_cases svc t with ⟨heq, htoken | hsanity⟩ | ⟨-, hrest, -, b, l, a, h, hrecords⟩
    · -- patched before, and there is something to rewrite
      have hchanged : patchText svc t ≠ t := by
        rwa [patchText, heq, Ne, sed_resetNo_eq_self]
      obtain ⟨before, line, after, h, -⟩ := hcases.resolve_left hchanged
      rw [patchText_patchText_iff (heq.symm ▸ htoken), heq] at hagain
      exact ⟨⟨before, line, after, h, hagain line (by simp [h.eq]) h.opens⟩, .inl htoken⟩
    · -- the check fails and the text stays, but there is something to rewrite
      have hsame := hfailed hsanity
      rw [patchText, heq, sed_resetNo_eq_self] at hsame
      exact absurd hsame hkeep
    · -- inserted just now
      have htoken := (patched_patchText h (.inr hrest)).2
      rw [patchText_patchText_iff htoken] at hagain
      exact ⟨⟨b, l, a, h, hagain l (by simp [hrecords]) h.opens⟩, .inr hrest⟩
  · rintro (hkeep | ⟨⟨before, line, after, h, hline⟩, hfits⟩)
    · rcases insertText_cases svc t with ⟨heq, -⟩ | ⟨-, hrest, -, b, l, a, h, -⟩
      · have hsame : patchText svc t = t := by
          rwa [patchText, heq, sed_resetNo_eq_self]
        exact ⟨fun _ => hsame, .inl hsame, by rw [hsame, hsame]⟩
      · have hl := hkeep l (by simp [h.eq]) h.opens
        exact patchText_of_stanza h (.inr hrest) ((resetNo_eq_self.mpr hl).symm ▸ hl)
    · exact patchText_of_stanza h hfits hline

/-! ## The configs -/

/-- The configs that `grep -q` finds the service in. -/
theorem mem_present : c ∈ present svc fs ↔
    ∃ t, (fs.conf c).text = some t ∧ grepQ (names svc) t = true := by
  unfold present
  cases c <;> simp [Option.any_eq_true]

theorem target_mem (htarget : target svc fs = some c) : c ∈ present svc fs := by
  unfold target at htarget
  split at htarget
  · rename_i hwcp
    exact Option.some_inj.mp htarget ▸ hwcp
  · exact List.mem_of_head? htarget

/-- The target is the one config that is present, or `sm_WCP.conf`. -/
theorem target_eq_iff {c : Conf} : target svc fs = some c ↔
    c ∈ present svc fs ∧ (c = .wcp ∨ .wcp ∉ present svc fs) := by
  constructor
  · intro htarget
    refine ⟨target_mem htarget, ?_⟩
    by_cases hwcp : .wcp ∈ present svc fs
    · rw [target, if_pos hwcp] at htarget
      exact .inl (Option.some_inj.mp htarget).symm
    · exact .inr hwcp
  · rintro ⟨hc, rfl | hwcp⟩
    · rw [target, if_pos hc]
    · -- only `sm.conf` is present
      rw [target, if_neg hwcp]
      cases hhead : (present svc fs).head? with
      | none => rw [List.head?_eq_none_iff.mp hhead] at hc; exact absurd hc List.not_mem_nil
      | some c' =>
        have hc' := List.mem_of_head? hhead
        cases c with
        | wcp => exact absurd hc hwcp
        | sm =>
          cases c' with
          | wcp => exact absurd hc' hwcp
          | sm => rfl

theorem patchService_conf (htarget : target svc fs = some c) (c' : Conf) :
    (patchService svc fs).conf c' = if c' = c then patchTarget svc (fs.conf c')
      else if c' ∈ present svc fs then stripStale svc (fs.conf c') else fs.conf c' := by
  unfold patchService
  rw [htarget]

theorem lib_patchService (svc : Service) (fs : Fs) : (patchService svc fs).lib = fs.lib := by
  unfold patchService
  split <;> rfl

theorem grepQ_names_patchText (h : grepQ (names svc) t = true) :
    grepQ (names svc) (patchText svc t) = true := by
  rw [patchText, grepQ_names_sed]
  rcases insertText_cases svc t with ⟨heq, -⟩ | ⟨-, -, -, before, line, after, hst, hrecords⟩
  · rwa [heq]
  · rw [grepQ, hrecords, List.any_eq_true]
    exact ⟨line, by simp, hst.opens⟩

/-- The target stays the target. -/
theorem target_patchService (htarget : target svc fs = some c) :
    target svc (patchService svc fs) = some c := by
  obtain ⟨hc, hwcp⟩ := target_eq_iff.mp htarget
  rw [target_eq_iff]
  constructor
  · obtain ⟨t, ht, hnames⟩ := mem_present.mp hc
    refine mem_present.mpr ⟨patchText svc t, ?_, grepQ_names_patchText hnames⟩
    rw [patchService_conf htarget, if_pos rfl, patchTarget, ht]
    rfl
  · refine hwcp.imp_right fun hwcp h => hwcp ?_
    -- `sm_WCP.conf` does not name the service, and is left alone
    have hne : Conf.wcp ≠ c := fun heq => hwcp (heq ▸ hc)
    rw [mem_present, patchService_conf htarget, if_neg hne, if_neg hwcp] at h
    exact mem_present.mpr h

@[simp] theorem orig_bakOrig (f : ConfFile) : (bakOrig f).orig = f.orig.or f.text := by
  unfold bakOrig
  by_cases h : f.orig = none
  · rw [if_pos h, h, Option.none_or]
  · obtain ⟨t, ht⟩ := Option.ne_none_iff_exists'.mp h
    rw [if_neg h, ht, Option.some_or]

theorem stripStale_stripStale (svc : Service) (f : ConfFile) :
    stripStale svc (stripStale svc f) = stripStale svc f := by
  by_cases htoken : f.text.any (grepQ (hasToken svc)) = true
  · obtain ⟨t, ht, -⟩ := (Option.any_eq_true ..).mp htoken
    have hstrip : stripStale svc f = ⟨some (strip (hasToken svc) t), f.orig.or (some t)⟩ := by
      rw [stripStale, if_pos htoken, orig_bakOrig, ht]
      rfl
    have hsome : (f.orig.or (some t)).or (some (strip (hasToken svc) t)) = f.orig.or (some t) := by
      cases f.orig <;> rfl
    rw [hstrip, stripStale]
    split
    · -- the token is left, so the strip has kept every line
      rename_i hleft
      have hsame : strip (hasToken svc) t = t := Text.strip_eq_self hleft
      rw [orig_bakOrig, hsome, Option.map_some, hsame, hsame]
    · rfl
  · have hsame : stripStale svc f = f := by
      rw [stripStale, if_neg htoken]
    rw [hsame, hsame]

/-- The target is patched again as far as its text is. -/
theorem patchTarget_patchTarget_iff {f : ConfFile} (ht : f.text = some t) :
    patchTarget svc (patchTarget svc f) = patchTarget svc f ↔
      patchText svc (patchText svc t) = patchText svc t := by
  have hpatch : patchTarget svc f = ⟨some (patchText svc t), f.orig.or (some t)⟩ := by
    rw [patchTarget, orig_bakOrig, ht]
    rfl
  have hsome : (f.orig.or (some t)).or (some (patchText svc t)) = f.orig.or (some t) := by
    cases f.orig <;> rfl
  rw [hpatch, patchTarget, orig_bakOrig, hsome, ConfFile.mk.injEq]
  simp

/-- **`patch_service` is run again without an effect** exactly if the text of the target is. -/
theorem patchService_patchService_iff (htarget : target svc fs = some c)
    (ht : (fs.conf c).text = some t) :
    patchService svc (patchService svc fs) = patchService svc fs ↔
      patchText svc (patchText svc t) = patchText svc t := by
  have htarget' := target_patchService htarget
  rw [← patchTarget_patchTarget_iff ht]
  have hc : (patchService svc fs).conf c = patchTarget svc (fs.conf c) := by
    rw [patchService_conf htarget, if_pos rfl]
  constructor
  · intro h
    have hconf := congrArg (fun fs => fs.conf c) h
    simp only [patchService_conf htarget', if_pos, hc] at hconf
    exact hconf
  · intro h
    have hconf : (patchService svc (patchService svc fs)).conf = (patchService svc fs).conf := by
      funext c'
      rw [patchService_conf htarget' c']
      by_cases hc' : c' = c
      · rw [if_pos hc', hc', hc, h]
      rw [if_neg hc']
      split
      · -- the second run finds the same configs, and strips nothing new
        rename_i hpresent
        by_cases hstale : c' ∈ present svc fs
        · rw [patchService_conf htarget, if_neg hc', if_pos hstale, stripStale_stripStale]
        · rw [mem_present, patchService_conf htarget, if_neg hc', if_neg hstale] at hpresent
          exact absurd (mem_present.mpr hpresent) hstale
      · rfl
    exact Fs.ext hconf (lib_patchService svc _)

/-- **Patching is all or nothing** exactly for an orderly file. -/
theorem allOrNothing_iff (htarget : target svc fs = some c) (ht : (fs.conf c).text = some t) :
    AllOrNothing svc fs c t ↔ Orderly svc t := by
  have htext : ((patchService svc fs).conf c).text = some (patchText svc t) := by
    rw [patchService_conf htarget, if_pos rfl, patchTarget, ht]
    rfl
  unfold AllOrNothing
  rw [← patchText_iff, patchService_patchService_iff htarget ht, htext]
  constructor
  · rintro ⟨t', heq, h⟩
    rw [← Option.some_inj.mp heq] at h
    exact h
  · exact fun h => ⟨_, rfl, h⟩

/-! ## A failed check -/

/-- Two lines name the service, and each resets the board. -/
def twoStanzas : File UInt8 :=
  ⟨[bytes "<service name=\"jcinavi\" reset_board=\"yes\">",
    bytes "<dependency name=\"jcinavi\" reset_board=\"yes\"/>"], []⟩

def fsOf (t : File UInt8) : Fs where
  conf
    | .sm => ⟨some t, none⟩
    | .wcp => {}
  lib _ := false

/-- The check fails, and the file is rewritten. -/
theorem sanityFailed_rewritten : target .jcinavi (fsOf twoStanzas) = some .sm ∧
    ((fsOf twoStanzas).conf .sm).text = some twoStanzas ∧
      ¬AllOrNothing .jcinavi (fsOf twoStanzas) .sm twoStanzas := by
  refine ⟨by decide +kernel, rfl, ?_⟩
  rintro ⟨t', ht', hfailed, -⟩
  have hsanity : SanityFailed .jcinavi twoStanzas := by decide +kernel
  rw [hfailed hsanity] at ht'
  have hne : ((patchService .jcinavi (fsOf twoStanzas)).conf .sm).text ≠ some twoStanzas := by
    decide +kernel
  exact hne ht'

def oneStanza : File UInt8 := ⟨[bytes "<service name=\"jcinavi\" reset_board=\"yes\">"], []⟩

theorem allOrNothing_iff_one : AllOrNothing .jcinavi (fsOf oneStanza) .sm oneStanza ↔
    Orderly .jcinavi oneStanza :=
  allOrNothing_iff (by decide +kernel) rfl

end OemAaMod.Installer
