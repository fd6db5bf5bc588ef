import OemAaMod.Installer.Uninstall

/-!
# Any history of installs and uninstalls

`run.sh` run again and again on the files of one unit, in any mode.

* `Plain` — what the untouched files look like;
* `HistoryConf`, `History` — the files, as the patched services alone determine them;
* `history_install`, `history_uninstall` — a run keeps them so;
* `leftOf` — what installs and uninstalls leave installed;
* `history_of_reach` — after any runs the unit is as after one install of that, or untouched.
-/

namespace OemAaMod.Installer

open CStr (Bytes)
open Pattern (Borderless lit occurs)
open Text (Edited File records grepQ sed strip)

/-- Files with nothing in them that is the installer's own: no name of a library, no library
path, no `reset_board="no"` of a service. They end in a newline, and a line that names a
service names no other and resets the board once. -/
structure Plain (text : Conf → Option (File UInt8)) : Prop where
  token : NoToken text
  rest  : ∀ c p, text c = some p → p.rest = []
  path  : ∀ c p, text c = some p → ∀ l ∈ records p, ldPath l = false
  one   : ∀ c p, text c = some p → ∀ l ∈ records p, ∀ svc svc',
    names svc l = true → names svc' l = true → svc' = svc
  once  : ∀ c p, text c = some p → ∀ l ∈ records p, ∀ svc,
    names svc l = true → rewritten (resetNo l) = false
  never : ∀ c p, text c = some p → ∀ l ∈ records p, ∀ svc,
    names svc l = true → occurs (lit resetBoardNo) l = false

/-- The services, in the order of `run.sh`. -/
def chosen (has : Service → Bool) : List Service := services.filter has

variable {text : Conf → Option (File UInt8)} {c : Conf} {p t : File UInt8} {fs : Fs}
variable {svc : Service} {svcs : List Service} {l : Bytes} {has has' : Service → Bool}
variable {f : ConfFile} {mode : Mode}

@[simp] theorem mem_chosen : svc ∈ chosen has ↔ has svc = true := by
  unfold chosen
  rw [List.mem_filter, and_iff_right (mem_services svc)]

theorem nodup_chosen (has : Service → Bool) : (chosen has).Nodup :=
  List.Nodup.filter has (by decide)

/-! ## Lines -/

theorem checked_borderless : Borderless resetBoardNo := by decide +kernel

/-- What an install does to a `reset_board` an uninstall takes back. -/
theorem resetYes_resetNo (h : occurs (lit resetBoardNo) l = false) : resetYes (resetNo l) = l :=
  Pattern.replaceFirst_replaceFirst checked_borderless resetBoard_ne_nil.1 resetBoard_ne_nil.2 h

theorem resetYes_eq_self (h : occurs (lit resetBoardNo) l = false) : resetYes l = l :=
  Pattern.replaceFirst_of_not_occurs resetBoard_ne_nil.2 h

theorem entries_of_none (hnone : ∀ svc, names svc l = false) : entries text c p svcs l = [] := by
  rw [List.eq_nil_iff_forall_not_mem]
  intro x hx
  obtain ⟨svc, -, hnames, -⟩ := mem_entries.mp hx
  rw [hnone svc] at hnames
  exact Bool.false_ne_true hnames

/-- Behind a line that names one service there are the lines of that service. -/
theorem entries_of_one (hnames : ∀ svc', names svc' l = true ↔ svc' = svc) (hnodup : svcs.Nodup) :
    entries text c p svcs l = if svc ∈ svcs then entry text c p l svc else [] := by
  induction svcs using List.reverseRecOn with
  | nil => rfl
  | append_singleton svcs svc' ih =>
    rw [entries_append, ih (List.nodup_append.mp hnodup).1]
    by_cases heq : svc' = svc
    · subst heq
      have hnew : svc' ∉ svcs := fun hmem =>
        (List.nodup_append.mp hnodup).2.2 svc' hmem svc' (List.mem_singleton_self _) rfl
      simp [hnew]
    · have hne : svc ≠ svc' := fun h => heq h.symm
      have hempty : entry text c p l svc' = [] := if_neg fun h => heq ((hnames svc').mp h.1)
      simp [hne, hempty]

/-- A line names one service, or none. -/
theorem Plain.names_cases (hplain : Plain text) (hc : text c = some p) (hl : l ∈ records p) :
    (∃ svc, ∀ svc', names svc' l = true ↔ svc' = svc) ∨ ∀ svc, names svc l = false := by
  by_cases hnames : ∃ svc, names svc l = true
  · obtain ⟨svc, hsvc⟩ := hnames
    refine .inl ⟨svc, fun svc' => ⟨hplain.one c p hc l hl svc svc' hsvc, ?_⟩⟩
    rintro rfl
    exact hsvc
  · exact .inr fun svc => Bool.eq_false_iff.mpr fun h => hnames ⟨svc, h⟩

/-- On plain lines only what services there are makes a difference, not in what order they
were patched. -/
theorem Plain.edit_congr (hplain : Plain text) (hc : text c = some p) {svcs svcs' : List Service}
    (hnodup : svcs.Nodup) (hnodup' : svcs'.Nodup) (hmem : ∀ svc, svc ∈ svcs ↔ svc ∈ svcs') :
    ∀ l ∈ records p, setNo text c svcs l = setNo text c svcs' l ∧
      entries text c p svcs l = entries text c p svcs' l := by
  intro l hl
  rcases hplain.names_cases hc hl with ⟨svc, hnames⟩ | hnone
  · rw [setNo_of_one hnames hnodup, setNo_of_one hnames hnodup', entries_of_one hnames hnodup,
      entries_of_one hnames hnodup', if_congr (and_congr_left fun _ => hmem svc) rfl rfl,
      if_congr (hmem svc) rfl rfl]
    exact ⟨rfl, rfl⟩
  · rw [setNo_of_none hnone, setNo_of_none hnone, entries_of_none hnone, entries_of_none hnone]
    exact ⟨rfl, rfl⟩

/-! ## The files -/

/-- The text is `p` with the patches of the services `has`, and the backup is `p`; where there
is none, nothing is patched. -/
structure HistoryConf (text : Conf → Option (File UInt8)) (has : Service → Bool) (c : Conf)
    (p t : File UInt8) (f : ConfFile) : Prop where
  eq     : f.text = some t
  edited : Edited (setNo text c (chosen has)) (entries text c p (chosen has)) p t
  orig   : f.orig = some p ∨
    f.orig = none ∧ ∀ svc, has svc = true → target svc (untouched text) ≠ some c

/-- The services `has` are patched on the unit, whatever happened before. -/
structure History (text : Conf → Option (File UInt8)) (has : Service → Bool) (fs : Fs) :
    Prop where
  absent : ∀ c, text c = none → fs.conf c = {}
  conf   : ∀ c p, text c = some p → ∃ t, HistoryConf text has c p t (fs.conf c)

namespace HistoryConf

/-- The same file in the terms of an install. -/
theorem installed (h : HistoryConf text has c p t f) : InstalledConf text (chosen has) c p t
    ⟨some t, if ∃ svc ∈ chosen has, target svc (untouched text) = some c then some p else none⟩ :=
  ⟨rfl, h.edited, rfl⟩

theorem grepQ_names (h : HistoryConf text has c p t f) :
    grepQ (names svc) t = grepQ (names svc) p :=
  h.installed.grepQ_names

/-- A config without a backup is untouched. -/
theorem eq_of_bare (h : HistoryConf text has c p t f)
    (hbare : ∀ svc, has svc = true → target svc (untouched text) ≠ some c) : t = p :=
  h.installed.eq_of_bare fun ⟨svc, hsvc, htarget⟩ => hbare svc (mem_chosen.mp hsvc) htarget

/-- The token is there only where the service is patched. -/
theorem grepQ_token_iff (h : HistoryConf text has c p t f)
    (hp : ∀ l ∈ records p, ∀ svc, hasToken svc l = false) : grepQ (hasToken svc) t = true ↔
      has svc = true ∧ Accepts svc text c p ∧ ∃ l ∈ records p, names svc l = true := by
  rw [h.edited.grepQ_iff]
  constructor
  · rintro ⟨l, hl, htoken | ⟨x, hx, htoken⟩⟩
    · rw [(quiet_setNo _).hasToken, hp l hl] at htoken
      exact absurd htoken Bool.false_ne_true
    · obtain ⟨svc', hmem, hnames, haccepts, hx⟩ := mem_entries.mp hx
      obtain rfl := eq_of_hasToken_injected hx htoken
      exact ⟨mem_chosen.mp hmem, haccepts, l, hl, hnames⟩
  · rintro ⟨hhas, haccepts, l, hl, hnames⟩
    refine ⟨l, hl, .inr ⟨preloadLine svc, ?_, hasToken_preloadLine.mpr rfl⟩⟩
    exact mem_entries.mpr ⟨svc, mem_chosen.mpr hhas, hnames, haccepts, List.mem_cons_self⟩

theorem grepQ_token_of_other (h : HistoryConf text has c p t f)
    (hp : ∀ l ∈ records p, ∀ svc, hasToken svc l = false)
    (htarget : target svc (untouched text) ≠ some c) : grepQ (hasToken svc) t = false := by
  rw [← Bool.not_eq_true, h.grepQ_token_iff hp]
  exact fun hfound => htarget hfound.2.1.1

/-- A service that is patched already is patched again without an effect. -/
theorem patchText_eq_self (hplain : Plain text) (hc : text c = some p)
    (h : HistoryConf text has c p t f) (hhas : has svc = true)
    (htarget : target svc (untouched text) = some c) : patchText svc t = t := by
  have hp := hplain.token c p hc
  have hinsert : insertText svc t = t := by
    rcases insertText_cases svc t with ⟨heq, -⟩ | ⟨hnone, -, -, before, line, after, hst, -⟩
    · exact heq
    · -- the only line that names it has its lines behind it
      exfalso
      have hcount : (records p).countP (names svc) = 1 := by
        rw [← h.edited.countP ((quiet_setNo _).names svc) fun l _ x hx => names_of_mem_entries hx]
        exact exists_stanza_iff.mp ⟨before, line, after, hst⟩
      have haccepts : Accepts svc text c p := by
        refine ⟨htarget, fun hfailed => ?_⟩
        exact (sanityFailed_iff.mp hfailed).2 ⟨hcount, hplain.rest c p hc⟩
      rw [Bool.eq_false_iff] at hnone
      exact hnone ((h.grepQ_token_iff hp).mpr
        ⟨hhas, haccepts, exists_names_of_accepts hp haccepts⟩)
  rw [patchText, hinsert, sed_resetNo_eq_self]
  intro x hx hnames
  rw [h.edited.records, List.mem_flatMap] at hx
  obtain ⟨l, hl, hx⟩ := hx
  rcases List.mem_cons.mp hx with rfl | hx
  · rw [(quiet_setNo _).names] at hnames
    have hone : ∀ svc', names svc' l = true ↔ svc' = svc := fun svc' =>
      ⟨hplain.one c p hc l hl svc svc' hnames, fun heq => heq ▸ hnames⟩
    rw [setNo_of_one hone (nodup_chosen has), if_pos ⟨mem_chosen.mpr hhas, htarget⟩]
    exact hplain.once c p hc l hl svc hnames
  · rw [names_of_mem_entries hx] at hnames
    exact absurd hnames Bool.false_ne_true

/-- The patch adds its service to those that are there. -/
theorem edited_patchText (hplain : Plain text) (hc : text c = some p)
    (h : HistoryConf text has c p t f) (htarget : target svc (untouched text) = some c)
    (hhas' : ∀ svc', has' svc' = true ↔ has svc' = true ∨ svc' = svc) :
    Edited (setNo text c (chosen has')) (entries text c p (chosen has')) p (patchText svc t) := by
  by_cases hhas : has svc = true
  · have hmem : ∀ svc', svc' ∈ chosen has ↔ svc' ∈ chosen has' := by
      intro svc'
      rw [mem_chosen, mem_chosen, hhas', or_iff_left_of_imp]
      rintro rfl
      exact hhas
    rw [h.patchText_eq_self hplain hc hhas htarget]
    exact h.edited.congr (hplain.edit_congr hc (nodup_chosen _) (nodup_chosen _) hmem)
  · have hnew : svc ∉ chosen has := fun hmem => hhas (mem_chosen.mp hmem)
    have hmem : ∀ svc', svc' ∈ chosen has ++ [svc] ↔ svc' ∈ chosen has' := by
      intro svc'
      rw [List.mem_append, List.mem_singleton, mem_chosen, mem_chosen, hhas']
    have hnodup : (chosen has ++ [svc]).Nodup := by
      rw [List.nodup_append]
      refine ⟨nodup_chosen has, List.nodup_singleton svc, fun svc' hsvc' x hx heq => ?_⟩
      rw [List.mem_singleton.mp hx] at heq
      exact hnew (heq ▸ hsvc')
    have hpatched := h.installed.patched hnew (hplain.token c p hc) htarget
    exact hpatched.edited.congr (hplain.edit_congr hc hnodup (nodup_chosen _) hmem)

/-- A service that is patched elsewhere makes no difference. -/
theorem edited_other (hplain : Plain text) (hc : text c = some p)
    (h : HistoryConf text has c p t f) (htarget : target svc (untouched text) ≠ some c)
    (hhas' : ∀ svc', has' svc' = true ↔ has svc' = true ∨ svc' = svc) :
    Edited (setNo text c (chosen has')) (entries text c p (chosen has')) p t := by
  refine h.edited.congr fun l hl => ?_
  rcases hplain.names_cases hc hl with ⟨svc', hnames⟩ | hnone
  · have hiff : svc' ≠ svc → (has svc' = true ↔ has' svc' = true) := fun hne => by
      rw [hhas', or_iff_left hne]
    rw [setNo_of_one hnames (nodup_chosen _), setNo_of_one hnames (nodup_chosen _),
      entries_of_one hnames (nodup_chosen _), entries_of_one hnames (nodup_chosen _)]
    simp only [mem_chosen]
    by_cases heq : svc' = svc
    · have hempty : entry text c p l svc' = [] := if_neg fun h => htarget (heq ▸ h.2.1)
      rw [hempty, ite_self, ite_self, if_neg fun h => htarget (heq ▸ h.2),
        if_neg fun h => htarget (heq ▸ h.2)]
      exact ⟨rfl, rfl⟩
    · rw [if_congr (and_congr_left fun _ => hiff heq) rfl rfl, if_congr (hiff heq) rfl rfl]
      exact ⟨rfl, rfl⟩
  · rw [setNo_of_none hnone, setNo_of_none hnone, entries_of_none hnone, entries_of_none hnone]
    exact ⟨rfl, rfl⟩

end HistoryConf

/-! ## Install -/

theorem History.target_eq (h : History text has fs) :
    target svc fs = target svc (untouched text) := by
  have hpresent : ∀ c, c ∈ present svc fs ↔ c ∈ present svc (untouched text) := by
    intro c
    rw [mem_present, mem_present]
    cases hc : text c with
    | none =>
      rw [h.absent c hc]
      simp [untouched, hc]
    | some p =>
      obtain ⟨t, ht⟩ := h.conf c p hc
      rw [ht.eq]
      simp [untouched, hc, ht.grepQ_names]
  refine Option.ext fun c => ?_
  rw [target_eq_iff, target_eq_iff, hpresent, hpresent]

/-- **A service is patched**, whatever was installed before. -/
theorem History.patchService (hplain : Plain text) (h : History text has fs)
    (hhas' : ∀ svc', has' svc' = true ↔ has svc' = true ∨ svc' = svc) :
    History text has' (patchService svc fs) := by
  cases htarget : target svc fs with
  | none =>
    have hsame : Installer.patchService svc fs = fs := by
      unfold Installer.patchService
      rw [htarget]
    rw [h.target_eq] at htarget
    rw [hsame]
    refine ⟨h.absent, fun c p hc => ?_⟩
    obtain ⟨t, ht⟩ := h.conf c p hc
    refine ⟨t, ht.eq, ht.edited_other hplain hc (by simp [htarget]) hhas', ?_⟩
    refine ht.orig.imp_right fun hbare => ⟨hbare.1, fun svc' hsvc' => ?_⟩
    rcases (hhas' svc').mp hsvc' with hsvc' | rfl
    · exact hbare.2 svc' hsvc'
    · simp [htarget]
  | some c₀ =>
    constructor
    · intro c hc
      have hnot : c ∉ present svc fs := by
        intro hpresent
        obtain ⟨t, ht, -⟩ := mem_present.mp hpresent
        rw [h.absent c hc] at ht
        exact absurd ht (by simp)
      have hne : c ≠ c₀ := fun heq => hnot (heq ▸ target_mem htarget)
      rw [patchService_conf htarget, if_neg hne, if_neg hnot]
      exact h.absent c hc
    · intro c p hc
      obtain ⟨t, ht⟩ := h.conf c p hc
      rw [patchService_conf htarget]
      rw [h.target_eq] at htarget
      split
      · rename_i heq
        refine ⟨patchText svc t, by rw [patchTarget, ht.eq]; rfl,
          ht.edited_patchText hplain hc (heq ▸ htarget) hhas', .inl ?_⟩
        -- the first backup is the untouched file
        rw [patchTarget, orig_bakOrig, ht.eq]
        rcases ht.orig with horig | ⟨horig, hbare⟩
        · rw [horig, Option.some_or]
        · rw [horig, Option.none_or, ht.eq_of_bare hbare]
      · rename_i hne
        have hother : target svc (untouched text) ≠ some c := fun heq =>
          hne (Option.some_inj.mp (heq.symm.trans htarget))
        have hsame : stripStale svc (fs.conf c) = fs.conf c := by
          rw [stripStale, ht.eq, Option.any_some,
            ht.grepQ_token_of_other (hplain.token c p hc) hother, if_neg Bool.false_ne_true]
        rw [hsame, ite_self]
        refine ⟨t, ht.eq, ht.edited_other hplain hc hother hhas', ?_⟩
        refine ht.orig.imp_right fun hbare => ⟨hbare.1, fun svc' hsvc' => ?_⟩
        rcases (hhas' svc').mp hsvc' with hsvc' | rfl
        · exact hbare.2 svc' hsvc'
        · exact hother

theorem history_patchServices (hplain : Plain text) (svcs : List Service)
    (h : History text has fs) (hhas' : ∀ svc, has' svc = true ↔ has svc = true ∨ svc ∈ svcs) :
    History text has' (patchServices svcs fs) := by
  induction svcs generalizing has fs with
  | nil =>
    have heq : has' = has := by
      funext svc
      rw [Bool.eq_iff_iff, hhas', or_iff_left List.not_mem_nil]
    rwa [heq]
  | cons svc svcs ih =>
    have hone : History text (fun svc' => has svc' || decide (svc' = svc))
        (Installer.patchService svc fs) := h.patchService hplain fun svc' => by simp
    refine ih hone fun svc' => ?_
    rw [hhas', List.mem_cons]
    simp [or_assoc]

/-- An install adds the services of its mode. -/
theorem history_install (hplain : Plain text) (h : History text fs.lib fs) (mode : Mode) :
    History text (install mode fs).lib (install mode fs) := by
  have hcopied : History text fs.lib (copyLibs mode fs) := ⟨h.absent, h.conf⟩
  refine history_patchServices hplain mode.services hcopied fun svc => ?_
  rw [lib_install, Bool.or_eq_true, decide_eq_true_eq]

/-! ## Uninstall -/

/-- The uninstall of one integration keeps the line. -/
def leaves (mode : Mode) (x : Bytes) : Bool :=
  (mode.services.all fun svc => !hasToken svc x) &&
    (decide (.jciCARPLAY ∉ mode.services) || !ldPath x)

/-- It keeps the injected lines of the services that are not its own, and no others. -/
theorem checked_leaves : ∀ mode ∈ [Mode.both, .aa, .carplay], ∀ svc ∈ services,
    ∀ x ∈ injected svc, leaves mode x = decide (svc ∉ mode.services) := by
  decide +kernel

theorem leaves_of_injected {x : Bytes} (hx : x ∈ injected svc) :
    leaves mode x = decide (svc ∉ mode.services) :=
  checked_leaves mode (by cases mode <;> simp) svc (mem_services svc) x hx

/-- What the uninstall does to a line and to what is behind it. -/
theorem Plain.edit_leaves (hplain : Plain text) (hc : text c = some p)
    (hhas' : ∀ svc, has' svc = true ↔ has svc = true ∧ svc ∉ mode.services)
    (hl : l ∈ records p) :
    setYes mode.services (setNo text c (chosen has) l) = setNo text c (chosen has') l ∧
      (entries text c p (chosen has) l).filter (leaves mode) =
        entries text c p (chosen has') l := by
  have hnodup : mode.services.Nodup := by cases mode <;> decide
  rcases hplain.names_cases hc hl with ⟨svc, hnames⟩ | hnone
  · have hnever := hplain.never c p hc l hl svc ((hnames svc).mpr rfl)
    rw [setYes_of_one hnames (fun svc => (quiet_setNo _).names svc l) hnodup,
      setNo_of_one hnames (nodup_chosen _), setNo_of_one hnames (nodup_chosen _),
      entries_of_one hnames (nodup_chosen _), entries_of_one hnames (nodup_chosen _)]
    simp only [mem_chosen]
    by_cases hsvc : svc ∈ mode.services
    · -- its own service: the lines go, and the attribute is as it was
      have hgone : ¬has' svc = true := fun h => ((hhas' svc).mp h).2 hsvc
      have hkept : ¬(has' svc = true ∧ target svc (untouched text) = some c) :=
        fun h => hgone h.1
      rw [if_pos hsvc, if_neg hkept, if_neg hgone]
      constructor
      · split
        · exact resetYes_resetNo hnever
        · exact resetYes_eq_self hnever
      · split
        · refine filter_entry_nil fun x hx => ?_
          rw [leaves_of_injected hx, decide_eq_false (not_not_intro hsvc)]
        · rfl
    · have hsame : has' svc = true ↔ has svc = true := by
        rw [hhas', and_iff_left hsvc]
      rw [if_neg hsvc, if_congr (and_congr_left fun _ => hsame) rfl rfl, if_congr hsame rfl rfl]
      refine ⟨rfl, ?_⟩
      split
      · refine filter_entry_self fun x hx => ?_
        rw [leaves_of_injected hx, decide_eq_true hsvc]
      · rfl
  · rw [setNo_of_none hnone, setNo_of_none hnone, setYes_of_none hnone, entries_of_none hnone,
      entries_of_none hnone]
    exact ⟨rfl, rfl⟩

/-- The text behind the uninstall of one integration is patched as if its services had never
been installed. -/
theorem HistoryConf.edited_removeText (hplain : Plain text) (hc : text c = some p)
    (h : HistoryConf text has c p t f)
    (hhas' : ∀ svc, has' svc = true ↔ has svc = true ∧ svc ∉ mode.services) :
    Edited (setNo text c (chosen has')) (entries text c p (chosen has')) p (removeText mode t) := by
  have hp := hplain.token c p hc
  have hrest := hplain.rest c p hc
  have hunpatch := edited_unpatchTexts mode.services h.edited (hasToken_setNo hp)
    fun l _ => rest_of_entries hp l
  have hstrip : Edited (setNo text c (chosen has))
      (fun l => (entries text c p (chosen has) l).filter (leaves mode)) p
      (if .jciCARPLAY ∈ mode.services then strip ldPath (unpatchTexts mode.services t)
        else unpatchTexts mode.services t) := by
    split
    · rename_i hcarplay
      have hpath : ∀ l ∈ records p, ldPath (setNo text c (chosen has) l) = false := fun l hl =>
        ((quiet_setNo _).ldPath l).trans (hplain.path c p hc l hl)
      refine (hunpatch.strip hpath hrest).congr fun l _ => ⟨rfl, ?_⟩
      rw [List.filter_filter]
      refine List.filter_congr fun x _ => ?_
      rw [leaves, decide_eq_false (not_not_intro hcarplay), Bool.false_or, Bool.and_comm]
    · rename_i hcarplay
      refine hunpatch.congr fun l _ => ⟨rfl, List.filter_congr fun x _ => ?_⟩
      rw [leaves, decide_eq_true hcarplay, Bool.true_or, Bool.and_true]
  refine (edited_setYes mode.services hstrip fun l _ x hx svc => ?_).congr
    fun l hl => hplain.edit_leaves hc hhas' hl
  exact names_of_mem_entries (List.mem_of_mem_filter hx)

/-! ## What is restored -/

/-- The config is untouched, or its backup is the untouched file. -/
def Restorable (p : Option (File UInt8)) (f : ConfFile) : Prop :=
  f = ⟨p, none⟩ ∨ f.text ≠ none ∧ p ≠ none ∧ f.orig = p

theorem History.restorable (h : History text has fs) (c : Conf) :
    Restorable (text c) (fs.conf c) := by
  cases hc : text c with
  | none => exact .inl (h.absent c hc)
  | some p =>
    obtain ⟨t, ht⟩ := h.conf c p hc
    rcases ht.orig with horig | ⟨horig, hbare⟩
    · exact .inr ⟨by simp [ht.eq], by simp, horig⟩
    · left
      rw [← ht.eq_of_bare hbare, ← ht.eq, ← horig]

theorem Restorable.restoreOrig {o : Option (File UInt8)} (h : Restorable o f) :
    (if f.text = none then f else (restoreOrig f).getD f) = ⟨o, none⟩ := by
  rcases h with rfl | ⟨htext, ho, horig⟩
  · exact ite_self _
  · obtain ⟨p, rfl⟩ := Option.ne_none_iff_exists'.mp ho
    rw [if_neg htext, Installer.restoreOrig, horig]
    rfl

/-- There is nothing to remove in an untouched file. -/
theorem Plain.unpatchTexts (hplain : Plain text) (hc : text c = some p) :
    unpatchTexts svcs p = p :=
  (edited_unpatchTexts svcs (Edited.refl p) (hplain.token c p hc)
    fun _ _ _ => hplain.rest c p hc).eq (Edited.refl p) fun _ _ => ⟨rfl, rfl⟩

theorem Plain.strip (hplain : Plain text) (hc : text c = some p) : strip ldPath p = p :=
  ((Edited.refl p).strip (hplain.path c p hc) (hplain.rest c p hc)).eq (Edited.refl p)
    fun _ _ => ⟨rfl, rfl⟩

theorem Restorable.unpatchTexts (hplain : Plain text) (h : Restorable (text c) f) :
    Restorable (text c) (mapText (unpatchTexts svcs) f) := by
  rcases h with rfl | ⟨htext, hne, horig⟩
  · left
    cases hc : text c with
    | none => rfl
    | some p => rw [mapText, Option.map_some, hplain.unpatchTexts hc]
  · refine .inr ⟨?_, hne, horig⟩
    rwa [mapText, Ne, Option.map_eq_none_iff]

/-- The uninstall of both brings the one config back, and the other can come back still. -/
theorem restoreOrStrip_restorable (hplain : Plain text)
    (h : ∀ c, Restorable (text c) (fs.conf c)) (c : Conf) :
    (restoreOrStrip fs c).conf c = ⟨text c, none⟩ ∧
      ∀ c', Restorable (text c') ((restoreOrStrip fs c).conf c') ∧
        (fs.conf c' = ⟨text c', none⟩ → (restoreOrStrip fs c).conf c' = ⟨text c', none⟩) := by
  have hhere := (h c).restoreOrig
  unfold restoreOrStrip
  split
  · rename_i hnone
    rw [if_pos hnone] at hhere
    exact ⟨hhere, fun c' => ⟨h c', id⟩⟩
  · rename_i hsome
    rw [if_neg hsome] at hhere
    cases hrestore : restoreOrig (fs.conf c) with
    | some f =>
      rw [hrestore, Option.getD_some] at hhere
      simp only [Fs.setConf, Function.update_self]
      refine ⟨hhere, fun c' => ?_⟩
      by_cases hc' : c' = c
      · subst hc'
        rw [Function.update_self]
        exact ⟨.inl hhere, fun _ => hhere⟩
      · rw [Function.update_of_ne hc']
        exact ⟨h c', id⟩
    | none =>
      rw [hrestore, Option.getD_none] at hhere
      simp only [unpatchServices_eq, Fs.setConf, Function.update_self, Fs.mapConf]
      have hback : mapText (strip ldPath)
          (mapText (unpatchTexts Mode.both.services) (fs.conf c)) = ⟨text c, none⟩ := by
        rw [hhere]
        cases hc : text c with
        | none => rfl
        | some p =>
          rw [mapText, mapText, Option.map_some, Option.map_some, hplain.unpatchTexts hc,
            hplain.strip hc]
      refine ⟨hback, fun c' => ?_⟩
      by_cases hc' : c' = c
      · subst hc'
        rw [Function.update_self]
        exact ⟨.inl hback, fun _ => hback⟩
      · rw [Function.update_of_ne hc']
        refine ⟨(h c').unpatchTexts hplain, fun huntouched => ?_⟩
        rw [huntouched]
        cases hc : text c' with
        | none => rfl
        | some p => rw [mapText, Option.map_some, hplain.unpatchTexts hc]

/-- **An uninstall of both** leaves nothing of any history. -/
theorem uninstall_both (hplain : Plain text) (h : History text has fs) :
    uninstall .both fs = untouched text := by
  have hsm := restoreOrStrip_restorable hplain h.restorable .sm
  have hwcp := restoreOrStrip_restorable hplain (fun c => (hsm.2 c).1) .wcp
  have hconf : ∀ c, (restoreOrStrip (restoreOrStrip fs .sm) .wcp).conf c = ⟨text c, none⟩
    | .sm => (hwcp.2 .sm).2 hsm.1
    | .wcp => hwcp.1
  refine Fs.ext (funext hconf) (funext fun svc => ?_)
  have hall : svc ∈ Mode.both.services := by cases svc <;> decide
  show ((restoreOrStrip (restoreOrStrip fs .sm) .wcp).lib svc &&
    decide (svc ∉ Mode.both.services)) = false
  rw [decide_eq_false (not_not_intro hall), Bool.and_false]

/-- The uninstall of the last integration does so too. -/
theorem uninstall_last (hmode : mode ≠ .both) (h : History text has (removeFeature mode fs))
    (hlast : ∀ svc, (uninstall mode fs).lib svc = false) : uninstall mode fs = untouched text := by
  have hgone : ∀ svc, (removeLibs mode (removeFeature mode fs)).lib svc = false := by
    intro svc
    rw [← hlast svc, lib_uninstall hmode, removeFeature_eq]
    rfl
  refine Fs.ext ?_ (funext hlast)
  funext c
  unfold uninstall restoreLast
  simp only [if_neg hmode]
  rw [if_pos ⟨hmode, hgone _, hgone _, hgone _⟩]
  exact (h.restorable c).restoreOrig

theorem history_untouched : History text (fun _ => false) (untouched text) where
  absent c hc := by
    show (⟨text c, none⟩ : ConfFile) = {}
    rw [hc]
  conf c p hc := ⟨p, hc, Edited.refl p, .inr ⟨rfl, fun _ h => absurd h Bool.false_ne_true⟩⟩

/-- An uninstall takes the services of its mode away. -/
theorem history_uninstall (hplain : Plain text) (h : History text fs.lib fs) (mode : Mode) :
    History text (uninstall mode fs).lib (uninstall mode fs) ∧
      ((∀ svc, (uninstall mode fs).lib svc = false) → uninstall mode fs = untouched text) := by
  by_cases hmode : mode = .both
  · rw [hmode, uninstall_both hplain h]
    exact ⟨history_untouched, fun _ => rfl⟩
  · have hremoved : History text (uninstall mode fs).lib (removeFeature mode fs) := by
      have hhas' : ∀ svc, (uninstall mode fs).lib svc = true ↔
          fs.lib svc = true ∧ svc ∉ mode.services := by
        intro svc
        rw [lib_uninstall hmode, Bool.and_eq_true, decide_eq_true_eq]
      rw [removeFeature_eq]
      refine ⟨fun c hc => ?_, fun c p hc => ?_⟩
      · show mapText (removeText mode) (fs.conf c) = {}
        rw [h.absent c hc]
        rfl
      · obtain ⟨t, ht⟩ := h.conf c p hc
        refine ⟨removeText mode t, ?_, ht.edited_removeText hplain hc hhas', ?_⟩
        · show (fs.conf c).text.map (removeText mode) = _
          rw [ht.eq, Option.map_some]
        · exact ht.orig.imp_right fun hbare =>
            ⟨hbare.1, fun svc hsvc => hbare.2 svc ((hhas' svc).mp hsvc).1⟩
    by_cases hlast : ∀ svc, (uninstall mode fs).lib svc = false
    · have huntouched := uninstall_last hmode hremoved hlast
      rw [huntouched]
      exact ⟨history_untouched, fun _ => rfl⟩
    · refine ⟨?_, fun h => absurd h hlast⟩
      push Not at hlast
      obtain ⟨svc, hsvc⟩ := hlast
      rw [ne_eq, Bool.not_eq_false, lib_uninstall hmode, Bool.and_eq_true,
        decide_eq_true_eq] at hsvc
      have hconf : (uninstall mode fs).conf = (removeFeature mode fs).conf := by
        funext c
        rw [uninstall_conf_of_left hmode ⟨svc, hsvc⟩, removeFeature_eq]
        rfl
      exact ⟨fun c hc => hconf ▸ hremoved.absent c hc, fun c p hc => hconf ▸ hremoved.conf c p hc⟩

/-! ## Runs -/

/-- A run of the installer. -/
def Runs (_ : Fs) : Action → Prop
  | .install _ => True
  | .uninstall _ => True
  | _ => False

instance (fs : Fs) : (a : Action) → Decidable (Runs fs a)
  | .install _ => isTrue trivial
  | .uninstall _ => isTrue trivial
  | .appear => isFalse id
  | .disappear => isFalse id

/-- What a run leaves installed, of what was: an install adds its integrations, an uninstall
takes its own. -/
def leftBy : Option Mode → Action → Option Mode
  | none, .install mode => some mode
  | some mode', .install mode => some (if mode' = mode then mode else .both)
  | none, .uninstall _ => none
  | some .both, .uninstall .aa => some .carplay
  | some .both, .uninstall .carplay => some .aa
  | some mode', .uninstall mode => if mode = .both ∨ mode = mode' then none else some mode'
  | m, .appear => m
  | m, .disappear => m

/-- What a history leaves installed. -/
def leftOf (as : List Action) : Option Mode := as.foldl leftBy none

@[simp] theorem leftOf_append (as : List Action) (a : Action) :
    leftOf (as ++ [a]) = leftBy (leftOf as) a := by
  simp [leftOf]

def servicesOf : Option Mode → List Service
  | none => []
  | some mode => mode.services

/-- The libraries are those of what is installed. -/
def LibsOf (m : Option Mode) (lib : Service → Bool) : Prop :=
  ∀ svc, lib svc = decide (svc ∈ servicesOf m)

theorem libsOf_install {m : Option Mode} (h : LibsOf m fs.lib) (mode : Mode) :
    LibsOf (leftBy m (.install mode)) (install mode fs).lib := by
  intro svc
  rw [lib_install, h svc]
  cases m with
  | none => rfl
  | some mode' => cases mode <;> cases mode' <;> cases svc <;> rfl

theorem libsOf_uninstall {m : Option Mode} (hplain : Plain text) (hfs : History text fs.lib fs)
    (h : LibsOf m fs.lib) (mode : Mode) :
    LibsOf (leftBy m (.uninstall mode)) (uninstall mode fs).lib := by
  intro svc
  by_cases hmode : mode = .both
  · -- it does not ask what there is
    rw [hmode, uninstall_both hplain hfs]
    cases m with
    | none => rfl
    | some mode' => cases mode' <;> rfl
  · rw [lib_uninstall hmode, h svc]
    cases mode with
    | both => exact absurd rfl hmode
    | aa =>
      cases m with
      | none => rfl
      | some mode' => cases mode' <;> cases svc <;> rfl
    | carplay =>
      cases m with
      | none => rfl
      | some mode' => cases mode' <;> cases svc <;> rfl

/-- What the invariant of a run says, where the history has left `m`. -/
structure HistoryInv (text : Conf → Option (File UInt8)) (m : Option Mode) (fs : Fs) : Prop where
  history : History text fs.lib fs
  libs    : LibsOf m fs.lib
  clean   : (∀ svc, fs.lib svc = false) → fs = untouched text

theorem historyInv_step {wcp : File UInt8} {fs' : Fs} {m : Option Mode} {a : Action}
    (hplain : Plain text) (h : HistoryInv text m fs) (hguard : Runs fs a)
    (hstep : step wcp fs a = some fs') : HistoryInv text (leftBy m a) fs' := by
  cases a with
  | install mode =>
    rw [← Option.some_inj.mp hstep]
    refine ⟨history_install hplain h.history mode, libsOf_install h.libs mode, fun hnone => ?_⟩
    -- an install leaves a library
    have hlib : ∀ svc ∈ mode.services, (install mode fs).lib svc = true := by
      intro svc hsvc
      rw [lib_install, decide_eq_true hsvc, Bool.or_true]
    have hsome : ∃ svc, svc ∈ mode.services := by
      cases mode
      · exact ⟨.jciAAPA, by decide⟩
      · exact ⟨.jciAAPA, by decide⟩
      · exact ⟨.jciCARPLAY, by decide⟩
    obtain ⟨svc, hsvc⟩ := hsome
    have hgone := hnone svc
    rw [hlib svc hsvc] at hgone
    exact absurd hgone (by simp)
  | uninstall mode =>
    rw [← Option.some_inj.mp hstep]
    obtain ⟨hhistory, hclean⟩ := history_uninstall hplain h.history mode
    exact ⟨hhistory, libsOf_uninstall hplain h.history h.libs mode, hclean⟩
  | appear => exact hguard.elim
  | disappear => exact hguard.elim

theorem historyInv_of_trace {wcp : File UInt8} {tr : List (Fs × Action)} (hplain : Plain text)
    (h : Run.Trace (step wcp) Runs (untouched text) tr fs) :
    HistoryInv text (leftOf (tr.map Prod.snd)) fs := by
  induction h with
  | start => exact ⟨history_untouched, fun _ => rfl, fun _ => rfl⟩
  | next _ hstep hguard ih =>
    rw [List.map_append, List.map_singleton, leftOf_append]
    exact historyInv_step hplain ih hguard hstep

/-- **A unit has no memory of what was installed before.** After any installs and uninstalls
its configs are as after one install of the mode that they leave, with the untouched file in
every backup; and where they leave none everything is untouched. -/
theorem history_of_reach {wcp : File UInt8} {tr : List (Fs × Action)} (hplain : Plain text)
    (h : Run.Trace (step wcp) Runs (untouched text) tr fs) :
    (leftOf (tr.map Prod.snd) = none → fs = untouched text) ∧
    ∀ mode, leftOf (tr.map Prod.snd) = some mode →
      (∀ svc, fs.lib svc = decide (svc ∈ mode.services)) ∧
      ∀ c, (fs.conf c).text = ((install mode (untouched text)).conf c).text ∧
        ((fs.conf c).orig = none ∨ (fs.conf c).orig = text c) := by
  have hinv := historyInv_of_trace hplain h
  refine ⟨fun hnone => hinv.clean fun svc => ?_, fun mode hmode => ?_⟩
  · rw [hinv.libs, hnone]
    rfl
  · have hlib : ∀ svc, fs.lib svc = decide (svc ∈ mode.services) := by
      intro svc
      rw [hinv.libs, hmode]
      rfl
    refine ⟨hlib, fun c => ?_⟩
    -- one install on the untouched files has the same libraries, and they determine the text
    have huntouched : History text (untouched text).lib (untouched text) := history_untouched
    have hinstall := history_install hplain huntouched mode
    have hsame : (install mode (untouched text)).lib = fs.lib := by
      funext svc
      rw [lib_install, hlib]
      rfl
    rw [hsame] at hinstall
    cases hc : text c with
    | none =>
      rw [hinv.history.absent c hc, hinstall.absent c hc]
      exact ⟨rfl, .inl rfl⟩
    | some p =>
      obtain ⟨t, ht⟩ := hinv.history.conf c p hc
      obtain ⟨t', ht'⟩ := hinstall.conf c p hc
      rw [ht.eq, ht'.eq, ht.edited.eq ht'.edited fun _ _ => ⟨rfl, rfl⟩]
      exact ⟨rfl, ht.orig.elim .inr fun hbare => .inl hbare.1⟩

def plainConf : File UInt8 :=
  ⟨[bytes "<service name=\"jcinavi\" reset_board=\"yes\">", bytes "</service>",
    bytes "<service name=\"jciCARPLAY\" reset_board=\"yes\">", bytes "</service>"], []⟩

/-- The patterns, run on its lines. -/
theorem checked_plainConf : ∀ l ∈ records plainConf, ldPath l = false ∧ ∀ svc ∈ services,
    hasToken svc l = false ∧ (names svc l = true → rewritten (resetNo l) = false ∧
      occurs (lit resetBoardNo) l = false ∧
        ∀ svc' ∈ services, names svc' l = true → svc' = svc) := by
  decide +kernel

theorem plain_plainConf : Plain (onlySm plainConf) := by
  have hsm : ∀ c p, onlySm plainConf c = some p → p = plainConf := by
    rintro (_ | _) p hp
    · exact (Option.some_inj.mp hp).symm
    · exact absurd hp (by simp [onlySm])
  have hline : ∀ c p, onlySm plainConf c = some p → ∀ l ∈ records p, ldPath l = false ∧
      ∀ svc, hasToken svc l = false ∧ (names svc l = true → rewritten (resetNo l) = false ∧
        occurs (lit resetBoardNo) l = false ∧ ∀ svc', names svc' l = true → svc' = svc) := by
    intro c p hp l hl
    rw [hsm c p hp] at hl
    obtain ⟨hpath, hsvc⟩ := checked_plainConf l hl
    refine ⟨hpath, fun svc => ⟨(hsvc svc (mem_services svc)).1, fun hnames => ?_⟩⟩
    obtain ⟨honce, hnever, hone⟩ := (hsvc svc (mem_services svc)).2 hnames
    exact ⟨honce, hnever, fun svc' => hone svc' (mem_services svc')⟩
  refine ⟨fun c p hp l hl svc => ((hline c p hp l hl).2 svc).1, fun c p hp => ?_,
    fun c p hp l hl => (hline c p hp l hl).1,
    fun c p hp l hl svc svc' hnames => (((hline c p hp l hl).2 svc).2 hnames).2.2 svc',
    fun c p hp l hl svc hnames => (((hline c p hp l hl).2 svc).2 hnames).1,
    fun c p hp l hl svc hnames => (((hline c p hp l hl).2 svc).2 hnames).2.1⟩
  rw [hsm c p hp]
  rfl

/-- Both, then CarPlay alone, then both again, then Android Auto alone. -/
theorem history_of_reach_aa : ∃ tr fs,
    Run.Trace (step plainConf) Runs (untouched (onlySm plainConf)) tr fs ∧
      tr.map Prod.snd = [.install .both, .uninstall .aa, .install .aa, .uninstall .carplay] ∧
        (∀ svc, fs.lib svc = decide (svc ∈ Mode.aa.services)) ∧
          ∀ c, (fs.conf c).text = ((install .aa (untouched (onlySm plainConf))).conf c).text ∧
            ((fs.conf c).orig = none ∨ (fs.conf c).orig = onlySm plainConf c) := by
  obtain ⟨tr, fs, hfs, hactions⟩ : ∃ tr fs,
      Run.Trace (step plainConf) Runs (untouched (onlySm plainConf)) tr fs ∧
        tr.map Prod.snd = [.install .both, .uninstall .aa, .install .aa, .uninstall .carplay] :=
    Run.Trace.exists_of_record
      [.install .both, .uninstall .aa, .install .aa, .uninstall .carplay] (by decide +kernel)
  refine ⟨tr, fs, hfs, hactions, (history_of_reach plain_plainConf hfs).2 .aa ?_⟩
  rw [hactions]
  rfl

end OemAaMod.Installer
