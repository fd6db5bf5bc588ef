import OemAaMod.Installer.Installed

/-!
# Uninstalling one integration

What `run.sh` leaves when one integration goes, and when the other goes behind it.

* `Separate` — the files are as if the one had never been installed;
* `Undisturbed` — the untouched text has nothing that the patterns of the uninstall take for
  a trace of an install;
* `SetBack` — of a line, its `reset_board`, and `setBack_iff_of_one`, what that asks of a line
  that names one service;
* `separate_iff` — such files, without the name of a library, are uninstalled separately, and
  where those names are sparse no others are.
-/

namespace OemAaMod.Installer

open CStr (Bytes)
open Pattern (firstOf lit occurs)
open Text (Edited File records grepQ sed strip)

/-- Of both integrations the uninstall of `one` leaves the install of `other`, and the
uninstall of that the untouched files. -/
def Separate (text : Conf → Option (File UInt8)) (one other : Mode) : Prop :=
  let left := uninstall one (install .both (untouched text))
  (∀ c, (left.conf c).text = ((install other (untouched text)).conf c).text) ∧
    ∀ c, ((uninstall other left).conf c).text = text c

/-- A line with the `reset_board` of the services set back. -/
def setYes (svcs : List Service) (l : Bytes) : Bytes :=
  svcs.foldl (fun l svc => onNaming svc resetYes l) l

/-- On a line the uninstall of one integration sets back the `reset_board` that its install has
set, and no other. -/
def SetBack (text : Conf → Option (File UInt8)) (c : Conf) (l : Bytes) : Prop :=
  setYes Mode.aa.services (setNo text c Mode.both.services l) =
      setNo text c Mode.carplay.services l ∧
    setYes Mode.carplay.services (setNo text c Mode.both.services l) =
      setNo text c Mode.aa.services l

instance (text : Conf → Option (File UInt8)) (c : Conf) (l : Bytes) :
    Decidable (SetBack text c l) :=
  inferInstanceAs (Decidable (_ ∧ _))

/-- The uninstall of one integration finds nothing of the untouched text to remove: no line
with the library path, and a newline at the end (or it can not remove the lines, for there
are no others); and each line is set back. -/
structure Undisturbed (text : Conf → Option (File UInt8)) (c : Conf) (p : File UInt8) : Prop where
  path : (p.rest = [] ∧ ∀ l ∈ records p, ldPath l = false) ∨
    (∀ l ∈ records p, ldPath l = true) ∧ ∀ svc, ¬Accepts svc text c p
  lines : ∀ l ∈ records p, SetBack text c l

variable {text : Conf → Option (File UInt8)} {c : Conf} {p t : File UInt8} {fs : Fs}
variable {svc : Service} {svcs : List Service} {l : Bytes} {b : Bytes → Bytes}
variable {ins : Bytes → List Bytes}

/-! ## Lines that name one service, or none -/

theorem setNo_of_none (hnone : ∀ svc, names svc l = false) : setNo text c svcs l = l := by
  induction svcs using List.reverseRecOn with
  | nil => rfl
  | append_singleton svcs svc ih =>
    rw [setNo_append, ih, onNaming, hnone svc, if_neg Bool.false_ne_true, ite_self]

theorem setYes_of_none (hnone : ∀ svc, names svc l = false) : setYes svcs l = l := by
  induction svcs with
  | nil => rfl
  | cons svc svcs ih =>
    have hstep : setYes (svc :: svcs) l = setYes svcs (onNaming svc resetYes l) := rfl
    rw [hstep, onNaming, hnone svc, if_neg Bool.false_ne_true, ih]

theorem setBack_of_none (hnone : ∀ svc, names svc l = false) : SetBack text c l := by
  have hset : ∀ svcs, setNo text c svcs l = l := fun _ => setNo_of_none hnone
  rw [SetBack, hset, hset, hset, setYes_of_none hnone, setYes_of_none hnone]
  exact ⟨rfl, rfl⟩

theorem onNaming_of_one (hnames : ∀ svc', names svc' l = true ↔ svc' = svc) {g : Bytes → Bytes}
    {x : Bytes} (hx : ∀ svc, names svc x = names svc l) (svc' : Service) :
    onNaming svc' g x = if svc' = svc then g x else x := by
  rw [onNaming, hx]
  exact if_congr (hnames svc') rfl rfl

theorem setNo_of_one (hnames : ∀ svc', names svc' l = true ↔ svc' = svc) (hnodup : svcs.Nodup) :
    setNo text c svcs l =
      if svc ∈ svcs ∧ target svc (untouched text) = some c then resetNo l else l := by
  induction svcs using List.reverseRecOn with
  | nil => simp [setNo]
  | append_singleton svcs svc' ih =>
    have hnew : svc' ∉ svcs := fun hmem =>
      (List.nodup_append.mp hnodup).2.2 svc' hmem svc' (List.mem_singleton_self _) rfl
    rw [setNo_append, onNaming_of_one hnames (fun svc => (quiet_setNo svcs).names svc l),
      ih (List.nodup_append.mp hnodup).1]
    by_cases heq : svc' = svc
    · subst heq
      simp [hnew]
    · have hne : svc ≠ svc' := fun h => heq h.symm
      simp [heq, hne]

theorem setYes_of_one (hnames : ∀ svc', names svc' l = true ↔ svc' = svc) {x : Bytes}
    (hx : ∀ svc, names svc x = names svc l) (hnodup : svcs.Nodup) :
    setYes svcs x = if svc ∈ svcs then resetYes x else x := by
  induction svcs generalizing x with
  | nil => rfl
  | cons svc' svcs ih =>
    have hstep : setYes (svc' :: svcs) x = setYes svcs (onNaming svc' resetYes x) := rfl
    have hx' : ∀ svc, names svc (onNaming svc' resetYes x) = names svc l := fun svc =>
      ((quiet_resetYes.onNaming svc').names svc x).trans (hx svc)
    obtain ⟨hnew, hnodup⟩ := List.nodup_cons.mp hnodup
    rw [hstep, ih hx' hnodup, onNaming_of_one hnames hx]
    by_cases heq : svc' = svc
    · subst heq
      simp [hnew]
    · have hne : svc ≠ svc' := fun h => heq h.symm
      simp [heq, hne]

theorem setBack_iff_reset (hnames : ∀ svc', names svc' l = true ↔ svc' = svc) :
    SetBack text c l ↔
      resetYes (if target svc (untouched text) = some c then resetNo l else l) = l := by
  have hnodup : ∀ mode : Mode, mode.services.Nodup := by
    intro mode
    cases mode <;> decide
  have hquiet : Quiet (setNo text c Mode.both.services) := quiet_setNo _
  rw [SetBack, setYes_of_one hnames (fun svc => hquiet.names svc l) (hnodup .aa),
    setYes_of_one hnames (fun svc => hquiet.names svc l) (hnodup .carplay),
    setNo_of_one hnames (hnodup .both), setNo_of_one hnames (hnodup .carplay),
    setNo_of_one hnames (hnodup .aa)]
  cases svc <;> simp [Mode.services]

/-- The two words of `reset_board`, run on each other. -/
theorem checked_reset_words : Pattern.Borderless resetBoardNo ∧
    Pattern.NoClash (lit resetBoardYes) resetBoardNo := by
  decide +kernel

/-- On a line that names one service: where the service is patched the line has no
`reset_board="no"` in front of the first `reset_board="yes"`, and elsewhere it has none. -/
theorem setBack_iff_of_one (hnames : ∀ svc', names svc' l = true ↔ svc' = svc) :
    SetBack text c l ↔
      if target svc (untouched text) = some c
      then firstOf resetBoardYes resetBoardNo l ≠ some false
      else occurs (lit resetBoardNo) l = false := by
  rw [setBack_iff_reset hnames]
  split
  · exact Pattern.replaceFirst_back_iff checked_reset_words.1 checked_reset_words.2
      resetBoard_ne_nil.1 resetBoard_ne_nil.2
  · exact Pattern.replaceFirst_eq_self resetBoard_ne_nil.2 (by decide +kernel)

/-! ## Uninstall -/

/-- What `unpatch_service` removes is what was added. -/
theorem edited_unpatchText (h : Edited b ins p t) (hb : ∀ l ∈ records p, hasToken svc (b l) = false)
    (hrest : ∀ l ∈ records p, ins l ≠ [] → p.rest = []) :
    Edited b (fun l => (ins l).filter fun x => !hasToken svc x) p (unpatchText svc t) := by
  unfold unpatchText
  split
  · rename_i hfound
    obtain ⟨l, hl, htoken | ⟨x, hx, -⟩⟩ := h.grepQ_iff.mp hfound
    · rw [hb l hl] at htoken
      exact absurd htoken Bool.false_ne_true
    · exact h.strip hb (hrest l hl (List.ne_nil_of_mem hx))
  · rename_i hnot
    refine h.congr fun l hl => ⟨rfl, (List.filter_eq_self.mpr fun x hx => ?_).symm⟩
    rw [Bool.not_eq_true', ← Bool.not_eq_true]
    exact fun htoken => hnot (h.grepQ_iff.mpr ⟨l, hl, .inr ⟨x, hx, htoken⟩⟩)

theorem edited_unpatchTexts (svcs : List Service) (h : Edited b ins p t)
    (hb : ∀ l ∈ records p, ∀ svc, hasToken svc (b l) = false)
    (hrest : ∀ l ∈ records p, ins l ≠ [] → p.rest = []) :
    Edited b (fun l => (ins l).filter fun x => svcs.all fun svc => !hasToken svc x) p
      (unpatchTexts svcs t) := by
  induction svcs generalizing ins t with
  | nil => exact h.congr fun l _ => ⟨rfl, (List.filter_true _).symm⟩
  | cons svc svcs ih =>
    have hone : Edited b (fun l => (ins l).filter fun x => !hasToken svc x) p (unpatchText svc t) :=
      edited_unpatchText h (fun l hl => hb l hl svc) hrest
    refine (ih hone fun l hl hne => ?_).congr fun l _ => ⟨rfl, ?_⟩
    · exact hrest l hl fun hnil => hne (by rw [hnil]; rfl)
    · rw [List.filter_filter]
      refine List.filter_congr fun x _ => ?_
      rw [List.all_cons, Bool.and_comm]

theorem edited_setYes (svcs : List Service) (h : Edited b ins p t)
    (hins : ∀ l ∈ records p, ∀ x ∈ ins l, ∀ svc, names svc x = false) :
    Edited (setYes svcs ∘ b) ins p
      (svcs.foldl (fun t svc => sed t (onNaming svc resetYes)) t) := by
  induction svcs generalizing b t with
  | nil => exact h
  | cons svc svcs ih =>
    refine ih (h.sed (quiet_resetYes.onNaming svc).ne_nil fun l hl x hx => ?_)
    rw [onNaming, hins l hl x hx]
    rfl

theorem filter_entry_self {q : Bytes → Bool} (hq : ∀ x ∈ injected svc, q x = true) :
    (entry text c p l svc).filter q = entry text c p l svc := by
  unfold entry
  split
  · exact List.filter_eq_self.mpr hq
  · rfl

theorem filter_entry_nil {q : Bytes → Bool} (hq : ∀ x ∈ injected svc, q x = false) :
    (entry text c p l svc).filter q = [] := by
  unfold entry
  split
  · exact List.filter_eq_nil_iff.mpr fun x hx => by simp [hq x hx]
  · rfl

theorem entries_both : entries text c p Mode.both.services l =
    entry text c p l .jciCARPLAY ++ (entry text c p l .jcinavi ++ entry text c p l .jciAAPA) := by
  simp [entries, Mode.services]

theorem entries_aa : entries text c p Mode.aa.services l =
    entry text c p l .jcinavi ++ entry text c p l .jciAAPA := by
  simp [entries, Mode.services]

theorem entries_carplay : entries text c p Mode.carplay.services l =
    entry text c p l .jciCARPLAY := by
  simp [entries, Mode.services]

/-- The lines of other services stay. -/
theorem keeps_injected {svcs : List Service} (hnew : svc ∉ svcs) :
    ∀ x ∈ injected svc, (svcs.all fun svc => !hasToken svc x) = true := by
  intro x hx
  rw [List.all_eq_true]
  intro svc' hsvc'
  rw [Bool.not_eq_true', ← Bool.not_eq_true]
  exact fun htoken => hnew (eq_of_hasToken_injected hx htoken ▸ hsvc')

theorem eq_carplay_of_not_aa (h : svc ∉ Mode.aa.services) : svc = .jciCARPLAY := by
  cases svc with
  | jciAAPA => exact absurd (by decide) h
  | jcinavi => exact absurd (by decide) h
  | jciCARPLAY => rfl

/-- The services of Android Auto have one line each. -/
theorem eq_preloadLine_of_aa {x : Bytes} (hsvc : svc ∈ Mode.aa.services) (hx : x ∈ injected svc) :
    x = preloadLine svc := by
  cases svc with
  | jciAAPA => exact List.mem_singleton.mp hx
  | jcinavi => exact List.mem_singleton.mp hx
  | jciCARPLAY => exact absurd hsvc (by decide)

/-- Of the lines of both integrations the tokens of Android Auto leave those of CarPlay. -/
theorem filter_entries_aa : (entries text c p Mode.both.services l).filter
    (fun x => Mode.aa.services.all fun svc => !hasToken svc x) =
      entries text c p Mode.carplay.services l := by
  have hcarplay : (entry text c p l .jciCARPLAY).filter
      (fun x => Mode.aa.services.all fun svc => !hasToken svc x) = entry text c p l .jciCARPLAY :=
    filter_entry_self (keeps_injected (by decide))
  have hgone : ∀ svc ∈ Mode.aa.services, (entry text c p l svc).filter
      (fun x => Mode.aa.services.all fun svc => !hasToken svc x) = [] := by
    intro svc hsvc
    refine filter_entry_nil fun x hx => ?_
    rw [← Bool.not_eq_true, List.all_eq_true]
    intro hall
    have htoken := hall svc hsvc
    rw [eq_preloadLine_of_aa hsvc hx, hasToken_preloadLine.mpr rfl] at htoken
    exact Bool.false_ne_true htoken
  rw [entries_both, entries_carplay, List.filter_append, List.filter_append, hcarplay,
    hgone .jcinavi (by decide), hgone .jciAAPA (by decide), List.append_nil, List.append_nil]

/-- The library path is the only line of CarPlay that its token does not take. -/
theorem filter_entries_token : (entries text c p Mode.both.services l).filter
    (fun x => Mode.carplay.services.all fun svc => !hasToken svc x) =
      (if names .jciCARPLAY l = true ∧ Accepts .jciCARPLAY text c p then [ldPathLine] else []) ++
        entries text c p Mode.aa.services l := by
  have hcarplay : (entry text c p l .jciCARPLAY).filter
      (fun x => Mode.carplay.services.all fun svc => !hasToken svc x) =
        if names .jciCARPLAY l = true ∧ Accepts .jciCARPLAY text c p then [ldPathLine] else [] := by
    unfold entry
    split
    · simp [injected, extraLine, Mode.services, hasToken_preloadLine, hasToken_ldPathLine]
    · rfl
  rw [entries_both, entries_aa, List.filter_append, List.filter_append, hcarplay,
    filter_entry_self (keeps_injected (by decide)), filter_entry_self (keeps_injected (by decide))]

/-- The token of CarPlay and the library path leave the lines of Android Auto. -/
theorem filter_entries_carplay : ((entries text c p Mode.both.services l).filter
    (fun x => Mode.carplay.services.all fun svc => !hasToken svc x)).filter (fun x => !ldPath x) =
      entries text c p Mode.aa.services l := by
  have haa : (entries text c p Mode.aa.services l).filter (fun x => !ldPath x) =
      entries text c p Mode.aa.services l := by
    refine List.filter_eq_self.mpr fun x hx => ?_
    obtain ⟨svc, hsvc, -, -, hx⟩ := mem_entries.mp hx
    rw [eq_preloadLine_of_aa hsvc hx, ldPath_preloadLine, Bool.not_false]
  have hcarplay : ∀ P : Prop, [Decidable P] →
      (if P then [ldPathLine] else []).filter (fun x => !ldPath x) = [] := by
    intro P _
    split
    · rw [List.filter_cons, ldPath_ldPathLine, Bool.not_true, if_neg Bool.false_ne_true,
        List.filter_nil]
    · rw [List.filter_nil]
  rw [filter_entries_token, List.filter_append, haa, hcarplay, List.nil_append]

section

variable {f : ConfFile}

theorem rest_of_entries (hp : ∀ l ∈ records p, ∀ svc, hasToken svc l = false)
    (l : Bytes) (hne : entries text c p svcs l ≠ []) : p.rest = [] := by
  obtain ⟨x, hx⟩ := List.exists_mem_of_ne_nil _ hne
  obtain ⟨svc, -, -, haccepts, -⟩ := mem_entries.mp hx
  by_contra hrest
  exact haccepts.2 (sanityFailed_iff.mpr ⟨not_grepQ_token hp, fun h => hrest h.2⟩)

theorem hasToken_setNo (hp : ∀ l ∈ records p, ∀ svc, hasToken svc l = false) :
    ∀ l ∈ records p, ∀ svc, hasToken svc (setNo text c svcs l) = false := by
  intro l hl svc
  rw [(quiet_setNo svcs).hasToken, hp l hl]

/-- Of both integrations the uninstall of Android Auto leaves the lines of CarPlay. -/
theorem edited_removeText_aa (h : InstalledConf text Mode.both.services c p t f)
    (hp : ∀ l ∈ records p, ∀ svc, hasToken svc l = false) :
    Edited (setYes Mode.aa.services ∘ setNo text c Mode.both.services)
      (entries text c p Mode.carplay.services) p (removeText .aa t) := by
  have hstrip := edited_unpatchTexts Mode.aa.services h.edited (hasToken_setNo hp)
    fun l _ => rest_of_entries hp l
  refine edited_setYes Mode.aa.services (hstrip.congr fun l _ => ⟨rfl, filter_entries_aa⟩) ?_
  exact fun l _ x hx svc => names_of_mem_entries hx

/-- The uninstall of CarPlay leaves the lines of Android Auto, if it has no others to remove. -/
theorem edited_removeText_carplay (h : InstalledConf text Mode.both.services c p t f)
    (hp : ∀ l ∈ records p, ∀ svc, hasToken svc l = false)
    (hpath : (p.rest = [] ∧ ∀ l ∈ records p, ldPath l = false) ∨
      (∀ l ∈ records p, ldPath l = true) ∧ ∀ svc, ¬Accepts svc text c p) :
    Edited (setYes Mode.carplay.services ∘ setNo text c Mode.both.services)
      (entries text c p Mode.aa.services) p (removeText .carplay t) := by
  have hunpatch := edited_unpatchTexts Mode.carplay.services h.edited (hasToken_setNo hp)
    fun l _ => rest_of_entries hp l
  have hnames : ∀ l ∈ records p, ∀ x ∈ entries text c p Mode.aa.services l, ∀ svc,
      names svc x = false := fun l _ x hx svc => names_of_mem_entries hx
  refine edited_setYes Mode.carplay.services ?_ hnames
  show Edited _ _ p (strip ldPath (unpatchTexts Mode.carplay.services t))
  rcases hpath with ⟨hrest, hpath⟩ | ⟨hpath, hnone⟩
  · have hb : ∀ l ∈ records p, ldPath (setNo text c Mode.both.services l) = false := by
      intro l hl
      rw [(quiet_setNo _).ldPath, hpath l hl]
    exact (hunpatch.strip hb hrest).congr fun l _ => ⟨rfl, filter_entries_carplay⟩
  · -- nothing was inserted, and there is no other line that could be kept
    have hentries : ∀ svcs l, entries text c p svcs l = [] := by
      intro svcs l
      rw [List.eq_nil_iff_forall_not_mem]
      intro x hx
      obtain ⟨svc, -, -, haccepts, -⟩ := mem_entries.mp hx
      exact hnone svc haccepts
    have hbare : Edited (setNo text c Mode.both.services) (fun _ => []) p
        (unpatchTexts Mode.carplay.services t) :=
      hunpatch.congr fun l _ => ⟨rfl, by rw [hentries]; rfl⟩
    have hall : (records (unpatchTexts Mode.carplay.services t)).all ldPath = true := by
      rw [List.all_eq_true, hbare.records]
      intro x hx
      obtain ⟨l, hl, hx⟩ := List.mem_flatMap.mp hx
      rw [List.mem_singleton.mp hx, (quiet_setNo _).ldPath, hpath l hl]
    rw [strip, if_pos hall]
    exact hbare.congr fun l _ => ⟨rfl, (hentries _ l).symm⟩

theorem exists_names_of_accepts (hp : ∀ l ∈ records p, ∀ svc, hasToken svc l = false)
    (haccepts : Accepts svc text c p) : ∃ l ∈ records p, names svc l = true := by
  have hcount : (records p).countP (names svc) = 1 := by
    have hfits := haccepts.2
    rw [sanityFailed_iff, not_and, not_not] at hfits
    exact (hfits (not_grepQ_token hp)).1
  exact List.countP_pos_iff.mp (Nat.lt_of_lt_of_eq Nat.one_pos hcount.symm)

/-- Where the uninstall of CarPlay leaves what the install of Android Auto makes, it had no
lines to remove but its own. -/
theorem path_of_removeText {f' : ConfFile} (h : InstalledConf text Mode.both.services c p t f)
    (hp : ∀ l ∈ records p, ∀ svc, hasToken svc l = false)
    (h' : InstalledConf text Mode.aa.services c p (removeText .carplay t) f') :
    (p.rest = [] ∧ ∀ l ∈ records p, ldPath l = false) ∨
      (∀ l ∈ records p, ldPath l = true) ∧ ∀ svc, ¬Accepts svc text c p := by
  have hu := edited_unpatchTexts Mode.carplay.services h.edited (hasToken_setNo hp)
    fun l _ => rest_of_entries hp l
  have hquiet := quiet_resetYes.onNaming .jciCARPLAY
  have hedited : Edited (setNo text c Mode.aa.services) (entries text c p Mode.aa.services) p
      (sed (strip ldPath (unpatchTexts Mode.carplay.services t)) (onNaming .jciCARPLAY resetYes)) :=
    h'.edited
  generalize unpatchTexts Mode.carplay.services t = u at hu hedited
  by_cases hall : (records u).all ldPath = true
  · right
    have hpath : ∀ x ∈ records u, ldPath x = true := List.all_eq_true.mp hall
    constructor
    · intro l hl
      rw [← (quiet_setNo Mode.both.services).ldPath]
      exact hpath _ (hu.mem hl)
    · intro svc haccepts
      obtain ⟨l, hl, hnames⟩ := exists_names_of_accepts hp haccepts
      by_cases hsvc : svc ∈ Mode.aa.services
      · -- its line is still there, and it is no library path
        have hmem : preloadLine svc ∈ records u := by
          rw [hu.records, List.mem_flatMap]
          refine ⟨l, hl, List.mem_cons_of_mem _ ?_⟩
          rw [filter_entries_token, List.mem_append, mem_entries]
          exact .inr ⟨svc, hsvc, hnames, haccepts, List.mem_cons_self⟩
        have hline := hpath _ hmem
        rw [ldPath_preloadLine] at hline
        exact Bool.false_ne_true hline
      · obtain rfl := eq_carplay_of_not_aa hsvc
        -- its library path is still there, and makes a line too many
        have hlength := congrArg List.length hedited.records
        rw [strip, if_pos hall, Text.records_sed hquiet.ne_nil, List.length_map, hu.records,
          List.length_flatMap, List.length_flatMap] at hlength
        refine absurd hlength (Nat.ne_of_gt (List.sum_lt_sum _ _ (fun l' _ => ?_) ⟨l, hl, ?_⟩))
        · simp only [filter_entries_token, List.length_cons, List.length_append]
          omega
        · simp only [filter_entries_token, List.length_cons, List.length_append,
            if_pos (And.intro hnames haccepts), List.length_nil]
          omega
  · left
    rw [strip, if_neg hall] at hedited
    have hrest : p.rest = [] :=
      hedited.rest.mp ((Text.rest_sed hquiet.ne_nil).mpr rfl)
    refine ⟨hrest, fun l hl => ?_⟩
    have hmem := hedited.mem hl
    rw [Text.records_sed hquiet.ne_nil, Text.records_grepV, List.mem_map] at hmem
    obtain ⟨x, hx, heq⟩ := hmem
    have hset : Quiet (setNo text c Mode.aa.services) := quiet_setNo _
    rw [← hset.ldPath, ← heq, hquiet.ldPath]
    simpa using (List.mem_filter.mp hx).2

/-! ## The two uninstalls -/

/-- An uninstall with a library left. -/
theorem uninstall_conf_of_left {mode : Mode} (hmode : mode ≠ .both)
    (hleft : ∃ svc, fs.lib svc = true ∧ svc ∉ mode.services) (c : Conf) :
    (uninstall mode fs).conf c = mapText (removeText mode) (fs.conf c) := by
  have hnot : ¬(mode ≠ .both ∧ (removeLibs mode (removeFeature mode fs)).lib .jciAAPA = false ∧
      (removeLibs mode (removeFeature mode fs)).lib .jcinavi = false ∧
        (removeLibs mode (removeFeature mode fs)).lib .jciCARPLAY = false) := by
    rintro ⟨-, haa, hnavi, hcarplay⟩
    obtain ⟨svc, hlib, hsvc⟩ := hleft
    have hkept : (removeLibs mode (removeFeature mode fs)).lib svc = true := by
      rw [removeFeature_eq]
      simp only [removeLibs, Fs.mapConf, hlib, hsvc, not_false_eq_true, decide_true, Bool.and_true]
    cases svc with
    | jciAAPA => rw [haa] at hkept; exact Bool.false_ne_true hkept
    | jcinavi => rw [hnavi] at hkept; exact Bool.false_ne_true hkept
    | jciCARPLAY => rw [hcarplay] at hkept; exact Bool.false_ne_true hkept
  unfold uninstall restoreLast
  simp only [if_neg hmode]
  rw [if_neg hnot, removeFeature_eq]
  rfl

/-- The uninstall of the last integration. -/
theorem uninstall_conf_last {mode : Mode} (hmode : mode ≠ .both)
    (hlast : ∀ svc, fs.lib svc = true → svc ∈ mode.services) (c : Conf) {t : File UInt8}
    (ht : (fs.conf c).text = some t) : ((uninstall mode fs).conf c).text =
      some ((fs.conf c).orig.getD (removeText mode t)) := by
  have hgone : ∀ svc, (removeLibs mode (removeFeature mode fs)).lib svc = false := by
    intro svc
    rw [removeFeature_eq]
    by_cases hsvc : svc ∈ mode.services
    · simp [removeLibs, hsvc]
    · have hlib : fs.lib svc = false := Bool.eq_false_iff.mpr fun h => hsvc (hlast svc h)
      simp [removeLibs, Fs.mapConf, hlib]
  unfold uninstall restoreLast
  simp only [if_neg hmode]
  rw [if_pos ⟨hmode, hgone _, hgone _, hgone _⟩, removeFeature_eq]
  simp only [removeLibs, Fs.mapConf, mapText, ht, Option.map_some, reduceCtorEq, if_false]
  unfold restoreOrig
  cases (fs.conf c).orig with
  | none => rfl
  | some p => rfl

theorem lib_install (mode : Mode) (fs : Fs) (svc : Service) :
    (install mode fs).lib svc = (fs.lib svc || decide (svc ∈ mode.services)) := by
  have hpatch : ∀ svcs fs, (patchServices svcs fs).lib = fs.lib := by
    intro svcs
    induction svcs with
    | nil => exact fun _ => rfl
    | cons svc svcs ih => exact fun fs => (ih _).trans (lib_patchService svc fs)
  rw [install, hpatch]
  rfl

theorem lib_uninstall {mode : Mode} (hmode : mode ≠ .both) (fs : Fs) (svc : Service) :
    (uninstall mode fs).lib svc = (fs.lib svc && decide (svc ∉ mode.services)) := by
  have hlast : ∀ fs, (restoreLast mode fs).lib = fs.lib := by
    intro fs
    unfold restoreLast
    split <;> rfl
  unfold uninstall
  simp only [if_neg hmode]
  rw [hlast, removeFeature_eq]
  rfl

/-- Where nothing is patched the uninstalls leave the text. -/
theorem removeText_of_bare (hu : Undisturbed text c p)
    (h : InstalledConf text Mode.both.services c p t f)
    (hp : ∀ l ∈ records p, ∀ svc, hasToken svc l = false)
    (hbare : ∀ svc, target svc (untouched text) ≠ some c) :
    t = p ∧ removeText .aa t = t ∧ removeText .carplay t = t := by
  have hnone : ∀ svcs : List Service, ¬∃ svc ∈ svcs, target svc (untouched text) = some c := by
    rintro svcs ⟨svc, -, htarget⟩
    exact hbare svc htarget
  have hentries : ∀ svcs l, entries text c p svcs l = [] := by
    intro svcs l
    rw [List.eq_nil_iff_forall_not_mem]
    intro x hx
    obtain ⟨svc, -, -, haccepts, -⟩ := mem_entries.mp hx
    exact hbare svc haccepts.1
  refine ⟨h.eq_of_bare (hnone _), ?_, ?_⟩
  · refine (edited_removeText_aa h hp).eq h.edited fun l hl => ⟨?_, ?_⟩
    · rw [Function.comp_apply, (hu.lines l hl).1, setNo_of_bare (hnone _), setNo_of_bare (hnone _)]
    · rw [hentries, hentries]
  · refine (edited_removeText_carplay h hp hu.path).eq h.edited fun l hl => ⟨?_, ?_⟩
    · rw [Function.comp_apply, (hu.lines l hl).2, setNo_of_bare (hnone _), setNo_of_bare (hnone _)]
    · rw [hentries, hentries]

/-- The text that the uninstall of one integration leaves of both. -/
theorem uninstall_text {one : Mode} (hone : one ≠ .both)
    (h : InstalledConf text Mode.both.services c p t ((install .both (untouched text)).conf c)) :
    (uninstall one (install .both (untouched text))).conf c =
      ⟨some (removeText one t), ((install .both (untouched text)).conf c).orig⟩ := by
  have hleft : ∃ svc, (install .both (untouched text)).lib svc = true ∧ svc ∉ one.services := by
    have hlib : ∀ svc, (install .both (untouched text)).lib svc = true := by
      intro svc
      rw [lib_install]
      cases svc <;> rfl
    cases one with
    | both => exact absurd rfl hone
    | aa => exact ⟨.jciCARPLAY, hlib _, by decide⟩
    | carplay => exact ⟨.jciAAPA, hlib _, by decide⟩
  rw [uninstall_conf_of_left hone hleft, mapText, h.eq]
  rfl

/-- Behind both uninstalls the text is the untouched one. -/
theorem uninstall_both_text {one other : Mode} (hmodes : (one = .aa ∧ other = .carplay) ∨
      (one = .carplay ∧ other = .aa)) (hu : Undisturbed text c p)
    (hp : ∀ l ∈ records p, ∀ svc, hasToken svc l = false)
    (h : InstalledConf text Mode.both.services c p t ((install .both (untouched text)).conf c)) :
    ((uninstall other (uninstall one (install .both (untouched text)))).conf c).text = some p := by
  have hone : one ≠ .both := by obtain ⟨rfl, rfl⟩ | ⟨rfl, rfl⟩ := hmodes <;> simp
  have hother : other ≠ .both := by obtain ⟨rfl, rfl⟩ | ⟨rfl, rfl⟩ := hmodes <;> simp
  have hleft := uninstall_text hone h
  have hlast : ∀ svc, (uninstall one (install .both (untouched text))).lib svc = true →
      svc ∈ other.services := by
    intro svc hlib
    rw [lib_uninstall hone, Bool.and_eq_true, decide_eq_true_eq] at hlib
    have hrest : ∀ svc, (svc ∉ Mode.aa.services → svc ∈ Mode.carplay.services) ∧
        (svc ∉ Mode.carplay.services → svc ∈ Mode.aa.services) := by
      intro svc
      cases svc <;> decide
    obtain ⟨rfl, rfl⟩ | ⟨rfl, rfl⟩ := hmodes
    · exact (hrest svc).1 hlib.2
    · exact (hrest svc).2 hlib.2
  rw [uninstall_conf_last hother hlast c (congrArg ConfFile.text hleft), hleft, h.orig]
  split
  · rfl
  · rename_i hnone
    have hbare : ∀ svc, target svc (untouched text) ≠ some c := fun svc htarget =>
      hnone ⟨svc, by cases svc <;> decide, htarget⟩
    obtain ⟨rfl, haa, hcarplay⟩ := removeText_of_bare hu h hp hbare
    obtain ⟨rfl, rfl⟩ | ⟨rfl, rfl⟩ := hmodes
    · rw [haa, hcarplay]
      rfl
    · rw [hcarplay, haa]
      rfl

/-- A config that is not there. -/
theorem uninstall_absent {mode : Mode} (hmode : mode ≠ .both) (h : (fs.conf c).text = none) :
    ((uninstall mode fs).conf c).text = none := by
  have hnone : (mapText (removeText mode) (fs.conf c)).text = none := by
    rw [mapText, h]
    rfl
  unfold uninstall restoreLast
  simp only [if_neg hmode, removeFeature_eq]
  split
  · exact (congrArg ConfFile.text (if_pos hnone)).trans hnone
  · exact hnone

end

/-- Where no line has the name of a library the files must be undisturbed. -/
theorem separate_iff_of_noToken (htoken : NoToken text) :
    (Separate text .aa .carplay ∧ Separate text .carplay .aa) ↔
      ∀ c p, text c = some p → Undisturbed text c p := by
  have hboth := installed_install htoken .both
  have haa := installed_install htoken .aa
  have hcarplay := installed_install htoken .carplay
  constructor
  · rintro ⟨⟨hfirst, -⟩, hsecond, -⟩ c p hc
    have hp := htoken c p hc
    obtain ⟨t, ht⟩ := hboth.conf c p hc
    obtain ⟨ta, hta⟩ := haa.conf c p hc
    obtain ⟨tc, htc⟩ := hcarplay.conf c p hc
    -- what is left of both is what the other alone makes, so the edits agree line by line
    have heqc : removeText .aa t = tc := by
      have h := hfirst c
      rw [uninstall_text (by simp) ht, htc.eq] at h
      exact Option.some_inj.mp h
    have heqa : removeText .carplay t = ta := by
      have h := hsecond c
      rw [uninstall_text (by simp) ht, hta.eq] at h
      exact Option.some_inj.mp h
    subst heqc heqa
    have hpath := path_of_removeText ht hp hta
    have hsetAa := (edited_removeText_aa ht hp).inj htc.edited
    have hsetCarplay := (edited_removeText_carplay ht hp hpath).inj hta.edited
    exact ⟨hpath, fun l hl => ⟨hsetAa l hl, hsetCarplay l hl⟩⟩
  · intro hu
    have hback : ∀ one other, ((one = .aa ∧ other = .carplay) ∨ (one = .carplay ∧ other = .aa)) →
        ∀ c, ((uninstall other (uninstall one (install .both (untouched text)))).conf c).text =
          text c := by
      intro one other hmodes c
      cases hc : text c with
      | none =>
        have hone : one ≠ .both := by obtain ⟨rfl, rfl⟩ | ⟨rfl, rfl⟩ := hmodes <;> simp
        have hother : other ≠ .both := by obtain ⟨rfl, rfl⟩ | ⟨rfl, rfl⟩ := hmodes <;> simp
        refine uninstall_absent hother (uninstall_absent hone ?_)
        rw [hboth.absent c hc]
      | some p =>
        obtain ⟨t, ht⟩ := hboth.conf c p hc
        exact uninstall_both_text hmodes (hu c p hc) (htoken c p hc) ht
    refine ⟨⟨fun c => ?_, hback .aa .carplay (.inl ⟨rfl, rfl⟩)⟩,
      ⟨fun c => ?_, hback .carplay .aa (.inr ⟨rfl, rfl⟩)⟩⟩
    · cases hc : text c with
      | none =>
        rw [hcarplay.absent c hc]
        exact uninstall_absent (by simp) (by rw [hboth.absent c hc])
      | some p =>
        obtain ⟨t, ht⟩ := hboth.conf c p hc
        obtain ⟨tc, htc⟩ := hcarplay.conf c p hc
        rw [uninstall_text (by simp) ht, htc.eq]
        refine congrArg some ?_
        exact (edited_removeText_aa ht (htoken c p hc)).eq htc.edited
          fun l hl => ⟨((hu c p hc).lines l hl).1, rfl⟩
    · cases hc : text c with
      | none =>
        rw [haa.absent c hc]
        exact uninstall_absent (by simp) (by rw [hboth.absent c hc])
      | some p =>
        obtain ⟨t, ht⟩ := hboth.conf c p hc
        obtain ⟨ta, hta⟩ := haa.conf c p hc
        rw [uninstall_text (by simp) ht, hta.eq]
        refine congrArg some ?_
        exact (edited_removeText_carplay ht (htoken c p hc) (hu c p hc).path).eq hta.edited
          fun l hl => ⟨((hu c p hc).lines l hl).2, rfl⟩

/-! ## Lines with the name of a library -/

/-- The names of the libraries are sparse: no line has those of both integrations, and beside
lines with one there is a line with none. -/
def Sparse (text : Conf → Option (File UInt8)) : Prop :=
  ∀ c p, text c = some p →
    (∀ l ∈ records p, ∀ svc ∈ Mode.aa.services, hasToken svc l = true →
      hasToken .jciCARPLAY l = false) ∧
    ((∃ l ∈ records p, ∃ svc, hasToken svc l = true) →
      ∃ l ∈ records p, ∀ svc, hasToken svc l = false)

/-- A config has a line with the tokens `has`. -/
def HasLike (has : Service → Bool) (f : ConfFile) : Prop :=
  ∃ t, f.text = some t ∧ ∃ l ∈ records t, ∀ svc, hasToken svc l = has svc

variable {has : Service → Bool}

theorem mem_insertText (hl : l ∈ records t) : l ∈ records (insertText svc t) := by
  rcases insertText_cases svc t with ⟨heq, -⟩ | ⟨-, -, -, before, line, after, h, hrecords⟩
  · rwa [heq]
  · rw [h.eq, List.mem_append, List.mem_cons] at hl
    rw [hrecords, List.mem_append, List.mem_cons, List.mem_append]
    exact hl.imp_right (Or.imp_right .inr)

/-- A patch keeps the lines without the token of its service. -/
theorem HasLike.patchService (h : HasLike has (fs.conf c)) (hsvc : has svc = false) :
    HasLike has ((patchService svc fs).conf c) := by
  cases htarget : target svc fs with
  | none =>
    unfold Installer.patchService
    rwa [htarget]
  | some c' =>
    obtain ⟨t, ht, l, hl, hlike⟩ := h
    rw [patchService_conf htarget]
    split
    · refine ⟨patchText svc t, by rw [patchTarget, ht]; rfl, onNaming svc resetNo l, ?_, ?_⟩
      · rw [patchText, records_sed_resetNo]
        exact List.mem_map_of_mem (mem_insertText hl)
      · exact fun svc' => ((quiet_resetNo.onNaming svc).hasToken svc' l).trans (hlike svc')
    · split
      · unfold stripStale
        split
        · refine ⟨strip (hasToken svc) t, by rw [ht]; rfl, l, ?_, hlike⟩
          unfold strip
          split
          · exact hl
          · rw [Text.records_grepV, List.mem_filter, hlike svc, hsvc]
            exact ⟨hl, rfl⟩
        · exact ⟨t, ht, l, hl, hlike⟩
      · exact ⟨t, ht, l, hl, hlike⟩

theorem HasLike.install {mode : Mode} (h : HasLike has (fs.conf c))
    (hmode : ∀ svc ∈ mode.services, has svc = false) : HasLike has ((install mode fs).conf c) := by
  have hall : ∀ svcs fs, (∀ svc ∈ svcs, has svc = false) → HasLike has (fs.conf c) →
      HasLike has ((patchServices svcs fs).conf c) := by
    intro svcs
    induction svcs with
    | nil => exact fun _ _ h => h
    | cons svc svcs ih =>
      intro fs hsvcs h
      exact ih _ (fun svc hsvc => hsvcs svc (List.mem_cons_of_mem _ hsvc))
        (h.patchService (hsvcs svc List.mem_cons_self))
  exact hall _ _ hmode h

/-- Beside a line without a token `unpatch_service` leaves none with the token. -/
theorem not_hasToken_unpatchTexts (hfree : ∃ m ∈ records t, ∀ svc, hasToken svc m = false)
    (hsvc : svc ∈ svcs) : ∀ l ∈ records (unpatchTexts svcs t), hasToken svc l = false := by
  induction svcs generalizing t with
  | nil => exact absurd hsvc List.not_mem_nil
  | cons svc' svcs ih =>
    obtain ⟨m, hm, hnone⟩ := hfree
    have hkept : m ∈ records (unpatchText svc' t) ∧
        ∀ l ∈ records (unpatchText svc' t), hasToken svc' l = false := by
      unfold unpatchText
      split
      · have hall : (records t).all (hasToken svc') = false := by
          rw [← Bool.not_eq_true, List.all_eq_true]
          intro hall
          have htoken := hall m hm
          rw [hnone svc'] at htoken
          exact Bool.false_ne_true htoken
        refine ⟨?_, fun l hl => Bool.eq_false_iff.mpr fun htoken =>
          Text.not_mem_strip htoken hall hl⟩
        rw [strip, hall, if_neg Bool.false_ne_true, Text.records_grepV, List.mem_filter, hnone svc']
        exact ⟨hm, rfl⟩
      · rename_i hnot
        refine ⟨hm, fun l hl => Bool.eq_false_iff.mpr fun htoken => ?_⟩
        exact hnot (List.any_eq_true.mpr ⟨l, hl, htoken⟩)
    rcases List.mem_cons.mp hsvc with rfl | hsvc
    · exact fun l hl => hkept.2 l ((records_unpatchTexts_sublist svcs _).subset hl)
    · exact ih ⟨m, hkept.1, hnone⟩ hsvc

theorem not_hasToken_removeText {mode : Mode}
    (hfree : ∃ m ∈ records t, ∀ svc, hasToken svc m = false) (hsvc : svc ∈ mode.services) :
    ∀ l ∈ records (removeText mode t), hasToken svc l = false := by
  have hsed : ∀ svcs t, (∀ l ∈ records t, hasToken svc l = false) →
      ∀ l ∈ records (List.foldl (fun t svc => sed t (onNaming svc resetYes)) t svcs),
        hasToken svc l = false := by
    intro svcs
    induction svcs with
    | nil => exact fun _ h => h
    | cons svc' svcs ih =>
      refine fun t h => ih _ ?_
      rw [Text.records_sed (quiet_resetYes.onNaming svc').ne_nil, List.forall_mem_map]
      exact fun l hl => ((quiet_resetYes.onNaming svc').hasToken svc l).trans (h l hl)
  have hgone := not_hasToken_unpatchTexts hfree hsvc
  unfold removeText
  refine hsed _ _ ?_
  split
  · exact fun l hl => hgone l ((Text.records_strip_sublist ldPath _).subset hl)
  · exact hgone

/-- A line with a token of `one`, and none of `other`, does not come through. -/
theorem not_hasToken_of_left {one other : Mode} (hone : one ≠ .both) {p : File UInt8}
    (hleft : ∃ svc, svc ∉ one.services) (hc : text c = some p)
    (hsame : ((uninstall one (install .both (untouched text))).conf c).text =
      ((install other (untouched text)).conf c).text)
    (hfree : ∃ m ∈ records p, ∀ svc, hasToken svc m = false) (hl : l ∈ records p)
    (hother : ∀ svc ∈ other.services, hasToken svc l = false) (hsvc : svc ∈ one.services) :
    hasToken svc l = false := by
  -- the install of the other keeps the line; this uninstall would remove it
  have hlike : HasLike (fun svc => hasToken svc l) ((install other (untouched text)).conf c) :=
    HasLike.install ⟨p, hc, l, hl, fun _ => rfl⟩ hother
  have hnone : HasLike (fun _ => false) ((install .both (untouched text)).conf c) := by
    obtain ⟨m, hm, htokens⟩ := hfree
    exact HasLike.install ⟨p, hc, m, hm, htokens⟩ fun _ _ => rfl
  obtain ⟨t, ht, m, hm, htokens⟩ := hnone
  obtain ⟨t', ht', l', hl', hlike⟩ := hlike
  have hlib : ∃ svc, (install .both (untouched text)).lib svc = true ∧ svc ∉ one.services := by
    obtain ⟨svc, hsvc⟩ := hleft
    refine ⟨svc, ?_, hsvc⟩
    rw [lib_install]
    cases svc <;> rfl
  rw [uninstall_conf_of_left hone hlib, mapText, ht, ht'] at hsame
  refine (hlike svc).symm.trans ?_
  refine not_hasToken_removeText ⟨m, hm, htokens⟩ hsvc l' ?_
  rwa [Option.some_inj.mp hsame]

/-- Where the names of the libraries are sparse a file that is uninstalled separately has none. -/
theorem noToken_of_separate (hsparse : Sparse text)
    (h : Separate text .aa .carplay ∧ Separate text .carplay .aa) : NoToken text := by
  intro c p hc l hl svc
  obtain ⟨hone, hfree⟩ := hsparse c p hc
  by_contra hfound
  replace hfound : hasToken svc l = true := by simpa using hfound
  -- the uninstall of the integration that the name belongs to takes the line
  obtain ⟨m, hm, hnone⟩ := hfree ⟨l, hl, svc, hfound⟩
  have hcase :
      (svc ∈ Mode.aa.services ∧ ∀ svc ∈ Mode.carplay.services, hasToken svc l = false) ∨
        (svc ∈ Mode.carplay.services ∧ ∀ svc ∈ Mode.aa.services, hasToken svc l = false) := by
    by_cases haa : svc ∈ Mode.aa.services
    · left
      refine ⟨haa, fun svc' hsvc' => ?_⟩
      rw [List.mem_singleton.mp hsvc']
      exact hone l hl svc haa hfound
    · right
      have heq : svc = .jciCARPLAY := eq_carplay_of_not_aa haa
      refine ⟨List.mem_singleton.mpr heq, fun svc' hsvc' => ?_⟩
      rw [← Bool.not_eq_true]
      intro hfound'
      rw [heq, hone l hl svc' hsvc' hfound'] at hfound
      exact Bool.false_ne_true hfound
  rcases hcase with ⟨hsvc, hother⟩ | ⟨hsvc, hother⟩
  · have hgone := not_hasToken_of_left (by simp) ⟨.jciCARPLAY, by decide⟩ hc (h.1.1 c)
      ⟨m, hm, hnone⟩ hl hother hsvc
    rw [hfound] at hgone
    exact absurd hgone (by simp)
  · have hgone := not_hasToken_of_left (by simp) ⟨.jciAAPA, by decide⟩ hc (h.2.1 c)
      ⟨m, hm, hnone⟩ hl hother hsvc
    rw [hfound] at hgone
    exact absurd hgone (by simp)

/-- **The integrations are uninstalled separately** from files without the names of the libraries
that are undisturbed, and where those names are sparse from no others. The last part says what
undisturbed asks of a line: of one that names one service, and nothing of one that names none. -/
theorem separate_iff (text : Conf → Option (File UInt8)) :
    ((NoToken text ∧ ∀ c p, text c = some p → Undisturbed text c p) →
      Separate text .aa .carplay ∧ Separate text .carplay .aa) ∧
    (Sparse text → ((Separate text .aa .carplay ∧ Separate text .carplay .aa) ↔
      NoToken text ∧ ∀ c p, text c = some p → Undisturbed text c p)) ∧
    ∀ c l, ((∀ svc, names svc l = false) → SetBack text c l) ∧
      ∀ svc, (∀ svc', names svc' l = true ↔ svc' = svc) →
        (SetBack text c l ↔
          if target svc (untouched text) = some c
          then firstOf resetBoardYes resetBoardNo l ≠ some false
          else occurs (lit resetBoardNo) l = false) := by
  have henough : (NoToken text ∧ ∀ c p, text c = some p → Undisturbed text c p) →
      Separate text .aa .carplay ∧ Separate text .carplay .aa :=
    fun h => (separate_iff_of_noToken h.1).mpr h.2
  refine ⟨henough, fun hsparse => ⟨fun h => ?_, henough⟩,
    fun c l => ⟨setBack_of_none, fun svc => setBack_iff_of_one⟩⟩
  have htoken := noToken_of_separate hsparse h
  exact ⟨htoken, (separate_iff_of_noToken htoken).mp h⟩

/-! ## A library path of another service -/

def onlySm (t : File UInt8) : Conf → Option (File UInt8)
  | .sm => some t
  | .wcp => none

def hmiConf : File UInt8 :=
  ⟨[bytes "<service name=\"jciCARPLAY\" reset_board=\"yes\">", bytes "</service>",
    bytes "<service name=\"jcihmi\" reset_board=\"yes\">", ldPathLine, bytes "</service>"], []⟩

theorem noToken_onlySm (h : ∀ svc ∈ services, (records t).all (fun l => !hasToken svc l) = true) :
    NoToken (onlySm t) := by
  rintro (_ | _) p hp l hl svc
  · rw [← Option.some_inj.mp hp] at hl
    simpa using List.all_eq_true.mp (h svc (mem_services svc)) l hl
  · exact absurd hp (by simp [onlySm])

/-- The uninstall of CarPlay takes the library path from a stanza that is not its own. -/
theorem foreign_ldPath_removed : NoToken (onlySm hmiConf) ∧
    ¬(Separate (onlySm hmiConf) .aa .carplay ∧ Separate (onlySm hmiConf) .carplay .aa) := by
  constructor
  · refine noToken_onlySm ?_
    decide +kernel
  · rintro ⟨-, hsame, -⟩
    have hne : ((uninstall .carplay (install .both (untouched (onlySm hmiConf)))).conf .sm).text ≠
        ((install .aa (untouched (onlySm hmiConf))).conf .sm).text := by
      decide +kernel
    exact hne (hsame .sm)

theorem separate_iff_one :
    Separate (onlySm oneStanza) .aa .carplay ∧ Separate (onlySm oneStanza) .carplay .aa := by
  refine (separate_iff (onlySm oneStanza)).1 ⟨noToken_onlySm (by decide +kernel), ?_⟩
  rintro (_ | _) p hc
  · obtain rfl := Option.some_inj.mp hc
    have hchecked : (oneStanza.rest = [] ∧ ∀ l ∈ records oneStanza, ldPath l = false) ∧
        ∀ l ∈ records oneStanza, SetBack (onlySm oneStanza) .sm l := by
      decide +kernel
    exact ⟨.inl hchecked.1, hchecked.2⟩
  · exact absurd hc (by simp [onlySm])

end OemAaMod.Installer
