import Mathlib.Data.List.DropRight
import OemAaMod.Lib.CStr
import OemAaMod.Lib.Pattern

/-!
# Which process this is

`LD_PRELOAD` is inherited, so every constructor asks first whether it is in the process it is
meant for. `preload_guard.h` has two ways of asking for the basename of `argv[0]`, with a loop
over the string and with `strrchr`; the CarPlay patch looks for its names anywhere in the
command line.

* `preloadReadCmdline` — `/proc/self/cmdline`, as far as the buffer goes;
* `preloadIsLauncherProcess`, `preloadInAapService`, `inCarplayLauncher` — the gates;
* `gates_iff` — what each asks of the arguments.
-/

namespace OemAaMod

open CStr (Bytes)
open Pattern (occurs lit)

/-! ## The command line -/

/-- `/proc/self/cmdline` of a process: each argument with its terminator. -/
def cmdlineOf (argv : List Bytes) : Bytes := argv.flatMap (· ++ [0])

/-- The loop that makes spaces of the NULs. -/
def spaced (b : Bytes) : Bytes := b.map fun c => if c = 0 then 0x20 else c

/-- `preload_read_cmdline`: the string in the buffer, and what is returned. There is no file
where it can not be opened or read. -/
def preloadReadCmdline (outsz : ℕ) (file : Option Bytes) : Bytes × ℕ :=
  match file with
  | some b =>
    let out := spaced (b.take (outsz - 1))
    (if out.getLast? = some 0x20 then out.dropLast else out, out.length)
  | none => ([], 0)

/-- `read_cmdline` of the CarPlay patch, which leaves the last space. -/
def readCmdline (outsz : ℕ) (file : Option Bytes) : Bytes :=
  spaced ((file.getD []).take (outsz - 1))

/-! ## The gates -/

def kTarget : Bytes := "sm_svclauncher".toUTF8.toList

/-- `base` after the loop: just behind the last slash, as far as it has come. -/
def lastSlash (arg0 : Bytes) : ℕ :=
  arg0.zipIdx.foldl (fun base x => if x.1 = 0x2F then x.2 + 1 else base) 0

def preloadIsLauncherProcess (cmdline : Bytes) : Bool :=
  if cmdline = [] then false
  else
    let arg0 := cmdline.takeWhile (· ≠ 0x20)
    arg0.drop (lastSlash arg0) == kTarget

def strrchr (s : Bytes) (c : UInt8) : Option ℕ :=
  ((s.zipIdx.filter fun x => x.1 = c).getLast?).map Prod.snd

/-- `argv[0]` from `strrchr` on, as `preload_in_aap_service` takes it. -/
def afterSlash (arg0 : Bytes) : Bytes :=
  match strrchr arg0 0x2F with
  | some i => arg0.drop (i + 1)
  | none => arg0

def kAapService : Bytes := "aap_service".toUTF8.toList

def preloadInAapService (file : Option Bytes) : Bool :=
  let (cl, n) := preloadReadCmdline 256 file
  if n = 0 then false
  else
    afterSlash (cl.takeWhile (· ≠ 0x20)) == kAapService

/-- The service tag, and the library that the launcher loads. -/
def kCarplayTag : Bytes := "jciCARPLAY".toUTF8.toList

def kCarplayLib : Bytes := "blmjcicarplay.so".toUTF8.toList

def inCarplayLauncher (file : Option Bytes) : Bool :=
  let cmdline := readCmdline 512 file
  occurs (lit kCarplayTag) cmdline || occurs (lit kCarplayLib) cmdline

/-! ## The basename -/

/-- What is behind the last slash. -/
def basename (path : Bytes) : Bytes := path.rtakeWhile (· ≠ 0x2F)

variable {a b : Bytes} {argv : List Bytes}

theorem lastSlash_concat (a : Bytes) (c : UInt8) :
    lastSlash (a ++ [c]) = if c = 0x2F then a.length + 1 else lastSlash a := by
  simp [lastSlash, List.zipIdx_append]

theorem lastSlash_le (a : Bytes) : lastSlash a ≤ a.length := by
  induction a using List.reverseRecOn with
  | nil => exact Nat.le_refl 0
  | append_singleton a c ih =>
    rw [lastSlash_concat, List.length_append, List.length_singleton]
    split <;> omega

/-- The loop finds the basename. -/
theorem drop_lastSlash (a : Bytes) : a.drop (lastSlash a) = basename a := by
  induction a using List.reverseRecOn with
  | nil => rfl
  | append_singleton a c ih =>
    rw [lastSlash_concat]
    by_cases hc : c = 0x2F
    · rw [if_pos hc, basename, List.rtakeWhile_concat_neg _ _ _ (by simp [hc])]
      exact List.drop_of_length_le (by simp)
    · rw [if_neg hc, List.drop_append_of_le_length (lastSlash_le a), ih, basename, basename,
        List.rtakeWhile_concat_pos _ _ _ (by simp [hc])]

theorem strrchr_concat (a : Bytes) (c d : UInt8) :
    strrchr (a ++ [c]) d = if c = d then some a.length else strrchr a d := by
  by_cases hc : c = d <;> simp [strrchr, List.zipIdx_append, List.filter_append, hc]

theorem strrchr_lt {i : ℕ} (h : strrchr a 0x2F = some i) : i < a.length := by
  induction a using List.reverseRecOn with
  | nil => exact absurd h (by simp [strrchr])
  | append_singleton a c ih =>
    rw [strrchr_concat] at h
    rw [List.length_append, List.length_singleton]
    split at h
    · obtain rfl := Option.some_inj.mp h
      omega
    · have := ih h
      omega

/-- So does `strrchr`. -/
theorem afterSlash_eq (a : Bytes) : afterSlash a = basename a := by
  induction a using List.reverseRecOn with
  | nil => rfl
  | append_singleton a c ih =>
    unfold afterSlash at ih ⊢
    rw [strrchr_concat]
    by_cases hc : c = 0x2F
    · rw [if_pos hc, basename, List.rtakeWhile_concat_neg _ _ _ (by simp [hc])]
      exact List.drop_of_length_le (by simp)
    · rw [if_neg hc, basename, List.rtakeWhile_concat_pos _ _ _ (by simp [hc]), ← basename, ← ih]
      cases hfound : strrchr a 0x2F with
      | none => rfl
      | some i =>
        have hlt := strrchr_lt hfound
        exact List.drop_append_of_le_length (by omega)

/-! ## What a buffer has of the arguments -/

theorem spaced_append (a b : Bytes) : spaced (a ++ b) = spaced a ++ spaced b := List.map_append

theorem spaced_eq_self (ha : 0 ∉ a) : spaced a = a := by
  have hid : ∀ c ∈ a, (if c = 0 then 0x20 else c) = c := fun c hc =>
    if_neg fun (h : c = 0) => ha (h ▸ hc)
  exact (List.map_congr_left hid).trans (List.map_id' a)

/-- The arguments as far as `n` bytes of the command line go. -/
def cutArgs : ℕ → List Bytes → List Bytes
  | _, [] => []
  | n, a :: argv => a.take n :: cutArgs (n - (a.length + 1)) argv

theorem mem_cutArgs_zero (h : a ∈ cutArgs 0 argv) : a = [] := by
  induction argv with
  | nil => exact absurd h List.not_mem_nil
  | cons b argv ih =>
    rw [cutArgs, Nat.zero_sub] at h
    rcases List.mem_cons.mp h with rfl | h
    · exact List.take_zero
    · exact ih h

/-- The first argument is cut short by the buffer or ends in a space. -/
theorem spaced_take_cons (ha : 0 ∉ a) (argv : List Bytes) (n : ℕ) :
    (n ≤ a.length ∧ spaced ((cmdlineOf (a :: argv)).take n) = a.take n) ∨
    (a.length < n ∧ spaced ((cmdlineOf (a :: argv)).take n) =
      a ++ ([0x20] ++ spaced ((cmdlineOf argv).take (n - (a.length + 1))))) := by
  have hline : cmdlineOf (a :: argv) = a ++ 0 :: cmdlineOf argv := by
    simp [cmdlineOf]
  rw [hline]
  rcases Nat.lt_or_ge a.length n with hlt | hge
  · obtain ⟨m, rfl⟩ := Nat.exists_eq_add_of_lt hlt
    right
    refine ⟨hlt, ?_⟩
    have hcut : (a ++ 0 :: cmdlineOf argv).take (a.length + m + 1) =
        a ++ ([0] ++ (cmdlineOf argv).take m) := by
      rw [Nat.add_assoc, List.take_append, List.take_of_length_le (by omega),
        Nat.add_sub_cancel_left]
      rfl
    rw [hcut, spaced_append, spaced_append, spaced_eq_self ha,
      show a.length + m + 1 - (a.length + 1) = m by omega]
    rfl
  · left
    refine ⟨hge, ?_⟩
    rw [List.take_append_of_le_length hge]
    exact spaced_eq_self fun h => ha (List.mem_of_mem_take h)

theorem takeWhile_append_space (a b : Bytes) :
    (a ++ ([0x20] ++ b)).takeWhile (· ≠ 0x20) = a.takeWhile (· ≠ 0x20) := by
  induction a with
  | nil => rfl
  | cons c a ih =>
    rw [List.cons_append, List.takeWhile_cons, List.takeWhile_cons, ih]

/-- `argv[0]`, up to a space in it. -/
def argv0 (argv : List Bytes) : Bytes := ((argv.headD []).take 255).takeWhile (· ≠ 0x20)

theorem takeWhile_readCmdline (hnul : ∀ a ∈ argv, 0 ∉ a) :
    (preloadReadCmdline 256 (some (cmdlineOf argv))).1.takeWhile (· ≠ 0x20) = argv0 argv := by
  have htrim : ∀ out : Bytes, (if out.getLast? = some 0x20 then out.dropLast else out).takeWhile
      (· ≠ 0x20) = out.takeWhile (· ≠ 0x20) := by
    intro out
    split
    · rename_i hlast
      have hsplit : out = out.dropLast ++ ([0x20] ++ []) := by
        rw [List.append_nil]
        exact (List.dropLast_append_getLast? _ hlast).symm
      conv_rhs => rw [hsplit]
      exact (takeWhile_append_space _ _).symm
    · rfl
  have hread : (preloadReadCmdline 256 (some (cmdlineOf argv))).1.takeWhile (· ≠ 0x20) =
      (spaced ((cmdlineOf argv).take 255)).takeWhile (· ≠ 0x20) := htrim _
  rw [hread]
  cases argv with
  | nil => rfl
  | cons a argv =>
    rcases spaced_take_cons (hnul a List.mem_cons_self) argv 255 with ⟨-, hline⟩ | ⟨hlt, hline⟩
    · rw [hline]
      rfl
    · rw [hline, takeWhile_append_space, argv0, List.headD_cons, List.take_of_length_le (by omega)]

/-- A word without a space is found within one of the arguments. -/
theorem occurs_cmdline {p : Pattern.Pat UInt8} (hclash : Pattern.NoClash p [0x20]) (hne : p ≠ [])
    (hnul : ∀ a ∈ argv, 0 ∉ a) (n : ℕ) :
    occurs p (spaced ((cmdlineOf argv).take n)) = true ↔
      ∃ a ∈ cutArgs n argv, occurs p a = true := by
  have hempty : ¬occurs p [] = true := by
    obtain ⟨o, p, rfl⟩ := List.exists_cons_of_ne_nil hne
    exact Bool.false_ne_true
  induction argv generalizing n with
  | nil =>
    have hline : spaced ((cmdlineOf []).take n) = [] := by simp [cmdlineOf, spaced]
    rw [hline]
    exact ⟨fun h => absurd h hempty, fun h => absurd h.choose_spec.1 List.not_mem_nil⟩
  | cons a argv ih =>
    have ih := ih fun b hb => hnul b (List.mem_cons_of_mem a hb)
    rw [cutArgs]
    rcases spaced_take_cons (hnul a List.mem_cons_self) argv n with ⟨hle, hline⟩ | ⟨hlt, hline⟩
    · rw [hline, List.exists_mem_cons_iff]
      refine ⟨.inl, fun h => h.resolve_right ?_⟩
      -- nothing is left of the other arguments
      rintro ⟨b, hb, hocc⟩
      rw [Nat.sub_eq_zero_of_le (by omega)] at hb
      exact hempty (mem_cutArgs_zero hb ▸ hocc)
    · have hwhole : a.take n = a := List.take_of_length_le (by omega)
      rw [hline, hclash.occurs_around hne, List.exists_mem_cons_iff, hwhole]
      exact or_congr Iff.rfl (ih _)

/-! ## The gates -/

theorem checked_names : Pattern.NoClash (lit kCarplayTag) [0x20] ∧ lit kCarplayTag ≠ [] ∧
    Pattern.NoClash (lit kCarplayLib) [0x20] ∧ lit kCarplayLib ≠ [] ∧ kTarget ≠ kAapService ∧
    basename [] ≠ kTarget ∧ basename [] ≠ kAapService := by
  decide +kernel

theorem preloadIsLauncherProcess_iff (hnul : ∀ a ∈ argv, 0 ∉ a) :
    preloadIsLauncherProcess (preloadReadCmdline 256 (some (cmdlineOf argv))).1 = true ↔
      basename (argv0 argv) = kTarget := by
  have harg0 := takeWhile_readCmdline hnul
  unfold preloadIsLauncherProcess
  split
  · rename_i hnone
    rw [hnone] at harg0
    rw [← harg0]
    exact ⟨fun h => absurd h Bool.false_ne_true, fun h => absurd h checked_names.2.2.2.2.2.1⟩
  · rw [harg0]
    dsimp only
    rw [drop_lastSlash, beq_iff_eq]

theorem preloadInAapService_iff (hnul : ∀ a ∈ argv, 0 ∉ a) :
    preloadInAapService (some (cmdlineOf argv)) = true ↔
      basename (argv0 argv) = kAapService := by
  have harg0 := takeWhile_readCmdline hnul
  unfold preloadInAapService
  dsimp only
  split
  · rename_i hnone
    -- nothing was read
    have hempty : (preloadReadCmdline 256 (some (cmdlineOf argv))).1 = [] := by
      have hout : spaced ((cmdlineOf argv).take 255) = [] := List.eq_nil_of_length_eq_zero hnone
      simp [preloadReadCmdline, hout]
    rw [hempty] at harg0
    rw [← harg0]
    exact ⟨fun h => absurd h Bool.false_ne_true, fun h => absurd h checked_names.2.2.2.2.2.2⟩
  · rw [harg0, afterSlash_eq, beq_iff_eq]

/-- **What the gates ask of a process.** The one of the service patches and the one of the
aap_service patch: the basename of `argv[0]`, as far as the buffer goes and up to a space. The
one of CarPlay: an argument that has the tag of the service in it, or its library. No process
is both the launcher and aap_service. -/
theorem gates_iff (argv : List Bytes) (hnul : ∀ a ∈ argv, 0 ∉ a) :
    (preloadIsLauncherProcess (preloadReadCmdline 256 (some (cmdlineOf argv))).1 = true ↔
      basename (argv0 argv) = kTarget) ∧
    (preloadInAapService (some (cmdlineOf argv)) = true ↔
      basename (argv0 argv) = kAapService) ∧
    (inCarplayLauncher (some (cmdlineOf argv)) = true ↔ ∃ a ∈ cutArgs 511 argv,
      occurs (lit kCarplayTag) a = true ∨ occurs (lit kCarplayLib) a = true) ∧
    ¬(preloadIsLauncherProcess (preloadReadCmdline 256 (some (cmdlineOf argv))).1 = true ∧
      preloadInAapService (some (cmdlineOf argv)) = true) := by
  obtain ⟨htag, htag', hlib, hlib', hapart, -⟩ := checked_names
  have hlauncher := preloadIsLauncherProcess_iff hnul
  have hservice := preloadInAapService_iff hnul
  refine ⟨hlauncher, hservice, ?_, fun h =>
    hapart ((hlauncher.mp h.1).symm.trans (hservice.mp h.2))⟩
  unfold inCarplayLauncher
  rw [Bool.or_eq_true]
  have hsplit := or_congr (occurs_cmdline htag htag' hnul 511) (occurs_cmdline hlib hlib' hnul 511)
  refine hsplit.trans ⟨?_, ?_⟩
  · rintro (⟨a, ha, hocc⟩ | ⟨a, ha, hocc⟩)
    · exact ⟨a, ha, .inl hocc⟩
    · exact ⟨a, ha, .inr hocc⟩
  · rintro ⟨a, ha, hocc | hocc⟩
    · exact .inl ⟨a, ha, hocc⟩
    · exact .inr ⟨a, ha, hocc⟩

/-- The launcher of CarPlay, and a child of it that is about to be something else. -/
def launcherArgs : List Bytes :=
  ["/jci/sm/sm_svclauncher", "-l", "jciCARPLAY", "/jci/carplay/blmjcicarplay.so", "0", "-a"].map
    fun a => a.toUTF8.toList

def childArgs : List Bytes := ["sh", "-c", "killall -q jci-dialog"].map fun a => a.toUTF8.toList

theorem gates_iff_launcher :
    preloadIsLauncherProcess (preloadReadCmdline 256 (some (cmdlineOf launcherArgs))).1 = true ∧
    preloadInAapService (some (cmdlineOf launcherArgs)) = false ∧
    inCarplayLauncher (some (cmdlineOf launcherArgs)) = true ∧
    inCarplayLauncher (some (cmdlineOf childArgs)) = false := by
  have hnul : (∀ a ∈ launcherArgs, 0 ∉ a) ∧ basename (argv0 launcherArgs) = kTarget ∧
      (∃ a ∈ cutArgs 511 launcherArgs,
        occurs (lit kCarplayTag) a = true ∨ occurs (lit kCarplayLib) a = true) ∧
      (∀ a ∈ childArgs, 0 ∉ a) ∧ ¬∃ a ∈ cutArgs 511 childArgs,
        occurs (lit kCarplayTag) a = true ∨ occurs (lit kCarplayLib) a = true := by
    decide +kernel
  obtain ⟨hlauncher, hname, htag, hchild, hother⟩ := hnul
  obtain ⟨hfirst, -, hcarplay, hnot⟩ := gates_iff launcherArgs hlauncher
  refine ⟨hfirst.mpr hname, ?_, hcarplay.mpr htag, ?_⟩
  · exact Bool.eq_false_iff.mpr fun h => hnot ⟨hfirst.mpr hname, h⟩
  · exact Bool.eq_false_iff.mpr fun h => hother ((gates_iff childArgs hchild).2.2.1.mp h)

end OemAaMod
