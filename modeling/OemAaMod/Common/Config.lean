import OemAaMod.Lib.CStr
import OemAaMod.Lib.LastAssign
import OemAaMod.Lib.Trim

/-!
# The configuration file

`config.h`: the `key=value` file that travels with the libraries.

* `fgetsLines` — what the reads of `parse_file` return, a buffer of 256 bytes at a time;
* `parseLine`, `applyKv`, `parseFile` — the parser and its callback;
* `Pair` — the grammar of a line, as the file documents it; `parseLine_iff` — the parser
  accepts it;
* `Documented` — the settings that the lines of a file are to give.
-/

namespace OemAaMod.Config

open CStr (Bytes cstr)
open LastAssign (IsLast last)
open Trim (IsRtrim IsTrim trim)

/-! ## The settings -/

inductive HudTransport
  | vbs
  | svcnavi
deriving DecidableEq

structure Settings where
  touch                  : Bool := true
  hud                    : Bool := true
  hudTransport           : HudTransport := .svcnavi
  forceStreetName        : Bool := false
  hudFoldLatin           : Bool := true
  useProtocolV16         : Bool := false
  aaAudioLowLatency      : Bool := false
  mutePausesPhone        : Bool := true
  blockHeadunitMediaPlay : Bool := false
  carplayVnNormalize     : Bool := true
  carplaySpeedLimit      : Bool := false
  carplayUdpdLaunch      : Bool := true
  carplayNavDiag         : Bool := false
  carplayMsgtypeDiag     : Bool := false
  carplayHudDebug        : Bool := false
deriving DecidableEq

/-- The settings that are switches. -/
inductive Switch
  | touch
  | hud
  | forceStreetName
  | hudFoldLatin
  | useProtocolV16
  | aaAudioLowLatency
  | mutePausesPhone
  | blockHeadunitMediaPlay
  | carplayVnNormalize
  | carplaySpeedLimit
  | carplayUdpdLaunch
  | carplayNavDiag
  | carplayMsgtypeDiag
  | carplayHudDebug
deriving DecidableEq

def Switch.key : Switch → String
  | .touch => "touch"
  | .hud => "hud"
  | .forceStreetName => "force_street_name"
  | .hudFoldLatin => "hud_fold_latin"
  | .useProtocolV16 => "use_protocol_v1_6"
  | .aaAudioLowLatency => "aa_audio_low_latency"
  | .mutePausesPhone => "mute_pauses_phone"
  | .blockHeadunitMediaPlay => "block_headunit_media_play"
  | .carplayVnNormalize => "carplay_vn_normalize"
  | .carplaySpeedLimit => "carplay_speed_limit"
  | .carplayUdpdLaunch => "carplay_udpd_launch"
  | .carplayNavDiag => "carplay_nav_diag"
  | .carplayMsgtypeDiag => "carplay_msgtype_diag"
  | .carplayHudDebug => "carplay_hud_debug"

def Settings.switch (s : Settings) : Switch → Bool
  | .touch => s.touch
  | .hud => s.hud
  | .forceStreetName => s.forceStreetName
  | .hudFoldLatin => s.hudFoldLatin
  | .useProtocolV16 => s.useProtocolV16
  | .aaAudioLowLatency => s.aaAudioLowLatency
  | .mutePausesPhone => s.mutePausesPhone
  | .blockHeadunitMediaPlay => s.blockHeadunitMediaPlay
  | .carplayVnNormalize => s.carplayVnNormalize
  | .carplaySpeedLimit => s.carplaySpeedLimit
  | .carplayUdpdLaunch => s.carplayUdpdLaunch
  | .carplayNavDiag => s.carplayNavDiag
  | .carplayMsgtypeDiag => s.carplayMsgtypeDiag
  | .carplayHudDebug => s.carplayHudDebug

def Settings.setSwitch (s : Settings) (b : Bool) : Switch → Settings
  | .touch => { s with touch := b }
  | .hud => { s with hud := b }
  | .forceStreetName => { s with forceStreetName := b }
  | .hudFoldLatin => { s with hudFoldLatin := b }
  | .useProtocolV16 => { s with useProtocolV16 := b }
  | .aaAudioLowLatency => { s with aaAudioLowLatency := b }
  | .mutePausesPhone => { s with mutePausesPhone := b }
  | .blockHeadunitMediaPlay => { s with blockHeadunitMediaPlay := b }
  | .carplayVnNormalize => { s with carplayVnNormalize := b }
  | .carplaySpeedLimit => { s with carplaySpeedLimit := b }
  | .carplayUdpdLaunch => { s with carplayUdpdLaunch := b }
  | .carplayNavDiag => { s with carplayNavDiag := b }
  | .carplayMsgtypeDiag => { s with carplayMsgtypeDiag := b }
  | .carplayHudDebug => { s with carplayHudDebug := b }

/-! ## The parser -/

/-- A string of the source. -/
def bytes (text : String) : Bytes := text.toUTF8.toList

/-- `tolower`, in the C locale. -/
def toLower (b : UInt8) : UInt8 := if 0x41 ≤ b ∧ b ≤ 0x5A then b + 0x20 else b

/-- `strcasecmp` finds no difference. -/
def strcaseeq (a b : Bytes) : Prop := a.map toLower = b.map toLower

instance (a b : Bytes) : Decidable (strcaseeq a b) := inferInstanceAs (Decidable (_ = _))

/-- The `fgets` of a file into a buffer of 256 bytes, until the end of it: `line` is in the
buffer. -/
def fgetsLines (line : Bytes) : Bytes → List Bytes
  | [] => if line = [] then [] else [line]
  | b :: rest =>
    if b = 0x0A ∨ line.length + 1 = 255 then (line ++ [b]) :: fgetsLines [] rest
    else fgetsLines (line ++ [b]) rest

def blank (b : UInt8) : Bool := b == 0x20 || b == 0x09

def notEq (b : UInt8) : Bool := b != 0x3D

def newline (b : UInt8) : Bool := b == 0x0A || b == 0x0D

/-- The body of the loop of `parse_file`: the key and the value of a read, if it gets to the
callback. -/
def parseLine (buf : Bytes) : Option (Bytes × Bytes) :=
  let line := (cstr buf).rdropWhile newline
  let p := line.dropWhile blank
  if p = [] ∨ p.head? = some 0x23 then none
  else if 0x3D ∉ p then none
  else
    let key := (p.takeWhile notEq).rdropWhile blank
    let val := ((p.dropWhile notEq).tail.dropWhile blank).rdropWhile blank
    if key = [] then none else some (key, val)

def parseBool (val : Bytes) (deflt : Bool) : Bool :=
  if strcaseeq val (bytes "true") ∨ strcaseeq val (bytes "1") ∨ strcaseeq val (bytes "yes") ∨
      strcaseeq val (bytes "on") then true
  else if strcaseeq val (bytes "false") ∨ strcaseeq val (bytes "0") ∨ strcaseeq val (bytes "no") ∨
      strcaseeq val (bytes "off") then false
  else deflt

/-- The settings in the order in which `apply_kv` compares their keys, `none` the transport. -/
def kKeys : List (Option Switch) :=
  [some .touch, some .hud, none, some .forceStreetName, some .hudFoldLatin, some .useProtocolV16,
    some .aaAudioLowLatency, some .mutePausesPhone, some .blockHeadunitMediaPlay,
    some .carplayVnNormalize, some .carplaySpeedLimit, some .carplayUdpdLaunch,
    some .carplayNavDiag, some .carplayMsgtypeDiag, some .carplayHudDebug]

def keyOf : Option Switch → Bytes
  | some switch => bytes switch.key
  | none => bytes "hud_transport"

/-- The transport of a value, the one there is for an unknown one. -/
def parseTransport (val : Bytes) (deflt : HudTransport) : HudTransport :=
  if strcaseeq val (bytes "svcnavi") ∨ strcaseeq val (bytes "svcjcinavi") then .svcnavi
  else if strcaseeq val (bytes "vbs") then .vbs
  else deflt

def applyKv (key val : Bytes) (s : Settings) : Settings :=
  match kKeys.find? fun k => strcaseeq key (keyOf k) with
  | some (some switch) => s.setSwitch (parseBool val (s.switch switch)) switch
  | some none => { s with hudTransport := parseTransport val s.hudTransport }
  | none => s

/-- What a read does. -/
def applyLine (s : Settings) (buf : Bytes) : Settings :=
  match parseLine buf with
  | some (key, val) => applyKv key val s
  | none => s

/-- `parse_file` with `apply_kv`. -/
def parseFile (content : Bytes) (s : Settings) : Settings :=
  (fgetsLines [] content).foldl applyLine s

/-! ## The grammar -/

/-- A line that sets a key: the text before its first `=` and the text behind it, without
the blanks around them, once the carriage returns at its end are gone. The key is not
empty and does not make the line a comment. -/
def Pair (line key val : Bytes) : Prop :=
  ∃ body rawKey rawVal, IsRtrim (· == 0x0D) line body ∧ body = rawKey ++ 0x3D :: rawVal ∧
    0x3D ∉ rawKey ∧ IsTrim blank rawKey key ∧ IsTrim blank rawVal val ∧ key ≠ [] ∧
      key.head? ≠ some 0x23

/-- The words for a switch. -/
def words : Bool → List String
  | true => ["true", "1", "yes", "on"]
  | false => ["false", "0", "no", "off"]

def transportWords : HudTransport → List String
  | .svcnavi => ["svcnavi", "svcjcinavi"]
  | .vbs => ["vbs"]

/-- A line assigns to a key one of the words of `b`. -/
def Assigns {β : Type*} (k : Option Switch) (words : β → List String) (line : Bytes) (b : β) : Prop :=
  ∃ key val, Pair line key val ∧ strcaseeq key (keyOf k) ∧ ∃ w ∈ words b, strcaseeq val (bytes w)

/-- The logical lines of a file. -/
def lines (content : Bytes) : List Bytes := content.splitOn 0x0A

/-- The file makes `s'` of `s` as documented: of each setting the last valid assignment
counts, and nothing else does. -/
def Documented (content : Bytes) (s s' : Settings) : Prop :=
  (∀ k, IsLast (Assigns (some k) words) (lines content) (s.switch k) (s'.switch k)) ∧
    IsLast (Assigns none transportWords) (lines content) s.hudTransport s'.hudTransport

/-! ## The parser accepts the grammar -/

variable {line key val : Bytes}

theorem blank_ne {b : UInt8} (h : blank b = true) : b ≠ 0x3D ∧ b ≠ 0x23 := by
  simp only [blank, Bool.or_eq_true, beq_iff_eq] at h
  obtain rfl | rfl := h <;> decide

/-- The blanks before a line are before its first `=`. -/
theorem takeWhile_dropWhile_blank (line : Bytes) :
    (line.dropWhile blank).takeWhile notEq = (line.takeWhile notEq).dropWhile blank ∧
      (line.dropWhile blank).dropWhile notEq = line.dropWhile notEq := by
  induction line with
  | nil => exact ⟨rfl, rfl⟩
  | cons b line ih =>
    by_cases hb : blank b = true
    · have hne : notEq b = true := bne_iff_ne.mpr (blank_ne hb).1
      rw [List.dropWhile_cons_of_pos hb, List.takeWhile_cons_of_pos hne,
        List.dropWhile_cons_of_pos hne, List.dropWhile_cons_of_pos hb]
      exact ih
    · rw [List.dropWhile_cons_of_neg hb]
      refine ⟨?_, rfl⟩
      by_cases hne : notEq b = true
      · rw [List.takeWhile_cons_of_pos hne, List.dropWhile_cons_of_neg hb]
      · rw [List.takeWhile_cons_of_neg hne, List.dropWhile_nil]

/-- A key and a value around the first `=`. -/
theorem split_iff {body rawKey rawVal : Bytes} :
    (body = rawKey ++ 0x3D :: rawVal ∧ 0x3D ∉ rawKey) ↔
      0x3D ∈ body ∧ body.takeWhile notEq = rawKey ∧
        (body.dropWhile notEq).tail = rawVal := by
  constructor
  · rintro ⟨rfl, hkey⟩
    have hall : ∀ b ∈ rawKey, notEq b = true := fun b hb =>
      bne_iff_ne.mpr fun heq => hkey (heq ▸ hb)
    refine ⟨by simp, ?_, ?_⟩
    · rw [List.takeWhile_append_of_pos hall, List.takeWhile_cons_of_neg (by decide), List.append_nil]
    · rw [List.dropWhile_append_of_pos hall, List.dropWhile_cons_of_neg (by decide), List.tail_cons]
  · rintro ⟨hmem, rfl, rfl⟩
    have hne : body.dropWhile notEq ≠ [] := by
      rw [Ne, List.dropWhile_eq_nil_iff]
      exact fun hall => absurd (hall _ hmem) (by decide)
    obtain ⟨b, rest, hrest⟩ := List.exists_cons_of_ne_nil hne
    have hb : b = 0x3D := by
      have hhead : notEq b = false := Trim.head?_dropWhile b (by rw [hrest]; rfl)
      simpa [notEq] using hhead
    refine ⟨?_, fun hmem => absurd (List.mem_takeWhile_imp hmem) (by decide)⟩
    conv_lhs => rw [← List.takeWhile_append_dropWhile (p := notEq) (l := body)]
    rw [hrest, hb, List.tail_cons]

/-- In a line there are only carriage returns to strip. -/
theorem strip_line (hline : ∀ b ∈ line, b ≠ 0 ∧ b ≠ 0x0A) :
    (cstr line).rdropWhile newline = line.rdropWhile (· == 0x0D) := by
  have hcstr : cstr line = line := by
    have h := CStr.cstr_append_of_forall_ne (fun b hb => (hline b hb).1) []
    rwa [List.append_nil, CStr.cstr_nil, List.append_nil] at h
  rw [hcstr]
  induction line using List.reverseRecOn with
  | nil => rfl
  | append_singleton line b ih =>
    have hb := (hline b (by simp)).2
    have hnewline : newline b = (b == 0x0D) := by simp [newline, hb]
    rw [List.rdropWhile_concat, List.rdropWhile_concat, hnewline]
    split
    · have hrest : ∀ c ∈ line, c ≠ 0 ∧ c ≠ 0x0A := fun c hc => hline c (List.mem_append_left _ hc)
      refine ih hrest ?_
      have h := CStr.cstr_append_of_forall_ne (fun b hb => (hrest b hb).1) []
      rwa [List.append_nil, CStr.cstr_nil, List.append_nil] at h
    · rfl

theorem parseLine_iff (hline : ∀ b ∈ line, b ≠ 0 ∧ b ≠ 0x0A) :
    parseLine line = some (key, val) ↔ Pair line key val := by
  unfold parseLine
  rw [strip_line hline]
  generalize hbody : line.rdropWhile (· == 0x0D) = body
  have hpair : Pair line key val ↔ 0x3D ∈ body ∧ trim blank (body.takeWhile notEq) = key ∧
      trim blank (body.dropWhile notEq).tail = val ∧ key ≠ [] ∧ key.head? ≠ some 0x23 := by
    unfold Pair
    simp only [Trim.isRtrim_iff, Trim.isTrim_iff, hbody]
    constructor
    · rintro ⟨_, rawKey, rawVal, rfl, heq, hkey, htrim⟩
      obtain ⟨hmem, rfl, rfl⟩ := split_iff.mp ⟨heq, hkey⟩
      exact ⟨hmem, htrim⟩
    · rintro ⟨hmem, htrim⟩
      obtain ⟨heq, hkey⟩ := split_iff.mpr ⟨hmem, rfl, rfl⟩
      exact ⟨body, _, _, rfl, heq, hkey, htrim⟩
  rw [hpair]
  obtain ⟨htake, hdrop⟩ := takeWhile_dropWhile_blank body
  have hmem : 0x3D ∈ body.dropWhile blank ↔ 0x3D ∈ body := by
    conv_rhs => rw [← List.takeWhile_append_dropWhile (p := blank) (l := body)]
    rw [List.mem_append]
    exact (or_iff_right fun h => (blank_ne (List.mem_takeWhile_imp h)).1 rfl).symm
  -- a key begins where its line does
  have hhead : trim blank (body.takeWhile notEq) ≠ [] →
      (trim blank (body.takeWhile notEq)).head? = (body.dropWhile blank).head? := by
    intro hne
    have hprefix : trim blank (body.takeWhile notEq) <+: body.dropWhile blank :=
      (List.rdropWhile_prefix ..).trans (htake ▸ List.takeWhile_prefix _)
    obtain ⟨rest, hrest⟩ := hprefix
    rw [← hrest, List.head?_append_of_ne_nil _ hne]
  simp only [htake, hdrop]
  by_cases hcomment : body.dropWhile blank = [] ∨ (body.dropWhile blank).head? = some 0x23
  · rw [if_pos hcomment]
    refine ⟨fun h => absurd h (by simp), ?_⟩
    rintro ⟨heq, rfl, rfl, hne, hhash⟩
    obtain hnil | hcomment := hcomment
    · rw [← hmem, hnil] at heq
      exact absurd heq List.not_mem_nil
    · exact absurd ((hhead hne).trans hcomment) hhash
  · rw [if_neg hcomment]
    by_cases heq : 0x3D ∈ body
    · rw [if_neg (not_not.mpr (hmem.mpr heq))]
      show (if trim blank (body.takeWhile notEq) = [] then none
        else some (trim blank (body.takeWhile notEq), trim blank (body.dropWhile notEq).tail)) =
          some (key, val) ↔ _
      by_cases hkey : trim blank (body.takeWhile notEq) = []
      · rw [if_pos hkey]
        refine ⟨fun h => absurd h (by simp), ?_⟩
        rintro ⟨-, rfl, -, hne, -⟩
        exact absurd hkey hne
      · rw [if_neg hkey, Option.some_inj, Prod.mk.injEq]
        constructor
        · rintro ⟨rfl, rfl⟩
          exact ⟨heq, rfl, rfl, hkey, fun hhash => hcomment (.inr ((hhead hkey).symm.trans hhash))⟩
        · rintro ⟨-, rfl, rfl, -, -⟩
          exact ⟨rfl, rfl⟩
    · rw [if_pos fun h => heq (hmem.mp h)]
      exact ⟨fun h => absurd h (by simp), fun h => absurd h.1 heq⟩

/-! ## The callback, key by key -/

/-- The search for the only element with a property. -/
theorem find?_eq_some_iff_of_unique {α : Type*} {l : List α} {p : α → Bool} (hall : ∀ a, a ∈ l)
    (hunique : ∀ a b, p a = true → p b = true → a = b) {a : α} :
    l.find? p = some a ↔ p a = true := by
  constructor
  · exact List.find?_some
  · intro ha
    cases hfind : l.find? p with
    | none => exact absurd ha (List.find?_eq_none.mp hfind a (hall a))
    | some b => rw [hunique b a (List.find?_some hfind) ha]

theorem mem_kKeys (k : Option Switch) : k ∈ kKeys := by
  rcases k with _ | k
  · decide
  · cases k <;> decide

/-- No two settings have one key. -/
theorem keyOf_inj {k k' : Option Switch} (h : strcaseeq (keyOf k) (keyOf k')) : k = k' := by
  have hall : kKeys.all fun k => kKeys.all fun k' =>
      decide (strcaseeq (keyOf k) (keyOf k') → k = k') := by decide +kernel
  rw [List.all_eq_true] at hall
  exact of_decide_eq_true (List.all_eq_true.mp (hall k (mem_kKeys k)) k' (mem_kKeys k')) h

theorem find_key {key : Bytes} {k : Option Switch} :
    (kKeys.find? fun k => decide (strcaseeq key (keyOf k))) = some k ↔ strcaseeq key (keyOf k) := by
  rw [find?_eq_some_iff_of_unique mem_kKeys, decide_eq_true_eq]
  intro k k' hk hk'
  exact keyOf_inj ((of_decide_eq_true hk).symm.trans (of_decide_eq_true hk'))

/-- The value a word stands for. -/
def switchValue (val : Bytes) : Option Bool :=
  [true, false].find? fun b => decide (∃ w ∈ words b, strcaseeq val (bytes w))

def transportValue (val : Bytes) : Option HudTransport :=
  [.svcnavi, .vbs].find? fun t => decide (∃ w ∈ transportWords t, strcaseeq val (bytes w))

theorem switchValue_iff (b : Bool) :
    (∃ w ∈ words b, strcaseeq val (bytes w)) ↔ switchValue val = some b := by
  unfold switchValue
  rw [find?_eq_some_iff_of_unique (by decide), decide_eq_true_eq]
  have hdisjoint : ∀ w ∈ words true, ∀ w' ∈ words false, ¬strcaseeq (bytes w) (bytes w') := by
    decide +kernel
  intro b b' hb hb'
  obtain ⟨w, hw, heq⟩ := of_decide_eq_true hb
  obtain ⟨w', hw', heq'⟩ := of_decide_eq_true hb'
  cases b <;> cases b'
  · rfl
  · exact absurd (heq'.symm.trans heq) (hdisjoint w' hw' w hw)
  · exact absurd (heq.symm.trans heq') (hdisjoint w hw w' hw')
  · rfl

theorem transportValue_iff (t : HudTransport) :
    (∃ w ∈ transportWords t, strcaseeq val (bytes w)) ↔ transportValue val = some t := by
  unfold transportValue
  rw [find?_eq_some_iff_of_unique (fun t => by cases t <;> simp), decide_eq_true_eq]
  have hdisjoint : ∀ w ∈ transportWords .svcnavi, ∀ w' ∈ transportWords .vbs,
      ¬strcaseeq (bytes w) (bytes w') := by
    decide +kernel
  intro t t' ht ht'
  obtain ⟨w, hw, heq⟩ := of_decide_eq_true ht
  obtain ⟨w', hw', heq'⟩ := of_decide_eq_true ht'
  cases t <;> cases t'
  · rfl
  · exact absurd (heq'.symm.trans heq) (hdisjoint w' hw' w hw)
  · exact absurd (heq.symm.trans heq') (hdisjoint w hw w' hw')
  · rfl

theorem parseBool_eq (deflt : Bool) : parseBool val deflt = (switchValue val).getD deflt := by
  unfold parseBool switchValue
  simp only [words, List.find?_cons, List.find?_nil, List.mem_cons, List.not_mem_nil, or_false,
    exists_eq_or_imp, exists_eq_left]
  split
  · rename_i htrue
    simp [htrue]
  · rename_i htrue
    split
    · rename_i hfalse
      simp [htrue, hfalse]
    · rename_i hfalse
      simp [htrue, hfalse]

theorem parseTransport_eq (deflt : HudTransport) :
    parseTransport val deflt = (transportValue val).getD deflt := by
  unfold parseTransport transportValue
  simp only [transportWords, List.find?_cons, List.find?_nil, List.mem_cons, List.not_mem_nil,
    or_false, exists_eq_or_imp, exists_eq_left]
  split
  · rename_i hsvc
    simp [hsvc]
  · rename_i hsvc
    split
    · rename_i hvbs
      simp [hsvc, hvbs]
    · rename_i hvbs
      simp [hsvc, hvbs]

theorem switch_setSwitch (s : Settings) (b : Bool) (k k' : Switch) :
    (s.setSwitch b k).switch k' = if k = k' then b else s.switch k' := by
  cases k <;> cases k' <;> rfl

theorem hudTransport_setSwitch (s : Settings) (b : Bool) (k : Switch) :
    (s.setSwitch b k).hudTransport = s.hudTransport := by
  cases k <;> rfl

/-- What a line or a piece of one assigns to a key. -/
def assign {β : Type*} (k : Option Switch) (value : Bytes → Option β) (line : Bytes) : Option β :=
  match parseLine line with
  | some (key, val) => if strcaseeq key (keyOf k) then value val else none
  | none => none

theorem applyLine_switch (s : Settings) (buf : Bytes) (k : Switch) :
    (applyLine s buf).switch k = (assign (some k) switchValue buf).getD (s.switch k) := by
  unfold applyLine assign
  cases parseLine buf with
  | none => rfl
  | some pair =>
    obtain ⟨key, val⟩ := pair
    dsimp only
    unfold applyKv
    by_cases hkey : strcaseeq key (keyOf (some k))
    · rw [find_key.mpr hkey, if_pos hkey, ← parseBool_eq]
      dsimp only
      rw [switch_setSwitch, if_pos rfl]
    · rw [if_neg hkey]
      cases hfind : kKeys.find? fun k => decide (strcaseeq key (keyOf k)) with
      | none => rfl
      | some found =>
        cases found with
        | none => rfl
        | some k' =>
          have hne : k' ≠ k := fun heq => hkey (find_key.mp (heq ▸ hfind))
          dsimp only
          rw [switch_setSwitch, if_neg hne]
          rfl

theorem applyLine_hudTransport (s : Settings) (buf : Bytes) :
    (applyLine s buf).hudTransport = (assign none transportValue buf).getD s.hudTransport := by
  unfold applyLine assign
  cases parseLine buf with
  | none => rfl
  | some pair =>
    obtain ⟨key, val⟩ := pair
    dsimp only
    unfold applyKv
    by_cases hkey : strcaseeq key (keyOf none)
    · rw [find_key.mpr hkey, if_pos hkey, ← parseTransport_eq]
    · rw [if_neg hkey]
      cases hfind : kKeys.find? fun k => decide (strcaseeq key (keyOf k)) with
      | none => rfl
      | some found =>
        cases found with
        | none => exact absurd (find_key.mp hfind) hkey
        | some k' => exact hudTransport_setSwitch _ _ _

end OemAaMod.Config
