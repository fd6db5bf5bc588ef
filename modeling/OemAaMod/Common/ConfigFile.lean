import OemAaMod.Common.Config

/-!
# Reads and lines

`parse_file` reads a buffer of 256 bytes at a time and takes each read for a line, so a line
of more than 255 bytes comes to it in pieces.

* `pieces` — the pieces of a line; `fgetsLines_filterMap` — the reads come to the pieces of
  the lines;
* `Uncut` — a line sets the same in pieces; so does one that fits, `uncut_of_short`;
* `parseFile_documented_iff` — a file of such lines is read as documented, and no other one
  in which each setting has a line of its own.
-/

namespace OemAaMod.Config

open CStr (Bytes cstr)
open LastAssign (IsLast last)

variable {content line piece key val : Bytes} {s s' : Settings}

/-! ## What a file makes of the settings -/

theorem parseFile_switch (content : Bytes) (s : Settings) (k : Switch) :
    (parseFile content s).switch k =
      (last (assign (some k) switchValue) (fgetsLines [] content)).getD (s.switch k) :=
  LastAssign.foldl_last applyLine (·.switch k) (applyLine_switch · · k) s _

theorem parseFile_hudTransport (content : Bytes) (s : Settings) :
    (parseFile content s).hudTransport =
      (last (assign none transportValue) (fgetsLines [] content)).getD s.hudTransport :=
  LastAssign.foldl_last applyLine Settings.hudTransport applyLine_hudTransport s _

theorem assigns_iff {β : Type*} {k : Option Switch} {words : β → List String}
    {value : Bytes → Option β} (hline : ∀ b ∈ line, b ≠ 0 ∧ b ≠ 0x0A)
    (hvalue : ∀ val b, (∃ w ∈ words b, strcaseeq val (bytes w)) ↔ value val = some b) (b : β) :
    Assigns k words line b ↔ assign k value line = some b := by
  unfold Assigns assign
  simp only [← parseLine_iff hline, hvalue]
  cases parseLine line with
  | none => simp
  | some pair =>
    obtain ⟨key, val⟩ := pair
    simp only [Option.some_inj, Prod.mk.injEq, Option.ite_none_right_eq_some]
    constructor
    · rintro ⟨_, _, ⟨rfl, rfl⟩, hkey, hval⟩
      exact ⟨hkey, hval⟩
    · rintro ⟨hkey, hval⟩
      exact ⟨key, val, ⟨rfl, rfl⟩, hkey, hval⟩

/-! ## Lines -/

theorem lines_nil : lines [] = [[]] := rfl

theorem lines_newline (content : Bytes) : lines (0x0A :: content) = [] :: lines content := by
  unfold lines List.splitOn
  rw [List.splitOnP_cons_eq_if_modifyHead, if_pos (by decide)]

theorem exists_lines_cons {b : UInt8} (hb : b ≠ 0x0A) (content : Bytes) :
    ∃ l ls, lines content = l :: ls ∧ lines (b :: content) = (b :: l) :: ls := by
  obtain ⟨l, ls, hlines⟩ : ∃ l ls, lines content = l :: ls :=
    List.exists_cons_of_ne_nil (List.splitOnP_ne_nil _ content)
  refine ⟨l, ls, hlines, ?_⟩
  unfold lines List.splitOn at hlines ⊢
  rw [List.splitOnP_cons_eq_if_modifyHead, if_neg (by simpa using hb), hlines,
    List.modifyHead_cons]

/-- A line has no newline in it. -/
theorem mem_lines (hnul : ∀ b ∈ content, b ≠ 0) :
    ∀ line ∈ lines content, ∀ b ∈ line, b ≠ 0 ∧ b ≠ 0x0A := by
  induction content with
  | nil => simp [lines_nil]
  | cons b content ih =>
    obtain ⟨hb, hnul⟩ := List.forall_mem_cons.mp hnul
    by_cases hnewline : b = 0x0A
    · rw [hnewline, lines_newline]
      exact List.forall_mem_cons.mpr ⟨fun _ h => absurd h List.not_mem_nil, ih hnul⟩
    · obtain ⟨l, ls, hlines, hcons⟩ := exists_lines_cons hnewline content
      obtain ⟨hl, hls⟩ := List.forall_mem_cons.mp (hlines ▸ ih hnul)
      rw [hcons]
      exact List.forall_mem_cons.mpr ⟨List.forall_mem_cons.mpr ⟨⟨hb, hnewline⟩, hl⟩, hls⟩

theorem documented_iff (hnul : ∀ b ∈ content, b ≠ 0) : Documented content s s' ↔
    (∀ k, s'.switch k = (last (assign (some k) switchValue) (lines content)).getD (s.switch k)) ∧
      s'.hudTransport = (last (assign none transportValue) (lines content)).getD s.hudTransport := by
  unfold Documented
  refine and_congr (forall_congr' fun k => ?_) ?_
  · exact LastAssign.isLast_iff fun line hline b =>
      assigns_iff (mem_lines hnul line hline) (fun _ => switchValue_iff) b
  · exact LastAssign.isLast_iff fun line hline b =>
      assigns_iff (mem_lines hnul line hline) (fun _ => transportValue_iff) b

/-! ## Pieces -/

/-- A line in pieces of 255 bytes, with `piece` in hand. -/
def piecesFrom (piece : Bytes) : Bytes → List Bytes
  | [] => [piece]
  | b :: line =>
    if piece.length = 255 then piece :: piecesFrom [b] line else piecesFrom (piece ++ [b]) line

def pieces (line : Bytes) : List Bytes := piecesFrom [] line

theorem flatten_piecesFrom (line : Bytes) :
    ∀ piece, (piecesFrom piece line).flatten = piece ++ line := by
  induction line with
  | nil => simp [piecesFrom]
  | cons b line ih =>
    intro piece
    rw [piecesFrom]
    split
    · rw [List.flatten_cons, ih]
      rfl
    · rw [ih, List.append_assoc]
      rfl

theorem flatten_pieces (line : Bytes) : (pieces line).flatten = line := flatten_piecesFrom line []

theorem piecesFrom_short (h : piece.length + line.length ≤ 255) :
    piecesFrom piece line = [piece ++ line] := by
  induction line generalizing piece with
  | nil => rw [piecesFrom, List.append_nil]
  | cons b line ih =>
    rw [List.length_cons] at h
    rw [piecesFrom, if_neg (by omega), ih (by simp; omega), List.append_assoc]
    rfl

theorem mem_pieces (hpiece : piece ∈ pieces line) : ∀ b ∈ piece, b ∈ line := by
  intro b hb
  rw [← flatten_pieces line]
  exact List.mem_flatten_of_mem hpiece hb

/-- A byte that is once in a line is in one of its pieces. -/
theorem eq_of_mem_pieces {b : UInt8} (hcount : line.count b ≤ 1) {piece' : Bytes}
    (hpiece : piece ∈ pieces line) (hpiece' : piece' ∈ pieces line) (hb : b ∈ piece)
    (hb' : b ∈ piece') : piece = piece' := by
  by_contra hne
  obtain ⟨before, after, hpieces⟩ := List.append_of_mem hpiece
  have hother : piece' ∈ before ++ after := by
    rw [hpieces, List.mem_append, List.mem_cons] at hpiece'
    rw [List.mem_append]
    exact hpiece'.imp_right fun h => h.resolve_left fun heq => hne heq.symm
  -- otherwise the byte is counted in both pieces, so twice in the line
  have hle : piece'.count b ≤ (before ++ after).flatten.count b :=
    (List.sublist_flatten_of_mem hother).count_le b
  have hpos : 0 < piece.count b := List.count_pos_iff.mpr hb
  have hpos' : 0 < piece'.count b := List.count_pos_iff.mpr hb'
  rw [← flatten_pieces line, hpieces, List.flatten_append, List.flatten_cons, List.count_append,
    List.count_append] at hcount
  rw [List.flatten_append, List.count_append] at hle
  omega

/-! ### Reads -/

/-- The newline of a read is stripped. -/
theorem parseLine_newline (line : Bytes) : parseLine (line ++ [0x0A]) = parseLine line := by
  have hstrip : (cstr (line ++ [0x0A])).rdropWhile newline = (cstr line).rdropWhile newline := by
    unfold cstr
    rw [List.takeWhile_append]
    split
    · rename_i hall
      have hline : line.takeWhile (· ≠ 0) = line :=
        (List.takeWhile_prefix _).eq_of_length hall
      rw [hline]
      exact Trim.rdropWhile_append_of_all (List.forall_mem_singleton.mpr rfl)
    · rfl
  unfold parseLine
  rw [hstrip]

theorem fgetsLines_newline (line content : Bytes) :
    fgetsLines line (0x0A :: content) = (line ++ [0x0A]) :: fgetsLines [] content := by
  rw [fgetsLines, if_pos (.inl rfl)]

/-- The pieces of lines, with `piece` in hand of the first. -/
def piecesOfLines (piece : Bytes) : List Bytes → List Bytes
  | [] => []
  | line :: ls => piecesFrom piece line ++ ls.flatMap pieces

theorem piecesOfLines_empty (ls : List Bytes) : piecesOfLines [] ls = ls.flatMap pieces := by
  cases ls with
  | nil => rfl
  | cons line ls => rw [piecesOfLines, List.flatMap_cons, pieces]

theorem piecesOfLines_newline (piece : Bytes) (ls : List Bytes) :
    piecesOfLines piece ([] :: ls) = piece :: piecesOfLines [] ls := by
  rw [piecesOfLines, piecesFrom, List.singleton_append, piecesOfLines_empty]

/-- The reads come to the pieces of the lines. A read that fills the buffer is over before
the end of the line is seen. -/
theorem fgetsLines_filterMap {β : Type*} {f : Bytes → Option β} (hnil : f [] = none)
    (hnewline : ∀ line, f (line ++ [0x0A]) = f line) (content : Bytes) :
    (∀ piece : Bytes, piece.length < 255 → (fgetsLines piece content).filterMap f =
      (piecesOfLines piece (lines content)).filterMap f) ∧
    ∀ piece : Bytes, piece.length = 255 → (piece :: fgetsLines [] content).filterMap f =
      (piecesOfLines piece (lines content)).filterMap f := by
  have hcons (l : Bytes) (ls : List Bytes) :
      (l :: ls).filterMap f = (f l).toList ++ ls.filterMap f := by
    rw [List.filterMap_cons]
    cases f l <;> rfl
  have hempty : f [0x0A] = none := (hnewline []).trans hnil
  induction content with
  | nil =>
    refine ⟨fun piece _ => ?_, fun piece _ => rfl⟩
    rw [fgetsLines, lines_nil, piecesOfLines_newline]
    split
    · rename_i hpiece
      simp [hpiece, hnil, piecesOfLines]
    · rfl
  | cons b content ih =>
    obtain ⟨hroom, hfull⟩ := ih
    by_cases hb : b = 0x0A
    · subst hb
      rw [lines_newline]
      constructor
      · intro piece _
        rw [piecesOfLines_newline, fgetsLines_newline, hcons, hcons, hnewline,
          hroom [] (by decide)]
      · -- the read was full, so the newline is a read of its own, which assigns nothing
        intro piece _
        rw [piecesOfLines_newline, fgetsLines_newline, hcons, hcons, hcons, List.nil_append, hempty,
          Option.toList_none, List.nil_append, hroom [] (by decide)]
    · obtain ⟨l, ls, hlines, hline⟩ := exists_lines_cons hb content
      rw [hlines] at hroom hfull
      rw [hline]
      constructor
      · intro piece hlength
        have hgoes : piecesOfLines piece ((b :: l) :: ls) =
            piecesOfLines (piece ++ [b]) (l :: ls) := by
          rw [piecesOfLines, piecesFrom, if_neg (by omega)]
          rfl
        rw [hgoes]
        -- the byte fills the buffer, or there is room for more
        by_cases hlast : piece.length + 1 = 255
        · rw [fgetsLines, if_pos (.inr hlast)]
          exact hfull _ (by simpa using hlast)
        · rw [fgetsLines, if_neg (not_or.mpr ⟨hb, hlast⟩)]
          exact hroom _ (by simp; omega)
      · intro piece hlength
        -- the full piece is over, and the byte is the first of the next
        have hgoes : piecesOfLines piece ((b :: l) :: ls) =
            piece :: piecesOfLines [b] (l :: ls) := by
          rw [piecesOfLines, piecesFrom, if_pos hlength]
          rfl
        rw [hgoes, hcons, hcons, ← hroom [b] (by simp), fgetsLines, if_neg (by simp [hb])]
        rfl

/-- What the reads assign to a setting, by the pieces. -/
theorem last_fgetsLines {β : Type*} (k : Option Switch) (value : Bytes → Option β)
    (content : Bytes) : last (assign k value) (fgetsLines [] content) =
      last (assign k value) ((lines content).flatMap pieces) := by
  refine LastAssign.last_congr ?_
  rw [← piecesOfLines_empty]
  refine (fgetsLines_filterMap rfl (fun line => ?_) content).1 [] (by decide)
  unfold assign
  rw [parseLine_newline]

/-! ## Lines that are cut -/

/-- Something that a line can set. -/
inductive Assignment
  | switch (k : Switch) (b : Bool)
  | transport (t : HudTransport)

def Assignment.setting : Assignment → Option Switch
  | .switch k _ => some k
  | .transport _ => none

/-- What a line sets, by the grammar. -/
def Sets (line : Bytes) : Assignment → Prop
  | .switch k b => Assigns (some k) words line b
  | .transport t => Assigns none transportWords line t

/-- A line that sets in pieces what it sets. -/
def Uncut (line : Bytes) : Prop := ∀ a, (∃ piece ∈ pieces line, Sets piece a) ↔ Sets line a

/-- A line is for a setting, or a piece of it is. -/
def IsFor (k : Option Switch) (line : Bytes) : Prop :=
  ∃ a : Assignment, a.setting = k ∧ ∃ piece ∈ line :: pieces line, Sets piece a

/-- No two lines of a file are for the same setting. -/
def NoRepeats (content : Bytes) : Prop :=
  (lines content).Pairwise fun line line' => ∀ k, ¬(IsFor k line ∧ IsFor k line')

theorem uncut_of_short (hshort : line.length ≤ 255) : Uncut line := by
  intro a
  have hwhole : pieces line = [line] := piecesFrom_short (by simpa using hshort)
  simp [hwhole]

/-- The words have no `=` in them, so a line that sets something has one. -/
theorem count_of_assigns {β : Type*} {k : Option Switch} {words : β → List String} {b : β}
    (hwords : ∀ w ∈ words b, 0x3D ∉ (bytes w).map toLower) (h : Assigns k words line b) :
    line.count 0x3D = 1 := by
  obtain ⟨key, val, hpair, -, w, hw, hval⟩ := h
  obtain ⟨body, rawKey, rawVal, ⟨right, rfl, hright, -⟩, rfl, hkey, -,
    ⟨left, right', rfl, hleft, hright', -⟩, -⟩ := hpair
  -- the one between key and value: blanks, the CRs at the end and the words have none
  have hnone {l : Bytes} (hl : ∀ b ∈ l, b ≠ 0x3D) : l.count 0x3D = 0 :=
    List.count_eq_zero.mpr fun hmem => hl _ hmem rfl
  have hcr : right.count 0x3D = 0 := hnone fun b hb => by
    rw [beq_iff_eq.mp (hright b hb)]
    decide
  have hblank : left.count 0x3D = 0 := hnone fun b hb => (blank_ne (hleft b hb)).1
  have hblank' : right'.count 0x3D = 0 := hnone fun b hb => (blank_ne (hright' b hb)).1
  have hword : val.count 0x3D = 0 := by
    refine List.count_eq_zero.mpr fun hmem => hwords w hw ?_
    have hlower : toLower 0x3D ∈ val.map toLower := List.mem_map_of_mem hmem
    rw [show val.map toLower = (bytes w).map toLower from hval] at hlower
    exact hlower
  simp [List.count_append, List.count_eq_zero.mpr hkey, hcr, hblank, hblank', hword]

theorem mem_of_assign {β : Type*} {k : Option Switch} {value : Bytes → Option β} {b : β}
    (hline : ∀ b ∈ line, b ≠ 0 ∧ b ≠ 0x0A) (h : assign k value line = some b) : 0x3D ∈ line := by
  unfold assign at h
  split at h
  · rename_i hparse
    obtain ⟨body, rawKey, rawVal, ⟨right, rfl, -⟩, rfl, -⟩ := (parseLine_iff hline).mp hparse
    simp
  · exact nomatch h

/-- A line comes to the same in pieces where it sets the same: only one of the pieces of a
line that sets something can set anything. -/
theorem last_pieces_iff {β : Type*} {k : Option Switch} {words : β → List String}
    {value : Bytes → Option β} (hline : ∀ b ∈ line, b ≠ 0 ∧ b ≠ 0x0A)
    (hvalue : ∀ val b, (∃ w ∈ words b, strcaseeq val (bytes w)) ↔ value val = some b)
    (hwords : ∀ b, ∀ w ∈ words b, 0x3D ∉ (bytes w).map toLower) :
    last (assign k value) (pieces line) = assign k value line ↔
      ∀ b, (∃ piece ∈ pieces line, Assigns k words piece b) ↔ Assigns k words line b := by
  have hpiece {piece : Bytes} (h : piece ∈ pieces line) : ∀ b ∈ piece, b ≠ 0 ∧ b ≠ 0x0A :=
    fun b hb => hline b (mem_pieces h b hb)
  have hassigns (b : β) : (∃ piece ∈ pieces line, Assigns k words piece b) ↔
      ∃ piece ∈ pieces line, assign k value piece = some b :=
    exists_congr fun piece => and_congr_right fun h => assigns_iff (hpiece h) hvalue b
  simp only [hassigns, assigns_iff hline hvalue]
  constructor
  · intro h b
    rw [← h]
    constructor
    · rintro ⟨piece, hmem, hb⟩
      cases hlast : last (assign k value) (pieces line) with
      | none => exact absurd (LastAssign.last_eq_none.mp hlast piece hmem) (by simp [hb])
      | some b' =>
        obtain ⟨before, piece', after, hpieces, hb', -⟩ := LastAssign.last_eq_some.mp hlast
        have hmem' : piece' ∈ pieces line := by simp [hpieces]
        -- both pieces assign, so both have the `=` that the line has once
        have hcount := count_of_assigns (hwords b') ((assigns_iff hline hvalue b').mpr
          (h.symm.trans hlast))
        obtain rfl := eq_of_mem_pieces hcount.le hmem hmem' (mem_of_assign (hpiece hmem) hb)
          (mem_of_assign (hpiece hmem') hb')
        exact hb'.symm.trans hb
    · intro hlast
      obtain ⟨before, piece, after, hpieces, hb, -⟩ := LastAssign.last_eq_some.mp hlast
      exact ⟨piece, by simp [hpieces], hb⟩
  · intro h
    cases hlast : last (assign k value) (pieces line) with
    | none =>
      cases hassign : assign k value line with
      | none => rfl
      | some b =>
        obtain ⟨piece, hmem, hb⟩ := (h b).mpr hassign
        exact absurd (LastAssign.last_eq_none.mp hlast piece hmem) (by simp [hb])
    | some b =>
      obtain ⟨before, piece, after, hpieces, hb, -⟩ := LastAssign.last_eq_some.mp hlast
      exact ((h b).mp ⟨piece, by simp [hpieces], hb⟩).symm

theorem words_noEq : (∀ b, ∀ w ∈ words b, 0x3D ∉ (bytes w).map toLower) ∧
    ∀ t, ∀ w ∈ transportWords t, 0x3D ∉ (bytes w).map toLower := by
  refine ⟨fun b => ?_, fun t => ?_⟩
  · cases b <;> decide +kernel
  · cases t <;> decide +kernel

theorem uncut_iff (hline : ∀ b ∈ line, b ≠ 0 ∧ b ≠ 0x0A) : Uncut line ↔
    (∀ k, last (assign (some k) switchValue) (pieces line) = assign (some k) switchValue line) ∧
      last (assign none transportValue) (pieces line) = assign none transportValue line := by
  simp only [last_pieces_iff hline (fun _ => switchValue_iff) words_noEq.1,
    last_pieces_iff hline (fun _ => transportValue_iff) words_noEq.2]
  constructor
  · intro h
    exact ⟨fun k b => h (.switch k b), fun t => h (.transport t)⟩
  · rintro ⟨hswitch, htransport⟩ a
    cases a with
    | switch k b => exact hswitch k b
    | transport t => exact htransport t

/-- What a line that is not for a setting makes of it: nothing, whole or in pieces. -/
theorem assign_of_not_isFor {β : Type*} {k : Option Switch} {words : β → List String}
    {value : Bytes → Option β} (hline : ∀ b ∈ line, b ≠ 0 ∧ b ≠ 0x0A)
    (hvalue : ∀ val b, (∃ w ∈ words b, strcaseeq val (bytes w)) ↔ value val = some b)
    (hnot : ∀ piece ∈ line :: pieces line, ∀ b, ¬Assigns k words piece b) :
    assign k value line = none ∧ last (assign k value) (pieces line) = none := by
  have hnone {piece : Bytes} (hpiece : ∀ b ∈ piece, b ≠ 0 ∧ b ≠ 0x0A)
      (hmem : piece ∈ line :: pieces line) : assign k value piece = none :=
    Option.eq_none_iff_forall_ne_some.mpr fun b hb =>
      hnot piece hmem b ((assigns_iff hpiece hvalue b).mpr hb)
  refine ⟨hnone hline List.mem_cons_self, LastAssign.last_eq_none.mpr fun piece hpiece => ?_⟩
  exact hnone (fun b hb => hline b (mem_pieces hpiece b hb)) (List.mem_cons_of_mem _ hpiece)

/-! ## Results -/

/-- Assignments that come to the same from any value on are the same. -/
theorem eq_of_getD {β : Type*} [Nontrivial β] {o o' : Option β}
    (h : ∀ init, o.getD init = o'.getD init) : o = o' := by
  cases o with
  | none =>
    cases o' with
    | none => rfl
    | some b =>
      obtain ⟨init, hne⟩ := exists_ne b
      exact absurd (h init) hne
  | some b =>
    obtain ⟨init, hne⟩ := exists_ne b
    cases o' with
    | none => exact absurd (h init).symm hne
    | some b' => exact congrArg some (h b)

instance : Nontrivial HudTransport := ⟨.vbs, .svcnavi, by decide⟩

/-- A file is read as documented from any settings on where of every setting the last
piece and the last line that assign it agree. -/
theorem documented_iff_last (hnul : ∀ b ∈ content, b ≠ 0) :
    (∀ s, Documented content s (parseFile content s)) ↔
      (∀ k, last (assign (some k) switchValue) ((lines content).flatMap pieces) =
        last (assign (some k) switchValue) (lines content)) ∧
      last (assign none transportValue) ((lines content).flatMap pieces) =
        last (assign none transportValue) (lines content) := by
  simp only [documented_iff hnul, parseFile_switch, parseFile_hudTransport, last_fgetsLines]
  constructor
  · intro h
    -- the settings may have been anything before, so the assignments themselves agree
    refine ⟨fun k => eq_of_getD fun init => ?_, eq_of_getD fun init => ?_⟩
    · have hk := (h (({} : Settings).setSwitch init k)).1 k
      rwa [switch_setSwitch, if_pos rfl] at hk
    · exact (h { hudTransport := init }).2
  · rintro ⟨hswitch, htransport⟩ s
    exact ⟨fun k => by rw [hswitch k], by rw [htransport]⟩

/-- A comment that is cut behind 255 bytes. -/
def longComment : Bytes := 0x23 :: (List.replicate 254 0x78 ++ bytes "touch=false")

/-- The rest of a long comment is taken for a line. -/
theorem long_comment_read : ¬∀ content : Bytes, (∀ b ∈ content, b ≠ 0) →
    ∀ s, Documented content s (parseFile content s) := by
  intro h
  have hnul : ∀ b ∈ longComment, b ≠ 0 :=
    List.forall_mem_cons.mpr ⟨by decide, List.forall_mem_append.mpr
      ⟨fun b hb => List.eq_of_mem_replicate hb ▸ by decide, by decide +kernel⟩⟩
  -- the file has no line that sets `touch`, and it is read as off
  have htouch := ((documented_iff hnul).mp (h longComment hnul {})).1 .touch
  have hread : (parseFile longComment {}).switch .touch = false := by decide +kernel
  have hline : last (assign (some .touch) switchValue) (lines longComment) = none := by
    decide +kernel
  rw [hread, hline] at htouch
  exact absurd htouch (by decide)

/-- **The parser accepts its grammar.** A file is read as documented, whatever the settings
are before, if each of its lines sets in pieces of 255 bytes what it sets; a line that fits
does. In a file without two lines for one setting this is necessary as well. -/
theorem parseFile_documented_iff (content : Bytes) (hnul : ∀ b ∈ content, b ≠ 0) :
    ((∀ line ∈ lines content, Uncut line) → ∀ s, Documented content s (parseFile content s)) ∧
    (∀ line ∈ lines content, line.length ≤ 255 → Uncut line) ∧
    (NoRepeats content → ((∀ s, Documented content s (parseFile content s)) ↔
      ∀ line ∈ lines content, Uncut line)) := by
  have hline := mem_lines hnul
  refine ⟨fun huncut => ?_, fun line _ hshort => uncut_of_short hshort, fun hrepeats => ?_⟩
  · rw [documented_iff_last hnul]
    exact ⟨fun k => LastAssign.last_flatMap fun line hmem =>
        ((uncut_iff (hline line hmem)).mp (huncut line hmem)).1 k,
      LastAssign.last_flatMap fun line hmem =>
        ((uncut_iff (hline line hmem)).mp (huncut line hmem)).2⟩
  · have honce (k : Option Switch) : (lines content).Pairwise fun line line' =>
        ¬(IsFor k line ∧ IsFor k line') := hrepeats.imp fun h => h k
    -- each setting has a line of its own, so the files are compared line by line
    have hswitch (k : Switch) := LastAssign.last_flatMap_iff (fun line hmem hnot =>
      assign_of_not_isFor (hline line hmem) (fun _ => switchValue_iff) fun piece hpiece b hsets =>
        hnot ⟨.switch k b, rfl, piece, hpiece, hsets⟩) (honce (some k))
    have htransport := LastAssign.last_flatMap_iff (fun line hmem hnot =>
      assign_of_not_isFor (hline line hmem) (fun _ => transportValue_iff)
        fun piece hpiece t hsets =>
          hnot ⟨.transport t, rfl, piece, hpiece, hsets⟩) (honce none)
    simp only [documented_iff_last hnul, hswitch, htransport]
    constructor
    · rintro ⟨hk, ht⟩ line hmem
      exact (uncut_iff (hline line hmem)).mpr ⟨fun k => hk k line hmem, ht line hmem⟩
    · intro h
      exact ⟨fun k line hmem => ((uncut_iff (hline line hmem)).mp (h line hmem)).1 k,
        fun line hmem => ((uncut_iff (hline line hmem)).mp (h line hmem)).2⟩

/-- A file of two lines. -/
theorem parseFile_documented_iff_short :
    Documented (bytes " HUD = off\n#touch=no\n") {}
      (parseFile (bytes " HUD = off\n#touch=no\n") {}) := by
  have h := parseFile_documented_iff (bytes " HUD = off\n#touch=no\n") (by decide +kernel)
  have hshort : ∀ line ∈ lines (bytes " HUD = off\n#touch=no\n"), line.length ≤ 255 := by
    decide +kernel
  exact h.1 (fun line hmem => h.2.1 line hmem (hshort line hmem)) {}

end OemAaMod.Config
