import OemAaMod.Lib.Utf8

/-!
# The street-name fold

`hud_translit::fold` of `translit.h`, which rewrites the precomposed Latin
letters U+1E00..U+1EFF of a string to base letters the HUD font has, in place.

* `fold` — the loop over one array with a read and a write cursor. Every read
  and write is checked against the array: `none` is an access outside of it;
* `foldSpec` — the same out of place: split into sequences, map each one;
* `fold_eq` — on a terminated array the loop computes `foldSpec`, leaves the
  array's length alone and makes no access outside of it;
* `foldBuf` — the fold of a whole buffer, `foldBuf_str` what it shows;
* `foldSpec_enc` — on UTF-8 the fold maps characters (`foldChar`);
* `foldSpec_cutChar` — a character cut short at the end of a string passes through.
-/

namespace OemAaMod.HudTranslit

open CStr (Bytes CharBuf cstr)

/-! ## The table -/

/-- `kBase`, by code point from U+1E00. -/
def kBase : List UInt32 :=
  [0x41, 0x61, 0x42, 0x62, 0x42, 0x62, 0x42, 0x62,
   0x43, 0x63, 0x44, 0x64, 0x44, 0x64, 0x44, 0x64,
   0x44, 0x64, 0x44, 0x64, 0x45, 0x65, 0x45, 0x65,
   0x45, 0x65, 0x45, 0x65, 0x45, 0x65, 0x46, 0x66,
   0x47, 0x67, 0x48, 0x68, 0x48, 0x68, 0x48, 0x68,
   0x48, 0x68, 0x48, 0x68, 0x49, 0x69, 0x49, 0x69,
   0x4B, 0x6B, 0x4B, 0x6B, 0x4B, 0x6B, 0x4C, 0x6C,
   0x4C, 0x6C, 0x4C, 0x6C, 0x4C, 0x6C, 0x4D, 0x6D,
   0x4D, 0x6D, 0x4D, 0x6D, 0x4E, 0x6E, 0x4E, 0x6E,
   0x4E, 0x6E, 0x4E, 0x6E, 0x4F, 0x6F, 0x4F, 0x6F,
   0x4F, 0x6F, 0x4F, 0x6F, 0x50, 0x70, 0x50, 0x70,
   0x52, 0x72, 0x52, 0x72, 0x52, 0x72, 0x52, 0x72,
   0x53, 0x73, 0x53, 0x73, 0x53, 0x73, 0x53, 0x73,
   0x53, 0x73, 0x54, 0x74, 0x54, 0x74, 0x54, 0x74,
   0x54, 0x74, 0x55, 0x75, 0x55, 0x75, 0x55, 0x75,
   0x55, 0x75, 0x55, 0x75, 0x56, 0x76, 0x56, 0x76,
   0x57, 0x77, 0x57, 0x77, 0x57, 0x77, 0x57, 0x77,
   0x57, 0x77, 0x58, 0x78, 0x58, 0x78, 0x59, 0x79,
   0x5A, 0x7A, 0x5A, 0x7A, 0x5A, 0x7A, 0x68, 0x74,
   0x77, 0x79, 0x61, 0x73, 0x73, 0x73, 0x53, 0x64,
   -- from U+1EA0 the Vietnamese letters, which keep breve, circumflex and horn
   0x41, 0x61, 0x41, 0x61, 0xC2, 0xE2, 0xC2, 0xE2,
   0xC2, 0xE2, 0xC2, 0xE2, 0xC2, 0xE2, 0x102, 0x103,
   0x102, 0x103, 0x102, 0x103, 0x102, 0x103, 0x102, 0x103,
   0x45, 0x65, 0x45, 0x65, 0x45, 0x65, 0xCA, 0xEA,
   0xCA, 0xEA, 0xCA, 0xEA, 0xCA, 0xEA, 0xCA, 0xEA,
   0x49, 0x69, 0x49, 0x69, 0x4F, 0x6F, 0x4F, 0x6F,
   0xD4, 0xF4, 0xD4, 0xF4, 0xD4, 0xF4, 0xD4, 0xF4,
   0xD4, 0xF4, 0x1A0, 0x1A1, 0x1A0, 0x1A1, 0x1A0, 0x1A1,
   0x1A0, 0x1A1, 0x1A0, 0x1A1, 0x55, 0x75, 0x55, 0x75,
   0x1AF, 0x1B0, 0x1AF, 0x1B0, 0x1AF, 0x1B0, 0x1AF, 0x1B0,
   0x1AF, 0x1B0, 0x59, 0x79, 0x59, 0x79, 0x59, 0x79,
   0x59, 0x79, 0x4C, 0x6C, 0x56, 0x76, 0x59, 0x79]

/-- `fold_base`: 0 outside the block. -/
def foldBase (codePoint : UInt32) : UInt32 :=
  if codePoint < 0x1E00 ∨ codePoint > 0x1EFF then 0
  else kBase.getD (codePoint - 0x1E00).toNat 0

/-- `encode_utf8`, for a code point of at most U+07FF. -/
def encodeUtf8 (codePoint : UInt32) : Bytes :=
  if codePoint < 0x80 then [codePoint.toUInt8]
  else
    [((0xC0 : UInt32) ||| (codePoint >>> 6)).toUInt8,
      ((0x80 : UInt32) ||| (codePoint &&& 0x3F)).toUInt8]

/-! ## The loop -/

def isCont (b : UInt8) : Bool := b &&& 0xC0 == 0x80

/-- The length a lead byte announces. -/
def leadLen (lead : UInt8) : Nat :=
  if lead < 0x80 then 1
  else if lead &&& 0xE0 = 0xC0 then 2
  else if lead &&& 0xF0 = 0xE0 then 3
  else if lead &&& 0xF8 = 0xF0 then 4
  else 1

/-- Whether `n` continuation bytes come first; a byte after one that is none is
not read. -/
def contRun : Nat → Bytes → Option Bool
  | 0, _ => some true
  | _ + 1, [] => none
  | n + 1, b :: mem => if isCont b then contRun n mem else some false

/-- The `seq_len` of the loop, from the memory at `read_ptr`. A lead byte whose
continuation bytes are not there matches none of the later tiers: it passes
through alone. -/
def seqLen : Bytes → Option Nat
  | [] => none
  | lead :: mem => do
    if ← contRun (leadLen lead - 1) mem then some (leadLen lead) else some 1

/-- The code point of a 3-byte sequence. -/
def codePoint (a b c : UInt8) : UInt32 :=
  ((a &&& 0x0F).toUInt32 <<< 12) ||| ((b &&& 0x3F).toUInt32 <<< 6) ||| (c &&& 0x3F).toUInt32

/-- The array, `read_ptr` and `write_ptr` as indices, and `saw_long_seq`. -/
structure FoldState where
  buf        : Bytes
  readPtr    : Nat := 0
  writePtr   : Nat := 0
  sawLongSeq : Bool := false
deriving DecidableEq

/-- A store to `buf[i]`. -/
def store (buf : Bytes) (i : Nat) (b : UInt8) : Option Bytes :=
  if i < buf.length then some (buf.set i b) else none

def storeAll (buf : Bytes) (i : Nat) : Bytes → Option Bytes
  | [] => some buf
  | b :: bs => do storeAll (← store buf i b) (i + 1) bs

/-- The forward copy of `n` bytes from index `r` to index `w`, byte by byte. -/
def copyForward (buf : Bytes) (r w : Nat) : Nat → Option Bytes
  | 0 => some buf
  | n + 1 => do
    let b ← buf[r]?
    copyForward (← store buf w b) (r + 1) (w + 1) n

/-- A 3- or 4-byte sequence is replaced by `bytes`. -/
def FoldState.replace (s : FoldState) (bytes : Bytes) (seqLen : Nat) : Option FoldState := do
  some ⟨← storeAll s.buf s.writePtr bytes, s.readPtr + seqLen, s.writePtr + bytes.length, true⟩

/-- A sequence stays as it is. -/
def FoldState.pass (s : FoldState) (seqLen : Nat) : Option FoldState :=
  if s.sawLongSeq then do
    some ⟨← copyForward s.buf s.readPtr s.writePtr seqLen, s.readPtr + seqLen,
      s.writePtr + seqLen, true⟩
  -- nothing has moved yet: the bytes are in place
  else some { s with readPtr := s.readPtr + seqLen, writePtr := s.writePtr + seqLen }

/-- The body of the loop, at a byte that is not NUL. -/
def foldStep (unrenderable : UInt8) (s : FoldState) : Option FoldState := do
  let n ← seqLen (s.buf.drop s.readPtr)
  if n = 3 then
    let a ← s.buf[s.readPtr]?
    let b ← s.buf[s.readPtr + 1]?
    let c ← s.buf[s.readPtr + 2]?
    let basePoint := foldBase (codePoint a b c)
    if basePoint ≠ 0 then s.replace (encodeUtf8 basePoint) 3
    else if unrenderable ≠ 0 then s.replace [unrenderable] 3
    else FoldState.pass { s with sawLongSeq := true } 3
  else if n = 4 then
    if unrenderable ≠ 0 then s.replace [unrenderable] 4
    else FoldState.pass { s with sawLongSeq := true } 4
  else s.pass n

/-- The loop, and the NUL written after it. -/
def foldLoop (unrenderable : UInt8) : Nat → FoldState → Option Bytes
  | 0, _ => none
  | fuel + 1, s => do
    if (← s.buf[s.readPtr]?) = 0 then store s.buf s.writePtr 0
    else foldLoop unrenderable fuel (← foldStep unrenderable s)

/-- `fold(str, unrenderable)` on the array at `str`. A turn reads at least one
byte, so there are no more turns than bytes. -/
def fold (unrenderable : UInt8) (buf : Bytes) : Option Bytes :=
  foldLoop unrenderable buf.length { buf }

/-! ## Out of place -/

def contOf : Nat → Bytes → Bool
  | 0, _ => true
  | _ + 1, [] => false
  | n + 1, b :: s => isCont b && contOf n s

/-- The length of the first sequence of a string. -/
def seqLenOf : Bytes → Nat
  | [] => 0
  | lead :: s => if contOf (leadLen lead - 1) s then leadLen lead else 1

/-- What the fold makes of one sequence. -/
def mapSeq (unrenderable : UInt8) : Bytes → Bytes
  | [a, b, c] =>
    if foldBase (codePoint a b c) ≠ 0 then encodeUtf8 (foldBase (codePoint a b c))
    else if unrenderable ≠ 0 then [unrenderable] else [a, b, c]
  | [a, b, c, d] => if unrenderable ≠ 0 then [unrenderable] else [a, b, c, d]
  | seq => seq

theorem leadLen_pos (lead : UInt8) : 0 < leadLen lead := by
  unfold leadLen
  split_ifs <;> omega

theorem length_of_contOf {n : Nat} {s : Bytes} (h : contOf n s = true) : n ≤ s.length := by
  induction n generalizing s with
  | zero => exact Nat.zero_le _
  | succ n ih =>
    cases s with
    | nil => exact absurd h (by simp [contOf])
    | cons b s =>
      rw [contOf, Bool.and_eq_true] at h
      exact Nat.succ_le_succ (ih h.2)

theorem seqLenOf_pos {s : Bytes} (hs : s ≠ []) : 0 < seqLenOf s := by
  cases s with
  | nil => exact absurd rfl hs
  | cons lead s =>
    rw [seqLenOf]
    split
    · exact leadLen_pos lead
    · omega

theorem seqLenOf_le (s : Bytes) : seqLenOf s ≤ s.length := by
  cases s with
  | nil => exact Nat.le_refl 0
  | cons lead s =>
    have hpos := leadLen_pos lead
    rw [seqLenOf, List.length_cons]
    split
    · rename_i hcont
      have := length_of_contOf hcont
      omega
    · omega

/-- The sequences of a string, in order. -/
def splitSeqs (s : Bytes) : List Bytes :=
  if _h : s = [] then [] else s.take (seqLenOf s) :: splitSeqs (s.drop (seqLenOf s))
termination_by s.length
decreasing_by
  have hpos := seqLenOf_pos _h
  have hlen := List.length_pos_iff.mpr _h
  rw [List.length_drop]
  omega

/-- What holds of `[]`, and of a string when it holds of what follows its first sequence. -/
theorem seqs_induction {P : Bytes → Prop} (nil : P [])
    (cons : ∀ s, s ≠ [] → P (s.drop (seqLenOf s)) → P s) (s : Bytes) : P s := by
  by_cases hnil : s = []
  · rw [hnil]
    exact nil
  · have hpos := seqLenOf_pos hnil
    have hlen := List.length_pos_iff.mpr hnil
    exact cons s hnil (seqs_induction nil cons (s.drop (seqLenOf s)))
termination_by s.length
decreasing_by
  rw [List.length_drop]
  omega

/-- The fold, out of place. -/
def foldSpec (unrenderable : UInt8) (s : Bytes) : Bytes :=
  (splitSeqs s).flatMap (mapSeq unrenderable)

theorem foldSpec_nil (u : UInt8) : foldSpec u [] = [] := by
  rw [foldSpec, splitSeqs, dif_pos rfl]
  rfl

theorem foldSpec_of_ne (u : UInt8) {s : Bytes} (hs : s ≠ []) :
    foldSpec u s = mapSeq u (s.take (seqLenOf s)) ++ foldSpec u (s.drop (seqLenOf s)) := by
  rw [foldSpec, splitSeqs, dif_neg hs]
  rfl

/-! ## The loop computes the specification -/

/-- The terminator is no continuation byte, so no run of them passes it. -/
theorem contRun_terminated (n : Nat) (s tail : Bytes) :
    contRun n (s ++ 0 :: tail) = some (contOf n s) := by
  induction n generalizing s with
  | zero => rfl
  | succ n ih =>
    cases s with
    | nil => rfl
    | cons b s =>
      rw [List.cons_append, contRun, contOf]
      cases hb : isCont b with
      | true => rw [if_pos rfl, ih, Bool.true_and]
      | false => rw [if_neg (by simp), Bool.false_and]

theorem seqLen_terminated {s : Bytes} (hs : s ≠ []) (tail : Bytes) :
    seqLen (s ++ 0 :: tail) = some (seqLenOf s) := by
  cases s with
  | nil => exact absurd rfl hs
  | cons lead s =>
    rw [List.cons_append, seqLen, contRun_terminated, seqLenOf, Option.bind_eq_bind,
      Option.bind_some]
    split <;> rfl

theorem store_append (out rest : Bytes) (x b : UInt8) :
    store (out ++ x :: rest) out.length b = some (out ++ b :: rest) := by
  unfold store
  rw [if_pos (by simp), List.set_append_right _ _ (Nat.le_refl _), Nat.sub_self, List.set_cons_zero]

/-- Stores one after the other overwrite as many bytes. -/
theorem storeAll_append (bs : Bytes) :
    ∀ out xs rest : Bytes, xs.length = bs.length →
      storeAll (out ++ (xs ++ rest)) out.length bs = some (out ++ (bs ++ rest)) := by
  induction bs with
  | nil =>
    intro out xs rest hlen
    rw [List.eq_nil_of_length_eq_zero hlen]
    rfl
  | cons b bs ih =>
    intro out xs rest hlen
    obtain ⟨x, xs, rfl⟩ := List.exists_cons_of_length_eq_add_one hlen
    have hxs : xs.length = bs.length := by simpa using hlen
    -- the byte just stored belongs to what is written from here on
    have hrest := ih (out ++ [b]) xs rest hxs
    rw [List.length_append, List.length_singleton] at hrest
    rw [storeAll, List.cons_append, store_append, Option.bind_eq_bind, Option.bind_some]
    simpa using hrest

/-- **The forward copy.** The gap between the cursors moves past what is copied;
the copy reads no byte it has overwritten, as the gap only lies behind it. -/
theorem copyForward_append (seq : Bytes) :
    ∀ out gap rest : Bytes, ∃ gap', gap'.length = gap.length ∧
      copyForward (out ++ (gap ++ (seq ++ rest))) (out.length + gap.length) out.length seq.length =
        some (out ++ (seq ++ (gap' ++ rest))) := by
  induction seq with
  | nil =>
    intro out gap rest
    exact ⟨gap, rfl, rfl⟩
  | cons b seq ih =>
    intro out gap rest
    have hread : (out ++ (gap ++ (b :: seq ++ rest)))[out.length + gap.length]? = some b := by
      rw [← List.append_assoc, List.getElem?_append_right (by simp)]
      simp
    -- the store replaces the first byte of the gap, or the byte itself
    obtain ⟨x, gap₁, hgap⟩ : ∃ x gap₁, gap ++ [b] = x :: gap₁ :=
      List.exists_cons_of_ne_nil (by simp)
    have hlen₁ : gap₁.length = gap.length := by
      have := congrArg List.length hgap
      simpa using this.symm
    have hstore : store (out ++ (gap ++ (b :: seq ++ rest))) out.length b =
        some (out ++ b :: (gap₁ ++ (seq ++ rest))) := by
      have hsplit : gap ++ (b :: seq ++ rest) = x :: (gap₁ ++ (seq ++ rest)) := by
        rw [← List.cons_append, ← hgap]
        simp
      rw [hsplit, store_append]
    obtain ⟨gap', hlen', hcopy⟩ := ih (out ++ [b]) gap₁ rest
    rw [List.length_append, List.length_singleton, hlen₁] at hcopy
    refine ⟨gap', hlen'.trans hlen₁, ?_⟩
    rw [List.length_cons, copyForward, hread, Option.bind_eq_bind, Option.bind_some, hstore,
      Option.bind_eq_bind, Option.bind_some, show out.length + gap.length + 1 =
        out.length + 1 + gap.length by omega]
    simpa using hcopy

/-- Where a turn of the loop starts: what is written, the bytes already read and
not overwritten, the string still to be read, and the rest of the array. -/
structure Layout (out gap s tail : Bytes) (st : FoldState) : Prop where
  buf   : st.buf = out ++ (gap ++ (s ++ 0 :: tail))
  read  : st.readPtr = out.length + gap.length
  write : st.writePtr = out.length
  still : st.sawLongSeq = false → gap = []

variable {out gap seq s tail : Bytes} {st : FoldState}

theorem Layout.mem (h : Layout out gap s tail st) : st.buf.drop st.readPtr = s ++ 0 :: tail := by
  rw [h.buf, h.read, ← List.append_assoc, ← List.length_append, List.drop_left]

/-- What the turns keep: where the cursors stand and how long the array is. -/
def Moved (out s tail : Bytes) (st : FoldState) (next : Option FoldState) : Prop :=
  ∃ st' gap', next = some st' ∧ Layout out gap' s tail st' ∧ st'.buf.length = st.buf.length

theorem replace_moved (h : Layout out gap (seq ++ s) tail st) {bytes : Bytes}
    (hle : bytes.length ≤ seq.length) :
    Moved (out ++ bytes) s tail st (st.replace bytes seq.length) := by
  obtain ⟨hbuf, hread, hwrite, -⟩ := h
  -- the bytes land in the gap and in the sequence just read
  set xs := (gap ++ seq).take bytes.length with hxs
  set gap' := (gap ++ seq).drop bytes.length with hgap'
  have hxsLen : xs.length = bytes.length := by
    rw [hxs, List.length_take, List.length_append]
    omega
  have hgapLen : bytes.length + gap'.length = gap.length + seq.length := by
    rw [hgap', List.length_drop, List.length_append]
    omega
  have hsplit : gap ++ (seq ++ s ++ 0 :: tail) = xs ++ (gap' ++ (s ++ 0 :: tail)) := by
    rw [← List.append_assoc xs, hxs, hgap', List.take_append_drop]
    simp
  have hstore := storeAll_append bytes out xs (gap' ++ (s ++ 0 :: tail)) hxsLen
  refine ⟨⟨out ++ (bytes ++ (gap' ++ (s ++ 0 :: tail))), st.readPtr + seq.length,
    st.writePtr + bytes.length, true⟩, gap', ?_, ?_, ?_⟩
  · rw [FoldState.replace, hbuf, hwrite, hsplit, hstore]
    rfl
  · refine ⟨by simp, ?_, ?_, fun hno => absurd hno (by simp)⟩
    · show st.readPtr + seq.length = _
      rw [hread, List.length_append]
      omega
    · show st.writePtr + bytes.length = _
      rw [hwrite, List.length_append]
  · rw [hbuf, hsplit]
    simp only [List.length_append, hxsLen]

theorem pass_moved (h : Layout out gap (seq ++ s) tail st) :
    Moved (out ++ seq) s tail st (st.pass seq.length) := by
  obtain ⟨hbuf, hread, hwrite, hstill⟩ := h
  -- the source copies only behind a sequence it replaced or dropped
  have hassoc : gap ++ (seq ++ s ++ 0 :: tail) = gap ++ (seq ++ (s ++ 0 :: tail)) := by simp
  unfold FoldState.pass
  cases hlong : st.sawLongSeq with
  | true =>
    rw [if_pos rfl]
    obtain ⟨gap', hlen, hcopy⟩ := copyForward_append seq out gap (s ++ 0 :: tail)
    refine ⟨⟨out ++ (seq ++ (gap' ++ (s ++ 0 :: tail))), st.readPtr + seq.length,
      st.writePtr + seq.length, true⟩, gap', ?_, ?_, ?_⟩
    · rw [hbuf, hread, hwrite, hassoc, hcopy]
      rfl
    · refine ⟨by simp, ?_, ?_, fun hno => absurd hno (by simp)⟩
      · show st.readPtr + seq.length = _
        rw [hread, List.length_append]
        omega
      · show st.writePtr + seq.length = _
        rw [hwrite, List.length_append]
    · rw [hbuf]
      simp only [List.length_append, hlen]
      omega
  | false =>
    rw [if_neg (by simp)]
    -- nothing was replaced yet: the cursors are at one place, and move on together
    have hgap : gap = [] := hstill hlong
    subst hgap
    refine ⟨_, [], rfl, ⟨?_, ?_, ?_, fun _ => rfl⟩, rfl⟩
    · simp [hbuf]
    · simp [hread]
    · simp [hwrite]

theorem length_encodeUtf8 (cp : UInt32) : (encodeUtf8 cp).length ≤ 2 := by
  unfold encodeUtf8
  split <;> simp

/-- **One turn** writes what the specification makes of one sequence. -/
theorem foldStep_moved (u : UInt8) (h : Layout out gap s tail st) (hs : s ≠ []) :
    Moved (out ++ mapSeq u (s.take (seqLenOf s))) (s.drop (seqLenOf s)) tail st (foldStep u st) := by
  have hlen := seqLenOf_le s
  set n := seqLenOf s with hn
  have hseqLen : (s.take n).length = n := List.length_take_of_le hlen
  have hsplit : Layout out gap (s.take n ++ s.drop n) tail st := by
    rw [List.take_append_drop]
    exact h
  have hlong : Layout out gap (s.take n ++ s.drop n) tail { st with sawLongSeq := true } :=
    ⟨hsplit.buf, hsplit.read, hsplit.write, fun hno => absurd hno (by simp)⟩
  -- what the loop reads from the read cursor on is the string
  have hat (k : Nat) : st.buf[st.readPtr + k]? = (s ++ 0 :: tail)[k]? := by
    rw [← h.mem, List.getElem?_drop]
  rw [foldStep, h.mem, seqLen_terminated hs, Option.bind_eq_bind, Option.bind_some, ← hn]
  by_cases h3 : n = 3
  · obtain ⟨a, b, c, habc⟩ : ∃ a b c, s.take n = [a, b, c] := by
      rw [h3] at hseqLen ⊢
      exact List.length_eq_three.mp hseqLen
    have hsabc : s = a :: b :: c :: s.drop n := by
      conv_lhs => rw [← List.take_append_drop n s, habc]
      rfl
    have ha : st.buf[st.readPtr]? = some a := by
      rw [← Nat.add_zero st.readPtr, hat 0, hsabc]
      rfl
    have hb : st.buf[st.readPtr + 1]? = some b := by
      rw [hat 1, hsabc]
      rfl
    have hc : st.buf[st.readPtr + 2]? = some c := by
      rw [hat 2, hsabc]
      rfl
    rw [if_pos h3, ha, hb, hc]
    simp only [Option.bind_eq_bind, Option.bind_some]
    rw [habc] at hsplit hlong ⊢
    rw [mapSeq]
    -- a base letter, else the placeholder, else the sequence itself
    by_cases hbase : foldBase (codePoint a b c) ≠ 0
    · rw [if_pos hbase, if_pos hbase]
      exact replace_moved hsplit (Nat.le_succ_of_le (length_encodeUtf8 _))
    · rw [if_neg hbase, if_neg hbase]
      by_cases hu : u ≠ 0
      · rw [if_pos hu, if_pos hu]
        exact replace_moved hsplit (by simp)
      · rw [if_neg hu, if_neg hu]
        exact pass_moved hlong
  · rw [if_neg h3]
    by_cases h4 : n = 4
    · obtain ⟨a, b, c, d, habcd⟩ : ∃ a b c d, s.take n = [a, b, c, d] := by
        match hseq : s.take n, hseqLen.trans h4 with
        | [a, b, c, d], _ => exact ⟨a, b, c, d, rfl⟩
      rw [if_pos h4]
      rw [habcd] at hsplit hlong ⊢
      rw [mapSeq]
      by_cases hu : u ≠ 0
      · rw [if_pos hu, if_pos hu]
        exact replace_moved hsplit (by simp)
      · rw [if_neg hu, if_neg hu]
        exact pass_moved hlong
    · rw [if_neg h4]
      have hsame : mapSeq u (s.take n) = s.take n := by
        -- one or two bytes
        match s.take n, hseqLen with
        | [], _ => rfl
        | [_], _ => rfl
        | [_, _], _ => rfl
        | [_, _, _], hl => exact absurd hl.symm h3
        | [_, _, _, _], hl => exact absurd hl.symm h4
        | _ :: _ :: _ :: _ :: _ :: _, _ => rfl
      -- a short sequence does not raise the flag, so the gap stays as it was
      have hmoved := pass_moved hsplit
      rw [hseqLen] at hmoved
      rw [hsame]
      exact hmoved

/-- The whole loop, by induction on the string still to be read. -/
theorem foldLoop_layout (u : UInt8) (fuel : Nat) :
    ∀ {s out gap : Bytes} {st : FoldState}, Layout out gap s tail st → (∀ x ∈ s, x ≠ 0) →
      s.length < fuel → ∃ buf rest, foldLoop u fuel st = some buf ∧
        buf = out ++ foldSpec u s ++ 0 :: rest ∧ buf.length = st.buf.length := by
  induction fuel with
  | zero =>
    intro s out gap st _ _ hfuel
    exact absurd hfuel (Nat.not_lt_zero _)
  | succ fuel ih =>
    intro s out gap st h hne hfuel
    have hcur : st.buf[st.readPtr]? = (s ++ 0 :: tail)[0]? := by
      rw [← h.mem, List.getElem?_drop, Nat.add_zero]
    rw [foldLoop]
    cases s with
    | nil =>
      -- at the terminator: the NUL goes to the write cursor
      rw [hcur]
      obtain ⟨x, rest, hx⟩ : ∃ x rest, gap ++ 0 :: tail = x :: rest :=
        List.exists_cons_of_ne_nil (by simp)
      have hbuf : st.buf = out ++ x :: rest := by
        rw [h.buf, List.nil_append, hx]
      refine ⟨out ++ 0 :: rest, rest, ?_, ?_, ?_⟩
      · simp only [List.nil_append, List.getElem?_cons_zero, Option.bind_eq_bind, Option.bind_some,
          if_true]
        rw [hbuf, h.write, store_append]
      · rw [foldSpec_nil, List.append_nil]
      · rw [hbuf, List.length_append, List.length_append]
        rfl
    | cons lead s =>
      have hlead : lead ≠ 0 := hne lead (List.mem_cons_self ..)
      obtain ⟨st', gap', hstep, hlayout, hlen⟩ := foldStep_moved u h (List.cons_ne_nil lead s)
      have hpos := seqLenOf_pos (List.cons_ne_nil lead s)
      set n := seqLenOf (lead :: s) with hn
      -- every turn reads a byte at least, so the fuel is enough
      have hshort : ((lead :: s).drop n).length < fuel := by
        rw [List.length_cons] at hfuel
        rw [List.length_drop, List.length_cons]
        omega
      obtain ⟨buf, rest, hloop, hbuf, hbufLen⟩ := ih hlayout
        (fun x hx => hne x (List.mem_of_mem_drop hx)) hshort
      refine ⟨buf, rest, ?_, ?_, hbufLen.trans hlen⟩
      · rw [hcur]
        simp only [List.cons_append, List.getElem?_cons_zero, Option.bind_eq_bind, Option.bind_some,
          if_neg hlead, hstep]
        exact hloop
      · rw [hbuf, foldSpec_of_ne u (List.cons_ne_nil lead s), ← hn]
        simp

/-- **The in-place fold computes the specification** on every terminated array:
it makes no access outside of the array and does not change its length. -/
theorem fold_eq (u : UInt8) {s : Bytes} (hs : ∀ x ∈ s, x ≠ 0) (tail : Bytes) :
    ∃ rest, fold u (s ++ 0 :: tail) = some (foldSpec u s ++ 0 :: rest) ∧
      (foldSpec u s ++ 0 :: rest).length = (s ++ 0 :: tail).length := by
  have hinit : Layout [] [] s tail { buf := s ++ 0 :: tail } := ⟨rfl, rfl, rfl, fun _ => rfl⟩
  obtain ⟨buf, rest, hloop, hbuf, hlen⟩ :=
    foldLoop_layout u (s ++ 0 :: tail).length hinit hs (by simp)
  rw [List.nil_append] at hbuf
  subst hbuf
  exact ⟨rest, hloop, hlen⟩

/-- No entry of the table is 0, and each one is within two bytes. -/
theorem kBase_spec : ∀ b ∈ kBase, b ≠ 0 ∧ b < 0x800 := by
  -- entry by entry, and not over all words
  have hall : kBase.all (fun b => b ≠ 0 ∧ b < 0x800) = true := by decide +kernel
  intro b hb
  exact decide_eq_true_eq.mp (List.all_eq_true.mp hall b hb)

theorem kBase_bytes : ∀ b ∈ kBase, ∀ x ∈ encodeUtf8 b, x ≠ 0 := by
  have hall : kBase.all (fun b => (encodeUtf8 b).all (· ≠ 0)) = true := by decide +kernel
  intro b hb x hx
  exact decide_eq_true_eq.mp (List.all_eq_true.mp (List.all_eq_true.mp hall b hb) x hx)

theorem foldBase_mem {cp : UInt32} (h : foldBase cp ≠ 0) : foldBase cp ∈ kBase := by
  unfold foldBase at h ⊢
  split
  · rename_i hout
    rw [if_pos hout] at h
    exact absurd rfl h
  · rename_i hin
    rw [if_neg hin] at h
    rw [List.getD_eq_getElem?_getD] at h ⊢
    -- the index is in the table, or the default 0 would be the value
    cases hget : kBase[(cp - 0x1E00).toNat]? with
    | none =>
      rw [hget] at h
      exact absurd rfl h
    | some b => exact List.mem_of_getElem? hget

/-- A folded string has no NUL in it. -/
theorem foldSpec_ne_zero (u : UInt8) {s : Bytes} (hs : ∀ x ∈ s, x ≠ 0) :
    ∀ x ∈ foldSpec u s, x ≠ 0 := by
  have hmap {seq : Bytes} (hseq : ∀ x ∈ seq, x ≠ 0) : ∀ x ∈ mapSeq u seq, x ≠ 0 := by
    fun_cases mapSeq u seq with
    | case1 a b c hbase => exact kBase_bytes _ (foldBase_mem hbase)
    | case2 a b c hbase hu =>
      intro x hx
      rw [List.mem_singleton] at hx
      exact hx ▸ hu
    | case3 => exact hseq
    | case4 a b c d hu =>
      intro x hx
      rw [List.mem_singleton] at hx
      exact hx ▸ hu
    | case5 => exact hseq
    | case6 => exact hseq
  induction s using seqs_induction with
  | nil =>
    rw [foldSpec_nil]
    exact fun x hx => absurd hx (by simp)
  | cons s hne ih =>
    intro x hx
    rw [foldSpec_of_ne u hne, List.mem_append] at hx
    rcases hx with hx | hx
    · exact hmap (fun y hy => hs y (List.mem_of_mem_take hy)) x hx
    · exact ih (fun y hy => hs y (List.mem_of_mem_drop hy)) x hx

/-- The fold never lengthens a string. -/
theorem length_foldSpec (u : UInt8) (s : Bytes) : (foldSpec u s).length ≤ s.length := by
  have hmap (seq : Bytes) : (mapSeq u seq).length ≤ seq.length := by
    fun_cases mapSeq u seq with
    | case1 a b c => exact Nat.le_succ_of_le (length_encodeUtf8 _)
    | case2 a b c => simp
    | case3 => exact Nat.le_refl _
    | case4 a b c d => simp
    | case5 => exact Nat.le_refl _
    | case6 => exact Nat.le_refl _
  induction s using seqs_induction with
  | nil => rw [foldSpec_nil]
  | cons s hne ih =>
    have hfirst := hmap (s.take (seqLenOf s))
    rw [List.length_take] at hfirst
    rw [List.length_drop] at ih
    rw [foldSpec_of_ne u hne, List.length_append]
    omega

/-- `fold(buf)` for a whole buffer. On a terminated buffer, that is on any the
code passes, the loop succeeds and keeps the size. -/
def foldBuf {cap : Nat} (u : UInt8) (d : CharBuf cap) : CharBuf cap :=
  match fold u d.bytes with
  | some bytes => if h : bytes.length = cap then ⟨bytes, h⟩ else d
  | none => d

theorem foldBuf_str {cap : Nat} (u : UInt8) {d : CharBuf cap} {tail : Bytes}
    (h : d.bytes = d.str ++ 0 :: tail) : (foldBuf u d).str = foldSpec u d.str := by
  have hs : ∀ x ∈ d.str, x ≠ 0 := fun _ hx => CStr.ne_zero_of_mem_cstr hx
  obtain ⟨rest, hfold, hlen⟩ := fold_eq u hs tail
  have hcap : (foldSpec u d.str ++ 0 :: rest).length = cap := by rw [hlen, ← h, d.length_eq]
  unfold foldBuf
  rw [h, hfold]
  dsimp only
  rw [dif_pos hcap]
  exact CStr.cstr_append_zero (foldSpec_ne_zero u hs) rest

/-! ## On UTF-8 -/

/-- What the fold makes of a character. -/
def foldChar (unrenderable : UInt8) (c : Char) : Char :=
  if foldBase c.val ≠ 0 then Char.ofNat (foldBase c.val).toNat
  else if unrenderable ≠ 0 ∧ 0x800 ≤ c.toNat then Char.ofNat unrenderable.toNat
  else c

theorem toNat_ofNat_of_lt {n : Nat} (h : n < 0x800) : (Char.ofNat n).toNat = n := by
  have hvalid : n.isValidChar := .inl (by omega)
  rw [Char.ofNat, dif_pos hvalid]
  show (UInt32.ofNatLT n _).toNat = n
  rw [UInt32.toNat_ofNatLT]

theorem encodeUtf8_eq {cp : UInt32} (h : cp < 0x800) :
    encodeUtf8 cp = String.utf8EncodeChar (Char.ofNat cp.toNat) := by
  have hlt : cp.toNat < 0x800 := h
  have hnat := toNat_ofNat_of_lt hlt
  unfold encodeUtf8
  rcases Utf8.encodeChar_shape (Char.ofNat cp.toNat) with
    ⟨hv, heq⟩ | ⟨hlo, hv, heq⟩ | ⟨hlo, -⟩ | ⟨hlo, -⟩
  · rw [hnat] at hv heq
    rw [heq, if_pos (show cp < 0x80 from hv)]
    rfl
  · rw [hnat] at hlo heq
    have hlarge : ¬cp < 0x80 := fun hlt' : cp.toNat < 0x80 => by omega
    rw [heq, if_neg hlarge]
    -- the masks put the bits side by side, so or-ing is adding
    have hhi : ((0xC0 : UInt32) ||| (cp >>> 6)).toUInt8 = UInt8.ofNat (cp.toNat / 64 + 0xC0) := by
      apply UInt8.toNat_inj.mp
      have hor : (0xC0 : Nat) ||| cp.toNat / 64 = 0xC0 + cp.toNat / 64 :=
        (Nat.two_pow_add_eq_or_of_lt (show cp.toNat / 64 < 2 ^ 6 by omega) 3).symm
      rw [UInt32.toNat_toUInt8, UInt32.toNat_or, UInt32.toNat_shiftRight,
        UInt8.toNat_ofNat']
      show ((0xC0 : Nat) ||| (cp.toNat >>> 6)) % 2 ^ 8 = _
      rw [Nat.shiftRight_eq_div_pow, show 2 ^ 6 = 64 from rfl, hor, Nat.add_comm]
    have hlow : ((0x80 : UInt32) ||| (cp &&& 0x3F)).toUInt8 = UInt8.ofNat (cp.toNat % 64 + 0x80) := by
      apply UInt8.toNat_inj.mp
      have hor : (0x80 : Nat) ||| cp.toNat % 64 = 0x80 + cp.toNat % 64 :=
        (Nat.two_pow_add_eq_or_of_lt (show cp.toNat % 64 < 2 ^ 6 by omega) 2).symm
      rw [UInt32.toNat_toUInt8, UInt32.toNat_or, UInt32.toNat_and, UInt8.toNat_ofNat']
      show ((0x80 : Nat) ||| (cp.toNat &&& 63)) % 2 ^ 8 = _
      rw [Nat.and_two_pow_sub_one_eq_mod _ 6, show 2 ^ 6 = 64 from rfl, hor, Nat.add_comm]
    rw [hhi, hlow]
  · omega
  · omega

theorem leadLen_of_one : ∀ n < 128, leadLen (UInt8.ofNat n) = 1 := by decide

theorem leadLen_of_two : ∀ n < 32, leadLen (UInt8.ofNat (n + 0xC0)) = 2 := by decide

theorem leadLen_of_three : ∀ n < 16, leadLen (UInt8.ofNat (n + 0xE0)) = 3 := by decide

theorem leadLen_of_four : ∀ n < 8, leadLen (UInt8.ofNat (n + 0xF0)) = 4 := by decide

theorem isCont_of_lt : ∀ n < 64, isCont (UInt8.ofNat (n + 0x80)) = true := by decide

/-- The first sequence of an encoding is its first character. -/
theorem seqLenOf_encodeChar (c : Char) (s : Bytes) :
    seqLenOf (String.utf8EncodeChar c ++ s) = (String.utf8EncodeChar c).length := by
  rcases Utf8.encodeChar_shape c with ⟨hv, heq⟩ | ⟨-, hv, heq⟩ | ⟨-, hv, heq⟩ | ⟨-, hv, heq⟩
  · rw [heq, List.singleton_append, seqLenOf, leadLen_of_one _ hv]
    rfl
  · have h₁ := isCont_of_lt (c.toNat % 64) (by omega)
    rw [heq, List.cons_append, seqLenOf, leadLen_of_two _ (by omega)]
    simp only [Nat.reduceSub, List.cons_append, List.nil_append, contOf, h₁, Bool.and_self, if_true,
      List.length_cons, List.length_nil]
  · have h₁ := isCont_of_lt (c.toNat / 64 % 64) (by omega)
    have h₂ := isCont_of_lt (c.toNat % 64) (by omega)
    rw [heq, List.cons_append, seqLenOf, leadLen_of_three _ (by omega)]
    simp only [Nat.reduceSub, List.cons_append, List.nil_append, contOf, h₁, h₂, Bool.and_self,
      if_true, List.length_cons, List.length_nil]
  · have h₁ := isCont_of_lt (c.toNat / 4096 % 64) (by omega)
    have h₂ := isCont_of_lt (c.toNat / 64 % 64) (by omega)
    have h₃ := isCont_of_lt (c.toNat % 64) (by omega)
    rw [heq, List.cons_append, seqLenOf, leadLen_of_four _ (by omega)]
    simp only [Nat.reduceSub, List.cons_append, List.nil_append, contOf, h₁, h₂, h₃, Bool.and_self,
      if_true, List.length_cons, List.length_nil]

theorem lead_bits : ∀ n < 16, (UInt8.ofNat (n + 0xE0) &&& 0x0F).toUInt32 = UInt32.ofNat n := by
  decide

theorem cont_bits : ∀ n < 64, (UInt8.ofNat (n + 0x80) &&& 0x3F).toUInt32 = UInt32.ofNat n := by
  decide

/-- A 3-byte sequence is decoded to the character it encodes. -/
theorem codePoint_encodeChar {v : Nat} (hv : v < 0x10000) :
    codePoint (UInt8.ofNat (v / 4096 + 0xE0)) (UInt8.ofNat (v / 64 % 64 + 0x80))
      (UInt8.ofNat (v % 64 + 0x80)) = UInt32.ofNat v := by
  -- the masks leave 4, 6 and 6 bits, which the shifts put side by side
  rw [codePoint, lead_bits _ (by omega), cont_bits _ (by omega), cont_bits _ (by omega)]
  apply UInt32.toNat_inj.mp
  have hsmall {n : Nat} (hn : n < 2 ^ 32) : (UInt32.ofNat n).toNat = n :=
    UInt32.toNat_ofNat_of_lt' hn
  have hhi : (v / 4096) <<< 12 % 2 ^ 32 = v / 4096 * 4096 := by
    rw [Nat.shiftLeft_eq]
    exact Nat.mod_eq_of_lt (by omega)
  have hmid : (v / 64 % 64) <<< 6 % 2 ^ 32 = v / 64 % 64 * 64 := by
    rw [Nat.shiftLeft_eq]
    exact Nat.mod_eq_of_lt (by omega)
  have hor₁ : v / 4096 * 4096 ||| v / 64 % 64 * 64 = v / 4096 * 4096 + v / 64 % 64 * 64 := by
    rw [Nat.mul_comm]
    exact (Nat.two_pow_add_eq_or_of_lt (i := 12) (by omega) (v / 4096)).symm
  have hor₂ : v / 64 * 64 ||| v % 64 = v / 64 * 64 + v % 64 := by
    rw [Nat.mul_comm]
    exact (Nat.two_pow_add_eq_or_of_lt (i := 6) (by omega) (v / 64)).symm
  rw [UInt32.toNat_or, UInt32.toNat_or, UInt32.toNat_shiftLeft, UInt32.toNat_shiftLeft,
    hsmall (by omega), hsmall (by omega), hsmall (by omega), hsmall (by omega)]
  show ((v / 4096) <<< 12 % 2 ^ 32 ||| (v / 64 % 64) <<< 6 % 2 ^ 32) ||| v % 64 = v
  rw [hhi, hmid, hor₁, show v / 4096 * 4096 + v / 64 % 64 * 64 = v / 64 * 64 by omega, hor₂]
  omega

theorem foldBase_eq_zero {cp : UInt32} (h : cp.toNat < 0x800 ∨ 0x10000 ≤ cp.toNat) :
    foldBase cp = 0 := by
  unfold foldBase
  rw [if_pos]
  rcases h with h | h
  · exact .inl (show cp.toNat < 0x1E00 by omega)
  · exact .inr (show 0x1EFF < cp.toNat by omega)

/-- **One character.** The placeholder is 0 or an ASCII character. -/
theorem mapSeq_encodeChar {u : UInt8} (hu : u < 0x80) (c : Char) :
    mapSeq u (String.utf8EncodeChar c) = String.utf8EncodeChar (foldChar u c) := by
  -- below 0x80 the placeholder is its own encoding
  have hplace : String.utf8EncodeChar (Char.ofNat u.toNat) = [u] := by
    have hlt : u.toNat < 0x80 := hu
    rcases Utf8.encodeChar_shape (Char.ofNat u.toNat) with
      ⟨-, heq⟩ | ⟨hlo, -⟩ | ⟨hlo, -⟩ | ⟨hlo, -⟩
    · rw [heq, toNat_ofNat_of_lt (by omega), UInt8.ofNat_toNat]
    all_goals
      rw [toNat_ofNat_of_lt (by omega)] at hlo
      omega
  unfold foldChar
  rcases Utf8.encodeChar_shape c with ⟨hv, heq⟩ | ⟨-, hv, heq⟩ | ⟨hlo, hv, heq⟩ | ⟨hlo, hv, heq⟩
  · have hbase : foldBase c.val = 0 := foldBase_eq_zero (.inl (show c.toNat < 0x800 by omega))
    rw [if_neg (not_not_intro hbase), if_neg (fun h => by omega), heq]
    rfl
  · have hbase : foldBase c.val = 0 := foldBase_eq_zero (.inl (show c.toNat < 0x800 by omega))
    rw [if_neg (not_not_intro hbase), if_neg (fun h => by omega), heq]
    rfl
  · -- three bytes: the only length with letters of the table
    have hcp : UInt32.ofNat c.toNat = c.val := UInt32.ofNat_toNat
    rw [heq, mapSeq, codePoint_encodeChar hv, hcp]
    by_cases hbase : foldBase c.val ≠ 0
    · obtain ⟨-, hlt⟩ := kBase_spec _ (foldBase_mem hbase)
      rw [if_pos hbase, if_pos hbase, encodeUtf8_eq hlt]
    · rw [if_neg hbase, if_neg hbase]
      by_cases hne : u ≠ 0
      · rw [if_pos hne, if_pos ⟨hne, hlo⟩, hplace]
      · rw [if_neg hne, if_neg (fun h => hne h.1), heq]
  · -- four bytes: never in the table
    have hbase : foldBase c.val = 0 := foldBase_eq_zero (.inr hlo)
    rw [if_neg (not_not_intro hbase), heq, mapSeq]
    by_cases hne : u ≠ 0
    · rw [if_pos hne, if_pos ⟨hne, by omega⟩, hplace]
    · rw [if_neg hne, if_neg (fun h => hne h.1), heq]

/-- **The fold on UTF-8** goes character by character, whatever comes after. -/
theorem foldSpec_enc_append {u : UInt8} (hu : u < 0x80) (cs : List Char) (rest : Bytes) :
    foldSpec u (Utf8.enc cs ++ rest) = Utf8.enc (cs.map (foldChar u)) ++ foldSpec u rest := by
  induction cs with
  | nil => rfl
  | cons c cs ih =>
    have hne : String.utf8EncodeChar c ++ (Utf8.enc cs ++ rest) ≠ [] := by simp
    rw [Utf8.enc_cons, List.append_assoc, foldSpec_of_ne u hne, seqLenOf_encodeChar,
      List.take_left, List.drop_left, ih, mapSeq_encodeChar hu, List.map_cons, Utf8.enc_cons,
      List.append_assoc]

theorem foldSpec_enc {u : UInt8} (hu : u < 0x80) (cs : List Char) :
    foldSpec u (Utf8.enc cs) = Utf8.enc (cs.map (foldChar u)) := by
  have h := foldSpec_enc_append hu cs []
  rwa [List.append_nil, foldSpec_nil, List.append_nil] at h

/-- Nothing shrinks below a third. -/
theorem utf8Size_foldChar (c : Char) : c.utf8Size ≤ 3 * (foldChar 0 c).utf8Size := by
  unfold foldChar
  by_cases hbase : foldBase c.val ≠ 0
  · rw [if_pos hbase]
    have hpos := (Char.ofNat (foldBase c.val).toNat).utf8Size_pos
    -- a letter of the table has three bytes, its base letter one at least
    have hlen : c.utf8Size ≤ 3 := by
      rcases Utf8.encodeChar_shape c with ⟨-, heq⟩ | ⟨-, -, heq⟩ | ⟨-, -, heq⟩ | ⟨hlo, -⟩
      · rw [← String.length_utf8EncodeChar, heq]
        exact Nat.le_add_left 1 2
      · rw [← String.length_utf8EncodeChar, heq]
        exact Nat.le_succ 2
      · rw [← String.length_utf8EncodeChar, heq]
        exact Nat.le_refl 3
      · exact absurd (foldBase_eq_zero (.inr hlo)) hbase
    omega
  · rw [if_neg hbase, if_neg (by simp)]
    omega

theorem width_map_foldChar (cs : List Char) :
    Utf8.width cs ≤ 3 * Utf8.width (cs.map (foldChar 0)) := by
  induction cs with
  | nil => exact Nat.le_refl 0
  | cons c cs ih =>
    have hc := utf8Size_foldChar c
    rw [List.map_cons, Utf8.width_cons, Utf8.width_cons]
    omega

/-! ## A character cut short -/

theorem leadLen_of_isCont : ∀ n < 256,
    isCont (UInt8.ofNat n) = true → leadLen (UInt8.ofNat n) = 1 := by decide +kernel

theorem foldSpec_cons_cont (u : UInt8) {b : UInt8} (hb : isCont b = true) (s : Bytes) :
    foldSpec u (b :: s) = b :: foldSpec u s := by
  have hlead : leadLen b = 1 := by
    have h := leadLen_of_isCont b.toNat b.toNat_lt
    rw [UInt8.ofNat_toNat] at h
    exact h hb
  have hlen : seqLenOf (b :: s) = 1 := by
    rw [seqLenOf, hlead]
    rfl
  rw [foldSpec_of_ne u (List.cons_ne_nil b s), hlen]
  rfl

/-- Continuation bytes on their own pass through. -/
theorem foldSpec_conts (u : UInt8) {s : Bytes} (hs : ∀ b ∈ s, isCont b = true) :
    foldSpec u s = s := by
  induction s with
  | nil => exact foldSpec_nil u
  | cons b s ih =>
    rw [foldSpec_cons_cont u (hs b (List.mem_cons_self ..)),
      ih fun x hx => hs x (List.mem_cons_of_mem _ hx)]

/-- So does a lead byte with too few of them after it. -/
theorem foldSpec_short (u : UInt8) {lead : UInt8} {s : Bytes} (hs : ∀ b ∈ s, isCont b = true)
    (hshort : s.length < leadLen lead - 1) : foldSpec u (lead :: s) = lead :: s := by
  have hlen : seqLenOf (lead :: s) = 1 := by
    rw [seqLenOf, if_neg]
    intro hcont
    have := length_of_contOf hcont
    omega
  rw [foldSpec_of_ne u (List.cons_ne_nil lead s), hlen]
  show [lead] ++ foldSpec u s = lead :: s
  rw [foldSpec_conts u hs]
  rfl

/-- **A character cut short passes through.** -/
theorem foldSpec_cutChar (u : UInt8) {p : Bytes} (h : Utf8.CutChar p) : foldSpec u p = p := by
  rcases h with rfl | ⟨c, k, hpos, hk, rfl⟩
  · exact foldSpec_nil u
  · obtain ⟨k, rfl⟩ : ∃ j, k = j + 1 := ⟨k - 1, by omega⟩
    rw [← String.length_utf8EncodeChar] at hk
    rcases Utf8.encodeChar_shape c with ⟨hv, heq⟩ | ⟨-, hv, heq⟩ | ⟨-, hv, heq⟩ | ⟨-, hv, heq⟩
    · rw [heq] at hk
      exact absurd hk (by simp)
    all_goals
      rw [heq] at hk ⊢
      rw [List.take_succ_cons]
      refine foldSpec_short u (fun b hb => ?_) ?_
    · have hb := List.mem_of_mem_take hb
      rw [List.mem_singleton] at hb
      rw [hb]
      exact isCont_of_lt _ (by omega)
    · rw [leadLen_of_two _ (by omega), List.length_take]
      simp only [List.length_cons, List.length_nil] at hk ⊢
      omega
    · have hb := List.mem_of_mem_take hb
      simp only [List.mem_cons, List.not_mem_nil, or_false] at hb
      rcases hb with rfl | rfl <;> exact isCont_of_lt _ (by omega)
    · rw [leadLen_of_three _ (by omega), List.length_take]
      simp only [List.length_cons, List.length_nil] at hk ⊢
      omega
    · have hb := List.mem_of_mem_take hb
      simp only [List.mem_cons, List.not_mem_nil, or_false] at hb
      rcases hb with rfl | rfl | rfl <;> exact isCont_of_lt _ (by omega)
    · rw [leadLen_of_four _ (by omega), List.length_take]
      simp only [List.length_cons, List.length_nil] at hk ⊢
      omega

end OemAaMod.HudTranslit
