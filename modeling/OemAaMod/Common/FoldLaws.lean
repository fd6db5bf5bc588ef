import Mathlib.Logic.Relation
import OemAaMod.Common.Translit

/-!
# Laws of the street-name fold

* `splitSeqs_flatten`, `splitSeqs_shape` — what a string is split into;
* `mapSeq_eq` — the mapping, by the block of the code point;
* `turns_layout` — the cursors in every state of the loop;
* `foldSpec_idem` — folding twice is folding once;
* `fold_inPlace` — all of it, on every terminated string.
-/

namespace OemAaMod.HudTranslit

open CStr (Bytes)
open Relation (ReflTransGen)

/-! ## Sequences -/

/-- A lead byte with the continuation bytes it announces. -/
def Whole : Bytes → Prop
  | [] => False
  | lead :: rest => rest.length + 1 = leadLen lead ∧ ∀ b ∈ rest, isCont b = true

theorem splitSeqs_of_ne {s : Bytes} (hs : s ≠ []) :
    splitSeqs s = s.take (seqLenOf s) :: splitSeqs (s.drop (seqLenOf s)) := by
  rw [splitSeqs, dif_neg hs]

theorem splitSeqs_nil : splitSeqs [] = [] := by
  rw [splitSeqs, dif_pos rfl]

theorem splitSeqs_flatten (s : Bytes) : (splitSeqs s).flatten = s := by
  induction s using seqs_induction with
  | nil => rw [splitSeqs_nil, List.flatten_nil]
  | cons s hs ih => rw [splitSeqs_of_ne hs, List.flatten_cons, ih, List.take_append_drop]

theorem forall_take_of_contOf {n : Nat} {s : Bytes} (h : contOf n s = true) :
    ∀ b ∈ s.take n, isCont b = true := by
  induction n generalizing s with
  | zero => simp
  | succ n ih =>
    cases s with
    | nil => simp
    | cons b s =>
      rw [contOf, Bool.and_eq_true] at h
      intro x hx
      rw [List.take_succ_cons, List.mem_cons] at hx
      rcases hx with rfl | hx
      · exact h.1
      · exact ih h.2 x hx

/-- The first sequence is whole, or one byte alone. -/
theorem take_seqLenOf_shape {s : Bytes} (hs : s ≠ []) :
    Whole (s.take (seqLenOf s)) ∨ (s.take (seqLenOf s)).length = 1 := by
  cases s with
  | nil => exact absurd rfl hs
  | cons lead s =>
    have hpos := leadLen_pos lead
    rw [seqLenOf]
    split
    · rename_i hcont
      obtain ⟨n, hn⟩ : ∃ n, leadLen lead = n + 1 := ⟨leadLen lead - 1, by omega⟩
      rw [hn, Nat.add_sub_cancel] at hcont
      -- the lead byte has its continuation: the sequence is whole
      have hlen := length_of_contOf hcont
      left
      rw [hn, List.take_succ_cons]
      refine ⟨?_, forall_take_of_contOf hcont⟩
      rw [List.length_take, hn]
      omega
    · -- it has not: the lead byte stands alone
      right
      rw [List.take_succ_cons, List.take_zero, List.length_singleton]

/-- **The sequences of a string** are whole, or one malformed byte each. -/
theorem splitSeqs_shape (s : Bytes) : ∀ seq ∈ splitSeqs s, Whole seq ∨ seq.length = 1 := by
  induction s using seqs_induction with
  | nil =>
    rw [splitSeqs_nil]
    exact fun seq h => absurd h List.not_mem_nil
  | cons s hs ih =>
    rw [splitSeqs_of_ne hs]
    intro seq hseq
    rcases List.mem_cons.mp hseq with rfl | hseq
    · exact take_seqLenOf_shape hs
    · exact ih seq hseq

/-! ## The mapping -/

/-- The block of the precomposed Latin letters. -/
def InBlock (cp : UInt32) : Prop := 0x1E00 ≤ cp ∧ cp ≤ 0x1EFF

instance (cp : UInt32) : Decidable (InBlock cp) := inferInstanceAs (Decidable (_ ∧ _))

/-- The base letter of a code point of the block. -/
def baseOf (cp : UInt32) : UInt32 := kBase.getD (cp - 0x1E00).toNat 0

/-- What the fold is to make of a sequence. -/
def mapped (unrenderable : UInt8) : Bytes → Bytes
  | [a, b, c] =>
    if InBlock (codePoint a b c) then encodeUtf8 (baseOf (codePoint a b c))
    else if unrenderable ≠ 0 then [unrenderable] else [a, b, c]
  | [a, b, c, d] => if unrenderable ≠ 0 then [unrenderable] else [a, b, c, d]
  | seq => seq

theorem not_inBlock {cp : UInt32} : ¬InBlock cp ↔ cp < 0x1E00 ∨ cp > 0x1EFF := by
  rw [InBlock, not_and_or, UInt32.not_le, UInt32.not_le]

theorem kBase_length : kBase.length = 256 := by decide +kernel

/-- The table covers its block, and 0 is none of its entries. -/
theorem foldBase_ne_zero_iff (cp : UInt32) : foldBase cp ≠ 0 ↔ InBlock cp := by
  unfold foldBase
  by_cases h : InBlock cp
  · -- inside the block: the table has an entry, and none is 0
    rw [if_neg (fun hout => not_inBlock.mpr hout h)]
    refine iff_of_true ?_ h
    have hlt : (cp - 0x1E00).toNat < kBase.length := by
      have hlo : (0x1E00 : Nat) ≤ cp.toNat := UInt32.le_iff_toNat_le.mp h.1
      have hhi : cp.toNat ≤ 0x1EFF := UInt32.le_iff_toNat_le.mp h.2
      have hbase : (0x1E00 : UInt32).toNat = 0x1E00 := rfl
      rw [UInt32.toNat_sub_of_le _ _ h.1, hbase, kBase_length]
      omega
    rw [List.getD_eq_getElem?_getD, List.getElem?_eq_getElem hlt, Option.getD_some]
    exact (kBase_spec _ (List.getElem_mem hlt)).1
  · rw [if_pos (not_inBlock.mp h)]
    exact iff_of_false (not_not_intro rfl) h

theorem foldBase_of_inBlock {cp : UInt32} (h : InBlock cp) : foldBase cp = baseOf cp :=
  if_neg fun hout => not_inBlock.mpr hout h

theorem mapSeq_eq (u : UInt8) (seq : Bytes) : mapSeq u seq = mapped u seq := by
  match seq with
  | [a, b, c] =>
    rw [mapSeq, mapped]
    simp only [foldBase_ne_zero_iff]
    by_cases h : InBlock (codePoint a b c)
    · rw [if_pos h, if_pos h, foldBase_of_inBlock h]
    · rw [if_neg h, if_neg h]
  | [_, _, _, _] => rfl
  | [] => rfl
  | [_] => rfl
  | [_, _] => rfl
  | _ :: _ :: _ :: _ :: _ :: _ => rfl

/-! ## The cursors -/

/-- A turn of the loop, at a byte that is not NUL. -/
def Turn (u : UInt8) (st st' : FoldState) : Prop :=
  (∃ b, st.buf[st.readPtr]? = some b ∧ b ≠ 0) ∧ foldStep u st = some st'

/-- Every state of the loop is laid out over what is left of the string. -/
theorem turns_layout (u : UInt8) (s tail : Bytes)
    {st : FoldState} (h : ReflTransGen (Turn u) { buf := s ++ 0 :: tail } st) :
    ∃ out gap t, Layout out gap t tail st ∧ t <:+ s ∧ st.buf.length = s.length + 1 + tail.length := by
  induction h with
  | refl =>
    refine ⟨[], [], s, ⟨rfl, rfl, rfl, fun _ => rfl⟩, List.suffix_rfl, ?_⟩
    rw [List.length_append, List.length_cons]
    omega
  | tail _ hturn ih =>
    obtain ⟨out, gap, t, hlayout, hsuffix, hlen⟩ := ih
    obtain ⟨⟨b, hb, hb0⟩, hstep⟩ := hturn
    -- a byte that is not NUL is one of the string
    have ht : t ≠ [] := by
      rintro rfl
      have hmem := hlayout.mem
      rw [← Nat.add_zero (FoldState.readPtr _), ← List.getElem?_drop, hmem] at hb
      exact hb0 (Option.some_inj.mp hb).symm
    obtain ⟨st', gap', hst', hlayout', hlen'⟩ := foldStep_moved u hlayout ht
    obtain rfl := Option.some_inj.mp (hstep.symm.trans hst')
    exact ⟨_, gap', _, hlayout', (List.drop_suffix _ t).trans hsuffix, hlen'.trans hlen⟩

/-- **The write cursor never passes the read cursor**, and the read cursor never the
terminator. -/
theorem turns_cursors (u : UInt8) (s tail : Bytes)
    {st : FoldState} (h : ReflTransGen (Turn u) { buf := s ++ 0 :: tail } st) :
    st.writePtr ≤ st.readPtr ∧ st.readPtr ≤ s.length := by
  obtain ⟨out, gap, t, hlayout, -, hlen⟩ := turns_layout u s tail h
  have hbuf := congrArg List.length hlayout.buf
  simp only [List.length_append, List.length_cons] at hbuf
  rw [hlayout.write, hlayout.read]
  omega

/-! ## Folding twice -/

theorem contOf_append {rest : Bytes} (h : ∀ b ∈ rest, isCont b = true) (x : Bytes) :
    contOf rest.length (rest ++ x) = true := by
  induction rest with
  | nil => rfl
  | cons b rest ih =>
    rw [List.length_cons, List.cons_append, contOf, h b (List.mem_cons_self ..), Bool.true_and]
    exact ih fun y hy => h y (List.mem_cons_of_mem _ hy)

/-- A whole sequence is read as one, whatever follows. -/
theorem seqLenOf_whole {seq : Bytes} (h : Whole seq) (x : Bytes) :
    seqLenOf (seq ++ x) = seq.length := by
  cases seq with
  | nil => exact h.elim
  | cons lead rest =>
    obtain ⟨hlen, hcont⟩ := h
    rw [List.cons_append, seqLenOf, ← hlen, Nat.add_sub_cancel, if_pos (contOf_append hcont x),
      List.length_cons]

theorem whole_singleton {b : UInt8} (hb : b < 0x80) : Whole [b] :=
  ⟨(if_pos hb).symm, fun _ hx => absurd hx List.not_mem_nil⟩

/-- Shorter than three bytes, a sequence is left alone. -/
theorem mapSeq_short (u : UInt8) {seq : Bytes} (h : seq.length ≤ 2) : mapSeq u seq = seq := by
  match seq, h with
  | [], _ => rfl
  | [_], _ => rfl
  | [_, _], _ => rfl

/-- The letter of the table is one sequence. -/
theorem seqLenOf_base {cp : UInt32} (h : foldBase cp ≠ 0) (x : Bytes) :
    seqLenOf (encodeUtf8 (foldBase cp) ++ x) = (encodeUtf8 (foldBase cp)).length := by
  rw [encodeUtf8_eq (kBase_spec _ (foldBase_mem h)).2]
  exact seqLenOf_encodeChar _ x

/-- **What a whole sequence is mapped to** is one sequence, and mapped to itself. -/
theorem mapSeq_settled {u : UInt8} (hu : u < 0x80) {seq : Bytes} (h : Whole seq) :
    (∀ x, seqLenOf (mapSeq u seq ++ x) = (mapSeq u seq).length) ∧
      mapSeq u (mapSeq u seq) = mapSeq u seq := by
  have hplace : (∀ x, seqLenOf ([u] ++ x) = [u].length) ∧ mapSeq u [u] = [u] :=
    ⟨seqLenOf_whole (whole_singleton hu), rfl⟩
  have hself : mapSeq u seq = seq → (∀ x, seqLenOf (mapSeq u seq ++ x) = (mapSeq u seq).length) ∧
      mapSeq u (mapSeq u seq) = mapSeq u seq := by
    intro heq
    rw [heq, heq]
    exact ⟨seqLenOf_whole h, rfl⟩
  fun_cases mapSeq u seq with
  -- a base letter has two bytes at most, and those are left alone
  | case1 a b c hbase =>
    exact ⟨seqLenOf_base hbase, mapSeq_short u (length_encodeUtf8 _)⟩
  -- the placeholder is one byte, and maps to itself
  | case2 a b c hbase hne => exact hplace
  | case3 a b c hbase hne =>
    have heq : mapSeq u [a, b, c] = [a, b, c] := by rw [mapSeq, if_neg hbase, if_neg hne]
    rw [heq] at hself
    exact hself rfl
  | case4 a b c d hne => exact hplace
  | case5 a b c d hne =>
    have heq : mapSeq u [a, b, c, d] = [a, b, c, d] := by rw [mapSeq, if_neg hne]
    rw [heq] at hself
    exact hself rfl
  | case6 seq h3 h4 =>
    have heq : mapSeq u seq = seq := by rw [mapSeq.eq_3 _ _ h3 h4]
    rw [heq] at hself
    exact hself rfl

/-- A mapped sequence begins with a continuation byte only where the sequence does. -/
theorem mapSeq_head {u : UInt8} (hu : u < 0x80) {seq : Bytes}
    (h : isCont (seq.headD 0x80) = false) : isCont ((mapSeq u seq).headD 0x80) = false := by
  -- below 0x80 no byte continues a sequence
  have hplace : isCont u = false := by
    have hall : ((List.range 128).all fun n => isCont (UInt8.ofNat n) = false) = true := by
      decide +kernel
    have hu' := List.all_eq_true.mp hall u.toNat
      (List.mem_range.mpr (UInt8.lt_iff_toNat_lt.mp hu))
    rw [UInt8.ofNat_toNat] at hu'
    exact of_decide_eq_true hu'
  have hbases : (kBase.all fun b => isCont ((encodeUtf8 b).headD 0x80) = false) = true := by
    decide +kernel
  fun_cases mapSeq u seq with
  | case1 a b c hbase =>
    exact of_decide_eq_true (List.all_eq_true.mp hbases _ (foldBase_mem hbase))
  | case2 => exact hplace
  | case3 => exact h
  | case4 => exact hplace
  | case5 => exact h
  | case6 => exact h

theorem contOf_of_head {n : Nat} {s : Bytes} (h : isCont (s.headD 0x80) = false) :
    contOf (n + 1) s = false := by
  cases s with
  | nil => rfl
  | cons b s =>
    rw [contOf]
    show (isCont ((b :: s).headD 0x80) && _) = false
    rw [h, Bool.false_and]

/-- **The continuation bytes at the beginning of a string** are those at the beginning of
the folded one, so a lead byte in front of either wants as many. -/
theorem contOf_foldSpec {u : UInt8} (hu : u < 0x80) (n : Nat) :
    ∀ s, contOf n (foldSpec u s) = contOf n s := by
  induction n with
  | zero => exact fun s => rfl
  | succ n ih =>
    intro s
    cases s with
    | nil => rw [foldSpec_nil]
    | cons b s =>
      cases hb : isCont b with
      -- a continuation byte at the front stays where it is
      | true => rw [foldSpec_cons_cont u hb, contOf, contOf, ih]
      | false =>
        -- any other front begins a sequence, and so does what that is mapped to
        have hpos := seqLenOf_pos (List.cons_ne_nil b s)
        obtain ⟨k, hk⟩ : ∃ k, seqLenOf (b :: s) = k + 1 := ⟨seqLenOf (b :: s) - 1, by omega⟩
        have hhead : isCont (((b :: s).take (seqLenOf (b :: s))).headD 0x80) = false := by
          rw [hk, List.take_succ_cons]
          exact hb
        have hmapped := mapSeq_head hu hhead
        rw [contOf_of_head (s := b :: s) hb, foldSpec_of_ne u (List.cons_ne_nil b s)]
        refine contOf_of_head ?_
        -- the mapped sequence is not empty, so the string begins with it
        cases hmap : mapSeq u ((b :: s).take (seqLenOf (b :: s))) with
        | nil =>
          rw [hmap] at hmapped
          exact absurd hmapped (by decide)
        | cons x xs =>
          rw [hmap] at hmapped
          exact hmapped

/-- **Folding twice is folding once.** -/
theorem foldSpec_idem {u : UInt8} (hu : u < 0x80) (s : Bytes) :
    foldSpec u (foldSpec u s) = foldSpec u s := by
  induction s using seqs_induction with
  | nil => rw [foldSpec_nil, foldSpec_nil]
  | cons s hs ih =>
    rcases take_seqLenOf_shape hs with hwhole | hone
    · rw [foldSpec_of_ne u hs]
      obtain ⟨hlen, hsame⟩ := mapSeq_settled hu hwhole
      -- the mapped sequence is read again as one, and mapped to itself
      have hne : mapSeq u (s.take (seqLenOf s)) ++ foldSpec u (s.drop (seqLenOf s)) ≠ [] := by
        intro hnil
        have hzero := hlen [0]
        rw [(List.append_eq_nil_iff.mp hnil).1] at hzero
        exact Nat.ne_of_gt (seqLenOf_pos (List.cons_ne_nil 0 [])) hzero
      rw [foldSpec_of_ne u hne, hlen, List.take_left, List.drop_left, hsame, ih]
    · -- one byte alone: it stays alone, as what follows begins the same way
      obtain ⟨b, t, rfl⟩ := List.exists_cons_of_ne_nil hs
      have hle := seqLenOf_le (b :: t)
      have hlen : seqLenOf (b :: t) = 1 := by rwa [List.length_take, Nat.min_eq_left hle] at hone
      have hagain : seqLenOf (b :: foldSpec u t) = 1 := by
        rwa [seqLenOf, contOf_foldSpec hu, ← seqLenOf]
      have hfold : foldSpec u (b :: t) = b :: foldSpec u t := by
        rw [foldSpec_of_ne u hs, hlen]
        rfl
      rw [hlen] at ih
      rw [hfold, foldSpec_of_ne u (List.cons_ne_nil _ _), hagain]
      show [b] ++ foldSpec u (foldSpec u t) = b :: foldSpec u t
      exact congrArg (b :: ·) ih

/-! ## The fold in place -/

/-- The out-of-place fold: the sequences of the string, mapped. -/
def folded (unrenderable : UInt8) (s : Bytes) : Bytes :=
  (splitSeqs s).flatMap (mapped unrenderable)

theorem folded_eq (u : UInt8) (s : Bytes) : folded u s = foldSpec u s := by
  rw [folded, foldSpec, ← funext (mapSeq_eq u)]

/-- What `fold` does to the string `s`, in every array it is terminated in. -/
structure FoldsInPlace (u : UInt8) (s : Bytes) : Prop where
  /-- no access outside of the array, which may end at the terminator, and a second
  fold leaves the string alone -/
  inPlace : ∀ tail, ∃ rest, fold u (s ++ 0 :: tail) = some (folded u s ++ 0 :: rest) ∧
    (folded u s ++ 0 :: rest).length = (s ++ 0 :: tail).length ∧
    ∃ rest', fold u (folded u s ++ 0 :: rest) = some (folded u s ++ 0 :: rest')
  cursors : ∀ tail st, ReflTransGen (Turn u) { buf := s ++ 0 :: tail } st →
    st.writePtr ≤ st.readPtr ∧ st.readPtr ≤ s.length
  /-- the sequences that are mapped -/
  split   : (splitSeqs s).flatten = s ∧ ∀ seq ∈ splitSeqs s, Whole seq ∨ seq.length = 1
  string  : ∀ x ∈ folded u s, x ≠ 0
  shrinks : (folded u s).length ≤ s.length
  utf8    : ∀ cs, s = Utf8.enc cs → ∃ cs', folded u s = Utf8.enc cs'

/-- **The in-place fold is the out-of-place one**, on every terminated string. -/
theorem fold_inPlace {u : UInt8} (hu : u < 0x80) {s : Bytes} (hs : ∀ x ∈ s, x ≠ 0) :
    FoldsInPlace u s where
  inPlace := by
    intro tail
    have hne := foldSpec_ne_zero u hs
    obtain ⟨rest, hfold, hlen⟩ := fold_eq u hs tail
    obtain ⟨rest', hagain, -⟩ := fold_eq u hne rest
    rw [foldSpec_idem hu] at hagain
    rw [folded_eq]
    exact ⟨rest, hfold, hlen, rest', hagain⟩
  cursors := fun tail _ h => turns_cursors u s tail h
  split := ⟨splitSeqs_flatten s, splitSeqs_shape s⟩
  string := by
    rw [folded_eq]
    exact foldSpec_ne_zero u hs
  shrinks := by
    rw [folded_eq]
    exact length_foldSpec u s
  utf8 := by
    rintro cs rfl
    rw [folded_eq]
    exact ⟨_, foldSpec_enc hu cs⟩

/-- A lead byte without its continuation in front of a letter of the block. -/
theorem fold_inPlace_malformed : FoldsInPlace 0x3F [0xE1, 0xE1, 0xBA, 0xA0] :=
  fold_inPlace (by decide) (by simp)

end OemAaMod.HudTranslit
