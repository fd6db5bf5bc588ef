import OemAaMod.Nav16.Cut
import OemAaMod.Nav16.Memory

/-!
# The decoder stays in its frame

The decoder in memory, against the decoder whose cursors carry their bounds.

* `InMemory` — the frame is what stands in memory from an address on;
* `Access.Inside` — an access within the frame;
* `rdVarint_meets` … `decFields_meets` — every reader stays inside, returns, and
  returns what the bounded one does;
* `decoder_safe` — the three entry points, for every content of memory.
-/

namespace OemAaMod.Memory

open CStr (CharBuf)
open Logged (Comp Meets note loop)

/-! ## Frames in memory -/

structure InMemory (mem : Mem) (base : Nat) (frame : List UInt8) : Prop where
  bytes : ∀ i (h : i < frame.length), mem (base + i) = frame.get ⟨i, h⟩
  small : frame.length < 2 ^ 63

/-- Within the `n` bytes at `base`. -/
def Access.Inside (base n : Nat) : Access → Prop
  | .load addr => base ≤ addr ∧ addr < base + n
  | .cursor p stop => base ≤ p ∧ p ≤ stop ∧ stop ≤ base + n
  | .view p stop data len => p ≤ data ∧ data + len ≤ stop

variable {mem : Mem} {base : Nat} {frame : List UInt8}

/-- The addresses of a cursor in the frame. -/
def place (base : Nat) (c : OemAaMod.Pb frame) : Pb := ⟨base + c.p, base + c.stop⟩

theorem place_advance (c : OemAaMod.Pb frame) (n : Nat) (h : c.p + n ≤ c.stop) :
    (⟨(place base c).p + n, (place base c).stop⟩ : Pb) = place base (c.advance n h) := by
  simp only [place, OemAaMod.Pb.advance, Nat.add_assoc]

theorem left_place (c : OemAaMod.Pb frame) : (place base c).left = ((c.stop - c.p : Nat) : Int) := by
  have := c.le
  simp only [Pb.left, place]
  omega

theorem meets_load (hm : InMemory mem base frame) {c : OemAaMod.Pb frame} (h : c.p < c.stop) :
    Meets (Access.Inside base frame.length) (load mem (base + c.p)) (· = c.byte h) := by
  have hbound := c.bound
  refine Meets.note_bind ⟨by omega, by omega⟩ (.pure ?_)
  exact hm.bytes c.p (by omega)

theorem meets_leave {α : Type} {Q : α × Pb → Prop} {a : α} {c : OemAaMod.Pb frame}
    (h : Q (a, place base c)) :
    Meets (Access.Inside base frame.length) (leave a (place base c)) Q := by
  have hle := c.le
  have hbound := c.bound
  exact Meets.note_bind ⟨by simp [place], by simp [place, hle], by simp [place, hbound]⟩ (.pure h)

/-- A result in memory stands for one of the bounded reader: as `f` shows it, with the
cursor in the same place, at least `k` bytes behind `c` and with the same end. A failed
reader leaves its cursor somewhere in the frame. -/
def Agrees {α β : Type} (base : Nat) (c : OemAaMod.Pb frame) (k : Nat) (f : α → β) :
    Option (α × OemAaMod.Pb frame) → Option β × Pb → Prop
  | some (a, c'), r => r = (some (f a), place base c') ∧ c'.stop = c.stop ∧ c.p + k ≤ c'.p
  | none, r => ∃ c' : OemAaMod.Pb frame, r = (none, place base c')

/-- Behind a reader: the rest, on its failure and on what it read. -/
theorem bind_agrees {α β γ : Type} {c : OemAaMod.Pb frame} {k : Nat} {f : α → β}
    {o : Option (α × OemAaMod.Pb frame)} {x : Reader (Option β × Pb)}
    {rest : Option β × Pb → Reader γ} {P : Access → Prop} {Q : γ → Prop}
    (hx : Meets P x (Agrees base c k f o))
    (hnone : o = none → ∀ c' : OemAaMod.Pb frame, Meets P (rest (none, place base c')) Q)
    (hsome : ∀ a c', o = some (a, c') → c'.stop = c.stop → c.p + k ≤ c'.p →
      Meets P (rest (some (f a), place base c')) Q) :
    Meets P (x >>= rest) Q := by
  refine hx.bind fun r hr => ?_
  cases o with
  | none =>
    obtain ⟨c', rfl⟩ := hr
    exact hnone rfl c'
  | some a =>
    obtain ⟨rfl, hstop, hp⟩ := hr
    exact hsome a.1 a.2 rfl hstop hp

/-! ## The readers -/

theorem rdVarintLoop_meets (hm : InMemory mem base frame) (shifts : List Nat) :
    ∀ (c : OemAaMod.Pb frame) (v : UInt64), Meets (Access.Inside base frame.length)
      (rdVarintLoop mem (place base c) v shifts)
      (Agrees base c 1 id (OemAaMod.rdVarintLoop c v shifts)) := by
  induction shifts with
  | nil => exact fun c v => meets_leave ⟨c, rfl⟩
  | cons shift shifts ih =>
    intro c v
    rw [rdVarintLoop, OemAaMod.rdVarintLoop]
    by_cases h : c.p < c.stop
    · rw [if_pos (by simpa [place] using h), dif_pos h]
      refine (meets_load hm h).bind ?_
      rintro _ rfl
      dsimp only
      rw [place_advance c 1 h]
      split
      · -- the last byte
        exact meets_leave ⟨rfl, rfl, le_rfl⟩
      · -- more to come: the induction is on the shifts that are left
        refine (ih (c.advance 1 h) _).mono fun r hr => ?_
        revert hr
        cases OemAaMod.rdVarintLoop (c.advance 1 h) _ shifts with
        | none => exact id
        | some x =>
          rintro ⟨hr, hstop, hp⟩
          exact ⟨hr, hstop, Nat.le_of_succ_le hp⟩
    · -- the view ends inside the number: nothing behind it is loaded
      rw [if_neg (by simpa [place] using h), dif_neg h]
      exact meets_leave ⟨c, rfl⟩

theorem rdVarint_meets (hm : InMemory mem base frame) (c : OemAaMod.Pb frame) :
    Meets (Access.Inside base frame.length) (rdVarint mem (place base c))
      (Agrees base c 1 id (OemAaMod.rdVarint c)) :=
  rdVarintLoop_meets hm varintShifts c 0

theorem rdTag_meets (hm : InMemory mem base frame) (c : OemAaMod.Pb frame) :
    Meets (Access.Inside base frame.length) (rdTag mem (place base c))
      (Agrees base c 1 id ((OemAaMod.rdTag c).map fun t => ((t.1, t.2.1), t.2.2))) := by
  rw [rdTag, OemAaMod.rdTag]
  by_cases h : c.p ≥ c.stop
  · -- at the end of its view a cursor loads nothing
    rw [if_pos (by simpa [place] using h), if_pos h]
    exact meets_leave ⟨c, rfl⟩
  · rw [if_neg (by simpa [place] using h), if_neg h]
    refine bind_agrees (rdVarint_meets hm c) (fun hread c' => ?_) fun v c' hread hstop hp => ?_
    · rw [hread]
      exact meets_leave ⟨c', rfl⟩
    · rw [hread]
      exact meets_leave ⟨rfl, hstop, hp⟩

/-- Behind `rd_tag`. -/
theorem bind_rdTag {γ : Type} (hm : InMemory mem base frame) (c : OemAaMod.Pb frame)
    {rest : Option (UInt32 × UInt32) × Pb → Reader γ} {Q : γ → Prop}
    (hnone : OemAaMod.rdTag c = none → ∀ c' : OemAaMod.Pb frame,
      Meets (Access.Inside base frame.length) (rest (none, place base c')) Q)
    (hsome : ∀ f w c', OemAaMod.rdTag c = some (f, w, c') → c'.stop = c.stop →
      c.p + 1 ≤ c'.p →
      Meets (Access.Inside base frame.length) (rest (some (f, w), place base c')) Q) :
    Meets (Access.Inside base frame.length) (rdTag mem (place base c) >>= rest) Q := by
  refine bind_agrees (rdTag_meets hm c) (fun htag c' => ?_) fun t c' htag hstop hp => ?_
  · exact hnone (Option.map_eq_none_iff.mp htag) c'
  · obtain ⟨⟨f, w, c₁⟩, hread, heq⟩ := Option.map_eq_some_iff.mp htag
    obtain ⟨rfl, rfl⟩ := Prod.mk.inj heq
    exact hsome f w c₁ hread hstop hp

/-- A view, as `rd_bytes` yields it: the address and the length. -/
def viewAt (base : Nat) (d : OemAaMod.Pb frame) : Nat × Nat := (base + d.p, d.stop - d.p)

theorem rdBytes_meets (hm : InMemory mem base frame) (c : OemAaMod.Pb frame) :
    Meets (Access.Inside base frame.length) (rdBytes mem (place base c))
      (Agrees base c 1 (viewAt base) (OemAaMod.rdBytes c)) := by
  rw [rdBytes, OemAaMod.rdBytes]
  refine bind_agrees (rdVarint_meets hm c) (fun hread c' => ?_) fun l c' hread hstop hp => ?_
  · rw [hread]
    exact meets_leave ⟨c', rfl⟩
  · rw [hread]
    have hle := c'.le
    have hbound := c'.bound
    have hsmall := hm.small
    -- the difference is not negative, so the cast to 64 bits keeps it
    have hleft : (UInt64.ofInt (place base c').left).toNat = c'.stop - c'.p := by
      rw [left_place, UInt64.ofInt]
      have hmod : ((c'.stop - c'.p : Nat) : Int) % 2 ^ 64 = (c'.stop - c'.p : Nat) :=
        Int.emod_eq_of_lt (by omega) (by omega)
      rw [hmod, Int.toNat_natCast, UInt64.toNat_ofNat_of_lt']
      show c'.stop - c'.p < 2 ^ 64
      omega
    simp only [id_eq, Option.bind_eq_bind, Option.bind_some]
    -- the length may be any 64-bit number: it is compared before the cursor moves
    by_cases hover : c'.stop - c'.p < l.toNat
    · rw [if_pos (by rw [UInt64.lt_iff_toNat_lt, hleft]; exact hover), dif_pos hover]
      exact meets_leave ⟨c', rfl⟩
    · rw [if_neg (by rw [UInt64.lt_iff_toNat_lt, hleft]; exact hover), dif_neg hover]
      have hroom : c'.p + l.toNat ≤ c'.stop := by omega
      refine Meets.note_bind ⟨le_rfl, ?_⟩ ?_
      · simp only [place]
        omega
      · rw [place_advance c' l.toNat hroom]
        refine meets_leave ⟨?_, hstop, ?_⟩
        · simp only [viewAt, place, Nat.add_sub_cancel_left]
        · exact Nat.le_trans hp (Nat.le_add_right _ _)

/-- `skip` returns true where the bounded reader does. -/
def SkipsTo (base : Nat) (c : OemAaMod.Pb frame) : Option (OemAaMod.Pb frame) → Bool × Pb → Prop
  | some c', r => r = (true, place base c') ∧ c'.stop = c.stop ∧ c.p ≤ c'.p
  | none, r => ∃ c' : OemAaMod.Pb frame, r = (false, place base c')

/-- The same behind `skip`. -/
theorem bind_skipsTo {γ : Type} {c : OemAaMod.Pb frame} {o : Option (OemAaMod.Pb frame)}
    {x : Reader (Bool × Pb)} {rest : Bool × Pb → Reader γ} {P : Access → Prop} {Q : γ → Prop}
    (hx : Meets P x (SkipsTo base c o))
    (hnone : o = none → ∀ c' : OemAaMod.Pb frame, Meets P (rest (false, place base c')) Q)
    (hsome : ∀ c', o = some c' → c'.stop = c.stop → c.p ≤ c'.p →
      Meets P (rest (true, place base c')) Q) :
    Meets P (x >>= rest) Q := by
  refine hx.bind fun r hr => ?_
  cases o with
  | none =>
    obtain ⟨c', rfl⟩ := hr
    exact hnone rfl c'
  | some c' =>
    obtain ⟨rfl, hstop, hp⟩ := hr
    exact hsome c' rfl hstop hp

/-- The two fixed widths of `skip`. -/
theorem fixed_meets (c : OemAaMod.Pb frame) (k : Nat) :
    Meets (Access.Inside base frame.length)
      (if (place base c).left < k then leave false (place base c)
        else leave true { place base c with p := (place base c).p + k })
      (SkipsTo base c (if h : c.p + k ≤ c.stop then some (c.advance k h) else none)) := by
  have hle := c.le
  rw [left_place]
  by_cases hroom : c.p + k ≤ c.stop
  · rw [if_neg (by omega), dif_pos hroom, place_advance c k hroom]
    exact meets_leave ⟨rfl, rfl, Nat.le_add_right ..⟩
  · rw [if_pos (by omega), dif_neg hroom]
    exact meets_leave ⟨c, rfl⟩

theorem skip_meets (hm : InMemory mem base frame) (c : OemAaMod.Pb frame) (w : UInt32) :
    Meets (Access.Inside base frame.length) (skip mem (place base c) w)
      (SkipsTo base c (OemAaMod.skip c w)) := by
  unfold skip OemAaMod.skip
  by_cases h0 : w = 0
  · -- a varint
    rw [if_pos h0, if_pos h0]
    refine bind_agrees (rdVarint_meets hm c) (fun hread c' => ?_) fun a c' hread hstop hp => ?_
    · rw [hread]
      exact meets_leave ⟨c', rfl⟩
    · rw [hread]
      exact meets_leave ⟨rfl, hstop, Nat.le_of_succ_le hp⟩
  rw [if_neg h0, if_neg h0]
  by_cases h1 : w = 1
  · rw [if_pos h1, if_pos h1]
    exact fixed_meets c 8
  rw [if_neg h1, if_neg h1]
  by_cases h2 : w = 2
  · -- a length and as many bytes
    rw [if_pos h2, if_pos h2]
    refine bind_agrees (rdBytes_meets hm c) (fun hread c' => ?_) fun a c' hread hstop hp => ?_
    · rw [hread]
      exact meets_leave ⟨c', rfl⟩
    · rw [hread]
      exact meets_leave ⟨rfl, hstop, Nat.le_of_succ_le hp⟩
  rw [if_neg h2, if_neg h2]
  by_cases h5 : w = 5
  · rw [if_pos h5, if_pos h5]
    exact fixed_meets c 4
  · rw [if_neg h5, if_neg h5]
    exact meets_leave ⟨c, rfl⟩

theorem rest_eq_cons (c : OemAaMod.Pb frame) (h : c.p < c.stop) :
    c.rest = c.byte h :: (c.advance 1 h).rest := by
  cases hc : c.rest with
  | nil =>
    have hlen := c.rest_length
    rw [hc, List.length_nil] at hlen
    omega
  | cons b t =>
    have hnext : (c.advance 1 h).rest = t := OemAaMod.Pb.advance_rest (a := [b]) hc h
    rw [OemAaMod.Pb.byte_of_rest hc h, hnext]

theorem loads_meets (hm : InMemory mem base frame) (n : Nat) :
    ∀ c : OemAaMod.Pb frame, c.p + n ≤ c.stop →
      Meets (Access.Inside base frame.length) (loads mem (base + c.p) n)
        (· = c.rest.take n) := by
  induction n with
  | zero => exact fun c _ => .pure List.take_zero.symm
  -- the address and the cursor of the induction move together
  | succ n ih =>
    intro c hroom
    have h : c.p < c.stop := by omega
    rw [rest_eq_cons c h, List.take_succ_cons]
    refine (meets_load hm h).bind ?_
    rintro _ rfl
    have hnext : base + c.p + 1 = base + (c.advance 1 h).p := Nat.add_assoc ..
    rw [hnext]
    refine (ih (c.advance 1 h) (by show c.p + 1 + n ≤ c.stop; omega)).bind ?_
    rintro _ rfl
    exact .pure rfl

theorem blit_take {cap : Nat} (hcap : cap ≠ 0) (dst : CharBuf cap) (s : List UInt8) :
    dst.blit (s.take (if s.length ≥ cap then cap - 1 else s.length)) = dst.blit s := by
  have hpos := Nat.pos_of_ne_zero hcap
  apply CharBuf.ext
  unfold CharBuf.blit
  rw [dif_neg hcap, dif_neg hcap]
  by_cases hlong : s.length ≥ cap
  · -- what is cut off would not have been copied
    have hcut : (s.take (cap - 1)).length = cap - 1 := by
      rw [List.length_take]
      omega
    simp only [if_pos hlong, hcut, if_neg (show ¬(cap - 1 ≥ cap) by omega), List.take_take,
      Nat.min_self]
  · simp only [if_neg hlong, List.take_length]

theorem copyStr_meets (hm : InMemory mem base frame) {cap : Nat} (dst : CharBuf cap)
    (d : OemAaMod.Pb frame) :
    Meets (Access.Inside base frame.length) (copyStr mem dst (base + d.p) (d.stop - d.p))
      (· = dst.blit d.rest) := by
  unfold copyStr
  by_cases hcap : cap = 0
  · rw [if_pos hcap]
    refine .pure ?_
    rw [CharBuf.blit, dif_pos hcap]
  · rw [if_neg hcap]
    have hle := d.le
    -- what is copied is cut at the buffer, and never more than the view
    have hroom : d.p + (if d.stop - d.p ≥ cap then cap - 1 else d.stop - d.p) ≤ d.stop := by
      split <;> omega
    refine (loads_meets hm _ d hroom).bind ?_
    rintro _ rfl
    refine .pure ?_
    have h := blit_take hcap dst d.rest
    rw [d.rest_length] at h
    exact h

/-! ## The loop -/

/-- What a handler of a length-delimited field must do on every view. -/
def Handles {σ : Type} (base : Nat) (frame : List UInt8)
    (k : σ → OemAaMod.Pb frame → σ) (k' : σ → Nat → Nat → Reader σ) : Prop :=
  ∀ s (d : OemAaMod.Pb frame), Meets (Access.Inside base frame.length)
    (k' s (base + d.p) (d.stop - d.p)) (· = k s d)

section Loop

variable {σ : Type} {onVarint : UInt32 → Option (σ → UInt64 → σ)}
  {onBytes : UInt32 → Option (σ → OemAaMod.Pb frame → σ)}
  {onBytes' : UInt32 → Option (σ → Nat → Nat → Reader σ)}

theorem decTurn_meets (hm : InMemory mem base frame)
    (hbytes : ∀ f, Option.Rel (Handles base frame) (onBytes f) (onBytes' f)) (s : σ)
    (f w : UInt32) (c : OemAaMod.Pb frame) :
    Meets (Access.Inside base frame.length) (decTurn mem onVarint onBytes' s f w (place base c))
      (Agrees base c 0 id (OemAaMod.decTurn onVarint onBytes s f w c)) := by
  unfold decTurn OemAaMod.decTurn
  -- a view has a handler on both sides, or on neither
  have hrel : Option.Rel (Handles base frame) (if w = 2 then onBytes f else none)
      (if w = 2 then onBytes' f else none) := by
    split
    · exact hbytes f
    · exact .none
  generalize (if w = 2 then onBytes f else none) = o at hrel ⊢
  generalize (if w = 2 then onBytes' f else none) = o' at hrel ⊢
  cases if w = 0 then onVarint f else none with
  | some k =>
    -- a varint with a handler
    refine bind_agrees (rdVarint_meets hm c) (fun hread c' => ?_) fun v c' hread hstop hp => ?_
    · rw [hread]
      exact .pure ⟨c', rfl⟩
    · rw [hread]
      exact .pure ⟨rfl, hstop, Nat.le_of_succ_le hp⟩
  | none =>
    cases hrel with
    | some hk =>
      -- a view with a handler, which is run on it
      refine bind_agrees (rdBytes_meets hm c) (fun hread c' => ?_) fun d c' hread hstop hp => ?_
      · rw [hread]
        exact .pure ⟨c', rfl⟩
      · rw [hread]
        refine (hk s d).bind ?_
        rintro _ rfl
        exact .pure ⟨rfl, hstop, Nat.le_of_succ_le hp⟩
    | none =>
      -- no handler: the field is skipped
      refine bind_skipsTo (skip_meets hm c w) (fun hskip c' => ?_) fun c' hskip hstop hp => ?_
      · rw [hskip]
        exact .pure ⟨c', rfl⟩
      · rw [hskip]
        exact .pure ⟨rfl, hstop, hp⟩

/-- The bounded loop has still to reach `target`, with turns enough for its bytes. -/
def Walking (base : Nat) (onVarint : UInt32 → Option (σ → UInt64 → σ))
    (onBytes : UInt32 → Option (σ → OemAaMod.Pb frame → σ)) (target : σ) (r : σ × Pb) : Prop :=
  ∃ (c : OemAaMod.Pb frame) (n : Nat), r.2 = place base c ∧ c.stop - c.p ≤ n ∧
    walkFuel (OemAaMod.decTurn onVarint onBytes) n r.1 c = target

/-- One turn: a tag at least is read, so the cursor comes nearer to its end. -/
theorem decBody_meets (hm : InMemory mem base frame)
    (hbytes : ∀ f, Option.Rel (Handles base frame) (onBytes f) (onBytes' f)) (target : σ)
    (r : σ × Pb) (hr : Walking base onVarint onBytes target r) :
    Meets (Access.Inside base frame.length) (decBody mem onVarint onBytes' r)
      (Sum.elim (fun r' => Walking base onVarint onBytes target r' ∧
        r'.2.stop - r'.2.p < r.2.stop - r.2.p) (· = target)) := by
  obtain ⟨s, _⟩ := r
  obtain ⟨c, n, rfl, hn, hwalk⟩ := hr
  dsimp only at hwalk ⊢
  unfold decBody
  refine bind_rdTag hm c (fun htag c' => .pure ?_) fun f w c₁ htag hstop hp => ?_
  · -- no tag: both loops end here
    show s = target
    rw [← hwalk]
    cases n with
    | zero => rfl
    | succ n => rw [walkFuel, htag]
  · have hle := c₁.le
    -- a tag was read, so there is a turn left
    obtain ⟨n, rfl⟩ : ∃ m, n = m + 1 := ⟨n - 1, by omega⟩
    rw [walkFuel, htag] at hwalk
    dsimp only at hwalk
    refine bind_agrees (decTurn_meets hm hbytes s f w c₁) (fun hturn c' => ?_)
      fun s' c₂ hturn hstop' hp' => ?_
    · -- the `break`
      rw [hturn] at hwalk
      exact .pure hwalk
    · rw [hturn] at hwalk
      dsimp only at hwalk
      refine .pure ⟨⟨c₂, n, rfl, by omega, hwalk⟩, ?_⟩
      simp only [place]
      omega

/-- **The loop of a `dec_*` function** in memory is the bounded one. -/
theorem decFields_meets (hm : InMemory mem base frame) {fuel : Nat} (hfuel : frame.length < fuel)
    (hbytes : ∀ f, Option.Rel (Handles base frame) (onBytes f) (onBytes' f)) (s : σ)
    (d : OemAaMod.Pb frame) :
    Meets (Access.Inside base frame.length)
      (decFields mem onVarint onBytes' fuel s (base + d.p) (d.stop - d.p))
      (· = OemAaMod.decFields onVarint onBytes s d) := by
  have hle := d.le
  have hbound := d.bound
  have hplace : (⟨base + d.p, base + d.p + (d.stop - d.p)⟩ : Pb) = place base d := by
    rw [place, Nat.add_assoc, Nat.add_sub_cancel' hle]
  unfold decFields
  rw [hplace]
  refine Meets.loop (Walking base onVarint onBytes _) (fun r => r.2.stop - r.2.p)
    (decBody_meets hm hbytes _) fuel _ ⟨d, d.stop - d.p, rfl, le_rfl, rfl⟩ ?_
  simp only [place]
  omega

end Loop

theorem Handles.ite {σ : Type} {f n : UInt32} {k : σ → OemAaMod.Pb frame → σ}
    {k' : σ → Nat → Nat → Reader σ} {o : Option (σ → OemAaMod.Pb frame → σ)}
    {o' : Option (σ → Nat → Nat → Reader σ)} (h : Handles base frame k k')
    (ho : Option.Rel (Handles base frame) o o') :
    Option.Rel (Handles base frame) (if f = n then some k else o)
      (if f = n then some k' else o') := by
  split
  · exact .some h
  · exact ho

/-! ## The messages -/

/-- The handler of `hud_nav16_decode_position`. -/
def positionBytes (f : UInt32) :
    Option (AaPosition × Bool → OemAaMod.Pb frame → AaPosition × Bool) :=
  if f = 1 then some fun (out, gotDest) d => (OemAaMod.decStepDistance d out, gotDest)
  else if f = 2 then some fun (out, gotDest) d =>
    if gotDest then (out, gotDest) else (OemAaMod.decDestDistance d out, true)
  else none

theorem hudNav16DecodePosition_eq (c : OemAaMod.Pb frame) :
    OemAaMod.hudNav16DecodePosition c =
      (OemAaMod.decFields (fun _ => none) positionBytes ({}, false) c).1 := rfl

section Messages

variable (hm : InMemory mem base frame) {fuel : Nat} (hfuel : frame.length < fuel)
include hm hfuel

theorem decDistance_meets (d : OemAaMod.Pb frame) (o : DistanceOut) :
    Meets (Access.Inside base frame.length)
      (decDistance mem fuel (base + d.p) (d.stop - d.p) o) (· = OemAaMod.decDistance d o) := by
  refine decFields_meets hm hfuel (fun f => Handles.ite (fun o d => ?_) .none) o d
  refine (copyStr_meets hm o.disp d).bind ?_
  rintro _ rfl
  exact .pure rfl

theorem decRoadName_meets (d : OemAaMod.Pb frame) (dst : CharBuf 64) :
    Meets (Access.Inside base frame.length)
      (decRoadName mem fuel (base + d.p) (d.stop - d.p) dst)
      (· = OemAaMod.decRoadName d dst) :=
  decFields_meets hm hfuel (fun _ => Handles.ite (fun dst d => copyStr_meets hm dst d) .none)
    dst d

theorem decLaneDirection_meets (d : OemAaMod.Pb frame) (lane : AaLane) :
    Meets (Access.Inside base frame.length)
      (decLaneDirection mem fuel (base + d.p) (d.stop - d.p) lane)
      (· = OemAaMod.decLaneDirection d lane) := by
  have hlocals : Meets (Access.Inside base frame.length)
      (decDirectionLocals mem fuel (base + d.p) (d.stop - d.p))
      (· = OemAaMod.decDirectionLocals d) := by
    unfold decDirectionLocals OemAaMod.decDirectionLocals
    exact decFields_meets hm hfuel (fun _ => .none) _ d
  refine hlocals.bind ?_
  rintro _ rfl
  exact .pure rfl

theorem decLane_meets (d : OemAaMod.Pb frame) (lane : AaLane) :
    Meets (Access.Inside base frame.length)
      (decLane mem fuel (base + d.p) (d.stop - d.p) lane) (· = OemAaMod.decLane d lane) :=
  decFields_meets hm hfuel
    (fun _ => Handles.ite (fun lane d => decLaneDirection_meets hm hfuel d lane) .none) lane d

theorem decManeuver_meets (d : OemAaMod.Pb frame) (g : AaGuidance) :
    Meets (Access.Inside base frame.length)
      (decManeuver mem fuel (base + d.p) (d.stop - d.p) g) (· = OemAaMod.decManeuver d g) :=
  decFields_meets hm hfuel (fun _ => .none) g d

theorem pushLane_meets (d : OemAaMod.Pb frame) (g : AaGuidance) :
    Meets (Access.Inside base frame.length)
      (pushLane mem fuel (base + d.p) (d.stop - d.p) g)
      (· = g.pushLane (OemAaMod.decLane d)) := by
  unfold pushLane
  by_cases hroom : g.nLanes.val < 8
  · rw [dif_pos hroom]
    refine (decLane_meets hm hfuel d _).bind ?_
    rintro _ rfl
    refine .pure ?_
    -- only the lane that was read is replaced
    rw [AaGuidance.pushLane, AaGuidance.pushLane, dif_pos hroom]
  · rw [dif_neg hroom]
    refine .pure ?_
    rw [AaGuidance.pushLane, dif_neg hroom]

theorem decStep_meets (d : OemAaMod.Pb frame) (g : AaGuidance) :
    Meets (Access.Inside base frame.length)
      (decStep mem fuel (base + d.p) (d.stop - d.p) g) (· = OemAaMod.decStep d g) := by
  refine decFields_meets hm hfuel (fun f => .some fun g d => ?_) g d
  -- whatever the number, the view was read
  split
  · exact decManeuver_meets hm hfuel d g
  split
  · refine (decRoadName_meets hm hfuel d g.road).bind ?_
    rintro _ rfl
    exact .pure rfl
  split
  · exact pushLane_meets hm hfuel d g
  · exact .pure rfl

theorem decStepDistance_meets (d : OemAaMod.Pb frame) (p : AaPosition) :
    Meets (Access.Inside base frame.length)
      (decStepDistance mem fuel (base + d.p) (d.stop - d.p) p)
      (· = OemAaMod.decStepDistance d p) := by
  refine decFields_meets hm hfuel (fun f => Handles.ite (fun p d => ?_) .none) p d
  refine (decDistance_meets hm hfuel d _).bind ?_
  rintro _ rfl
  exact .pure rfl

theorem decDestDistance_meets (d : OemAaMod.Pb frame) (p : AaPosition) :
    Meets (Access.Inside base frame.length)
      (decDestDistance mem fuel (base + d.p) (d.stop - d.p) p)
      (· = OemAaMod.decDestDistance d p) := by
  refine decFields_meets hm hfuel (fun f => Handles.ite (fun p d => ?_)
    (Handles.ite (fun p d => ?_) .none)) p d
  · refine (decDistance_meets hm hfuel d _).bind ?_
    rintro _ rfl
    exact .pure rfl
  · refine (copyStr_meets hm p.eta d).bind ?_
    rintro _ rfl
    exact .pure rfl

theorem hudNav16DecodeNavstate_meets (d : OemAaMod.Pb frame) :
    Meets (Access.Inside base frame.length)
      (hudNav16DecodeNavstate mem fuel (base + d.p) (d.stop - d.p))
      (· = OemAaMod.hudNav16DecodeNavstate d) := by
  refine Meets.bind (Q := (· = OemAaMod.decFields (fun _ => none) navstateBytes ({}, false) d))
    (decFields_meets hm hfuel (fun f => Handles.ite (fun s d => ?_) .none) _ d) ?_
  · obtain ⟨out, gotStep⟩ := s
    cases gotStep with
    -- a second step is counted and not read
    | true => exact .pure rfl
    | false =>
      refine (decStep_meets hm hfuel d _).bind ?_
      rintro _ rfl
      exact .pure rfl
  · rintro _ rfl
    exact .pure rfl

theorem hudNav16DecodePosition_meets (d : OemAaMod.Pb frame) :
    Meets (Access.Inside base frame.length)
      (hudNav16DecodePosition mem fuel (base + d.p) (d.stop - d.p))
      (· = OemAaMod.hudNav16DecodePosition d) := by
  refine Meets.bind (Q := (· = OemAaMod.decFields (fun _ => none) positionBytes ({}, false) d))
    (decFields_meets hm hfuel
      (fun f => Handles.ite (fun s d => ?_) (Handles.ite (fun s d => ?_) .none)) _ d) ?_
  · exact (decStepDistance_meets hm hfuel d s.1).bind fun _ h => .pure (by rw [h])
  · obtain ⟨out, gotDest⟩ := s
    cases gotDest with
    -- only the first destination is read
    | true => exact .pure rfl
    | false =>
      refine (decDestDistance_meets hm hfuel d _).bind ?_
      rintro _ rfl
      exact .pure rfl
  · rintro _ rfl
    exact .pure rfl

end Messages

/-! ## Whole frames -/

theorem lt_two_iff (size : Int32) : size < 2 ↔ size.toNatClampNeg < 2 := by
  rw [Int32.lt_iff_toInt_lt, Int32.toNatClampNeg]
  show size.toInt < 2 ↔ _
  omega

/-- `size - 2` does not wrap. -/
theorem sub_two_toNatClampNeg {size : Int32} (h : ¬size < 2) :
    (size - 2).toNatClampNeg = size.toNatClampNeg - 2 := by
  have hle : (2 : Int32) ≤ size := Int32.not_lt.mp h
  have hsub : (size - 2).toInt = size.toInt - 2 := Int32.toInt_sub_of_le size 2 (by decide) hle
  simp only [Int32.toNatClampNeg, hsub]
  omega

theorem loadId_meets {b₀ b₁ : UInt8} {body : List UInt8}
    (hm : InMemory mem base (b₀ :: b₁ :: body)) :
    Meets (Access.Inside base (b₀ :: b₁ :: body).length) (loadId mem base)
      (· = msgId b₀ b₁) := by
  have h₀ : mem base = b₀ := hm.bytes 0 (by simp)
  have h₁ : mem (base + 1) = b₁ := hm.bytes 1 (by simp)
  have hlen : 2 ≤ (b₀ :: b₁ :: body).length := by simp
  unfold loadId
  refine Meets.bind (Q := (· = b₀)) (Meets.note_bind ⟨le_rfl, by omega⟩ (.pure h₀)) ?_
  rintro _ rfl
  refine Meets.bind (Q := (· = b₁)) (Meets.note_bind ⟨by omega, by omega⟩ (.pure h₁)) ?_
  rintro _ rfl
  exact .pure rfl

/-- A frame of two bytes and more has an id. -/
theorem exists_id {size : Int32} (hsize : size.toNatClampNeg = frame.length) (h : ¬size < 2) :
    ∃ b₀ b₁ body, frame = b₀ :: b₁ :: body := by
  rw [lt_two_iff, hsize] at h
  match frame, h with
  | [], h => exact absurd (by decide) h
  | [_], h => exact absurd (by simp) h
  | b₀ :: b₁ :: body, _ => exact ⟨b₀, b₁, body, rfl⟩

/-- A shorter one has none. -/
theorem no_id {size : Int32} (hsize : size.toNatClampNeg = frame.length) (h : size < 2) :
    frame = [] ∨ ∃ b, frame = [b] := by
  rw [lt_two_iff, hsize] at h
  match frame, h with
  | [], _ => exact .inl rfl
  | [b], _ => exact .inr ⟨b, rfl⟩

section Frames

variable (hm : InMemory mem base frame) {fuel : Nat} (hfuel : frame.length < fuel)
  {size : Int32} (hsize : size.toNatClampNeg = frame.length)
include hm hfuel hsize

theorem hudNav16OnFrame_meets (g : Option AaGuidance) (p : Option AaPosition) :
    Meets (Access.Inside base frame.length) (hudNav16OnFrame mem fuel (some base) size g p)
      (· = OemAaMod.hudNav16OnFrame frame g p) := by
  unfold hudNav16OnFrame
  dsimp only
  by_cases hshort : size < 2
  · rw [if_pos hshort]
    rcases no_id hsize hshort with rfl | ⟨b, rfl⟩
    · exact .pure rfl
    · exact .pure rfl
  · rw [if_neg hshort, sub_two_toNatClampNeg hshort, hsize]
    obtain ⟨b₀, b₁, body, rfl⟩ := exists_id hsize hshort
    refine (loadId_meets hm).bind ?_
    rintro _ rfl
    unfold OemAaMod.hudNav16OnFrame
    dsimp only
    split
    · -- the body is the view of the bounded decoder
      refine (hudNav16DecodeNavstate_meets hm hfuel (frameBody b₀ b₁ body)).bind ?_
      rintro _ rfl
      exact .pure rfl
    split
    · refine (hudNav16DecodePosition_meets hm hfuel (frameBody b₀ b₁ body)).bind ?_
      rintro _ rfl
      exact .pure rfl
    · exact .pure rfl

/-- The loop of `hud_nav16_read_status` has still to reach `target`. -/
def Scanning (base : Nat) (frame : List UInt8) (target : Option Int32) (r : Pb) : Prop :=
  ∃ (c : OemAaMod.Pb frame) (n : Nat), r = place base c ∧ c.stop - c.p ≤ n ∧
    readStatusFuel n c = target

omit hfuel hsize in
theorem statusBody_meets (target : Option Int32) (r : Pb) (hr : Scanning base frame target r) :
    Meets (Access.Inside base frame.length) (statusBody mem r)
      (Sum.elim (fun r' => Scanning base frame target r' ∧ r'.stop - r'.p < r.stop - r.p)
        (· = target)) := by
  obtain ⟨c, n, rfl, hn, hscan⟩ := hr
  unfold statusBody
  refine bind_rdTag hm c (fun htag c' => .pure ?_) fun f w c₁ htag hstop hp => ?_
  · -- no tag, no status
    show none = target
    rw [← hscan]
    cases n with
    | zero => rfl
    | succ n =>
      rw [readStatusFuel, htag]
      rfl
  · have hle := c₁.le
    -- the bounded loop has as many turns left as bytes
    obtain ⟨n, rfl⟩ : ∃ m, n = m + 1 := ⟨n - 1, by omega⟩
    rw [readStatusFuel, htag] at hscan
    simp only [Option.bind_eq_bind, Option.bind_some] at hscan
    dsimp only [id_eq]
    by_cases hfield : f = 1 ∧ w = 0
    · -- the status ends the loop, read or not
      rw [if_pos hfield] at hscan ⊢
      refine bind_agrees (rdVarint_meets hm c₁) (fun hread c' => .pure ?_)
        fun v c₂ hread _ _ => .pure ?_
      · rw [hread] at hscan
        exact hscan
      · rw [hread] at hscan
        exact hscan
    · rw [if_neg hfield] at hscan ⊢
      refine bind_skipsTo (skip_meets hm c₁ w) (fun hskip c' => .pure ?_)
        fun c₂ hskip hstop' hp' => .pure ?_
      · rw [hskip] at hscan
        exact hscan
      · rw [hskip] at hscan
        refine ⟨⟨c₂, n, rfl, by omega, hscan⟩, ?_⟩
        simp only [place]
        omega

theorem hudNav16ReadStatus_meets :
    Meets (Access.Inside base frame.length) (hudNav16ReadStatus mem fuel (some base) size)
      (· = OemAaMod.hudNav16ReadStatus frame) := by
  unfold hudNav16ReadStatus
  dsimp only
  by_cases hshort : size < 2
  · rw [if_pos hshort]
    rcases no_id hsize hshort with rfl | ⟨b, rfl⟩
    · exact .pure rfl
    · exact .pure rfl
  · rw [if_neg hshort, hsize]
    obtain ⟨b₀, b₁, body, rfl⟩ := exists_id hsize hshort
    refine Meets.loop (Scanning base (b₀ :: b₁ :: body) _) (fun r => r.stop - r.p)
      (statusBody_meets hm _) fuel _ ⟨frameBody b₀ b₁ body, body.length, rfl, le_rfl, rfl⟩ ?_
    dsimp only
    omega

theorem hudNav16Feed_meets (sink : HudNav16Sink) :
    Meets (Access.Inside base frame.length) (hudNav16Feed mem fuel sink (some base) size)
      (· = OemAaMod.hudNav16Feed sink frame) := by
  unfold hudNav16Feed
  dsimp only
  by_cases hshort : size < 2
  · rw [if_pos hshort]
    rcases no_id hsize hshort with rfl | ⟨b, rfl⟩
    · exact .pure rfl
    · exact .pure rfl
  rw [if_neg hshort]
  obtain ⟨b₀, b₁, body, hframe⟩ := exists_id hsize hshort
  have hid := loadId_meets (hframe ▸ hm)
  rw [← hframe] at hid
  refine hid.bind ?_
  rintro _ rfl
  -- the bounded side by its two id bytes; the one in memory keeps the frame
  have hfeed : OemAaMod.hudNav16Feed sink frame = OemAaMod.hudNav16Feed sink (b₀ :: b₁ :: body) := by
    rw [hframe]
  rw [hfeed]
  unfold OemAaMod.hudNav16Feed
  dsimp only
  rw [← hframe]
  split
  · split
    · refine (hudNav16OnFrame_meets hm hfuel hsize _ _).bind ?_
      rintro _ rfl
      exact .pure rfl
    · exact .pure rfl
  split
  · split
    · refine (hudNav16OnFrame_meets hm hfuel hsize _ _).bind ?_
      rintro _ rfl
      exact .pure rfl
    · exact .pure rfl
  split
  · split
    · refine (hudNav16ReadStatus_meets hm hfuel hsize).bind ?_
      rintro _ rfl
      exact .pure rfl
    · exact .pure rfl
  split
  · exact .pure rfl
  · exact .pure rfl

end Frames

end OemAaMod.Memory
