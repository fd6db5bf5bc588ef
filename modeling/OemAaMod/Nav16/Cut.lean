import OemAaMod.Nav16.RoundTrip

/-!
# Frames cut short

What the reader and the loop of a `dec_*` function make of the beginning of an
encoding.

* `rdVarint_cut`, `rdBytes_cut`, `skip_cut` — a cut value is not read;
* `decFields_cut` — a message cut before the end of its first record that matters
  leaves the state as it was;
* `decFields_append` — behind whole records the loop goes on with what follows;
* `navstate_cut`, `navstate_append` — a `NavigationState` cut before or after the end
  of its first step.
-/

namespace OemAaMod

open Wire (Octets Field Concat Nested Interleaved EncodesField EncodesRecord EncodesPayload)

variable {frame : List UInt8}

/-! ## Cut values -/

/-- In front of its last byte a varint has continuation bits only. -/
theorem le_of_mem_cut {bs p : Octets} (hbs : Wire.Terminated bs) (hp : p <+: bs)
    (hlt : p.length < bs.length) : ∀ b ∈ p, 128 ≤ b.toNat := by
  induction bs generalizing p with
  | nil => exact absurd hlt (by simp)
  | cons a bs ih =>
    cases p with
    | nil => simp
    | cons b p =>
      obtain ⟨rfl, hp'⟩ := List.cons_prefix_cons.mp hp
      cases bs with
      | nil => exact absurd hlt (by simp)
      | cons a' bs =>
        obtain ⟨hcont, hrest⟩ := hbs
        intro x hx
        rcases List.mem_cons.mp hx with rfl | hx
        · exact hcont
        · exact ih hrest hp' (by simpa using hlt) x hx

/-- Bytes with continuation bits only are no varint. -/
theorem rdVarintLoop_cut (shifts : List Nat) :
    ∀ (c : Pb frame) (v : UInt64), (∀ b ∈ c.rest, 128 ≤ b.toNat) →
      rdVarintLoop c v shifts = none := by
  induction shifts with
  | nil => intro c v _; rfl
  | cons shift shifts ih =>
    intro c v hcont
    rw [rdVarintLoop]
    split
    · rename_i hroom
      -- one more continuation byte is read
      obtain ⟨b, t, hrest⟩ : ∃ b t, c.rest = b :: t := by
        have hlen := c.rest_length
        cases hc : c.rest with
        | nil =>
          rw [hc, List.length_nil] at hlen
          omega
        | cons b t => exact ⟨b, t, rfl⟩
      have hbyte : c.byte hroom = b := Pb.byte_of_rest hrest hroom
      have hnext : (c.advance 1 hroom).rest = t := Pb.advance_rest (a := [b]) hrest hroom
      dsimp only
      rw [hbyte, if_neg]
      · refine ih _ _ fun x hx => hcont x ?_
        rw [hnext] at hx
        rw [hrest]
        exact .tail _ hx
      · rw [and_0x80_eq_zero]
        have := hcont b (by rw [hrest]; exact .head _)
        omega
    · rfl

theorem rdVarint_cut {v : UInt64} {bs p : Octets} (h : Wire.EncodesVarint v bs) (hp : p <+: bs)
    (hlt : p.length < bs.length) {c : Pb frame} (hc : c.rest = p) : rdVarint c = none := by
  refine rdVarintLoop_cut _ c 0 ?_
  rw [hc]
  exact le_of_mem_cut h.terminated hp hlt

/-- A cut lies inside the first part, or the first part is whole. -/
theorem prefix_append_cases {p a b : Octets} (hp : p <+: a ++ b) :
    (p <+: a ∧ p.length < a.length) ∨ ∃ q, p = a ++ q ∧ q <+: b := by
  by_cases hlt : p.length < a.length
  · exact .inl ⟨List.prefix_of_prefix_length_le hp (List.prefix_append a b) (by omega), hlt⟩
  · obtain ⟨q, rfl⟩ := List.prefix_of_prefix_length_le (List.prefix_append a b) hp (by omega)
    exact .inr ⟨q, rfl, (List.prefix_append_right_inj a).mp hp⟩

theorem rdBytes_cut {d b p : Octets} (h : EncodesPayload (.bytes d) b) (hp : p <+: b)
    (hlt : p.length < b.length) {c : Pb frame} (hc : c.rest = p) : rdBytes c = none := by
  cases h with
  | bytes hlen hn =>
    rename_i n
    rcases prefix_append_cases hp with ⟨hp, hlt'⟩ | ⟨q, rfl, -⟩
    · simp [rdBytes, rdVarint_cut hn hp hlt' hc]
    · -- the length is there, and too long
      obtain ⟨c', hc', hrest⟩ := rdVarint_encodes hn hc
      have hl : (UInt64.ofNat d.length).toNat = d.length := by
        rw [UInt64.toNat_ofNat', Nat.mod_eq_of_lt hlen]
      have hleft := c'.rest_length
      rw [hrest] at hleft
      rw [List.length_append, List.length_append] at hlt
      have hover : c'.stop - c'.p < (UInt64.ofNat d.length).toNat := by omega
      simp only [rdBytes, hc', Option.bind_eq_bind, Option.bind_some, dif_pos hover]

theorem skip_cut {pl : Wire.Payload} {b p : Octets} (h : EncodesPayload pl b) (hp : p <+: b)
    (hlt : p.length < b.length) {c : Pb frame} (hc : c.rest = p) :
    skip c (UInt32.ofNat pl.wire) = none := by
  -- too few bytes are left for the payload, whatever its wire type
  have hleft := c.rest_length
  rw [hc] at hleft
  cases h with
  | varint h => simp [skip, Wire.Payload.wire, rdVarint_cut h hp hlt hc]
  | bytes hlen hn =>
    have hnone := rdBytes_cut (.bytes hlen hn) hp hlt hc
    simp [skip, Wire.Payload.wire, hnone]
  | fixed64 h =>
    have hshort : ¬c.p + 8 ≤ c.stop := by
      have := c.le
      omega
    simp [skip, Wire.Payload.wire, hshort]
  | fixed32 h =>
    have hshort : ¬c.p + 4 ≤ c.stop := by
      have := c.le
      omega
    simp [skip, Wire.Payload.wire, hshort]

/-! ## Cut messages -/

section Loop

variable {σ : Type} {onVarint : UInt32 → Option (σ → UInt64 → σ)}
  {onBytes : UInt32 → Option (σ → Pb frame → σ)}

/-- A cut field ends the loop. -/
theorem decTurn_cut {f : Field} {b p : Octets} (h : EncodesField f b) (hp : p <+: b)
    (hlt : p.length < b.length) {c : Pb frame} (hc : c.rest = p) (s : σ) :
    rdTag c = none ∨ ∃ F w c₁, rdTag c = some (F, w, c₁) ∧ decTurn onVarint onBytes s F w c₁ = none := by
  obtain ⟨hnum, htag, hbody⟩ := h
  rename_i tag body
  -- the cut is in the tag, or in the payload
  rcases prefix_append_cases hp with ⟨hp, hlt'⟩ | ⟨q, rfl, hq⟩
  · refine .inl ?_
    unfold rdTag
    split
    · rfl
    · simp [rdVarint_cut htag hp hlt' hc]
  · have hlen : q.length < body.length := by
      rw [List.length_append, List.length_append] at hlt
      omega
    obtain ⟨c₁, hc₁, hrest⟩ := rdVarint_encodes htag hc
    have hne : ¬c.p ≥ c.stop := by
      -- a tag has at least one byte
      have := Pb.room_of_rest hc
      have := List.length_pos_iff.mpr (Wire.terminated_ne_nil htag.terminated)
      omega
    obtain ⟨hf, hw⟩ := tag_split hnum (payload_wire_lt f.payload)
    refine .inr ⟨UInt32.ofNat f.num, UInt32.ofNat f.payload.wire, c₁, ?_, ?_⟩
    · rw [rdTag, if_neg hne, hc₁]
      simp only [Option.bind_eq_bind, Option.bind_some, Field.tag, hf, hw]
    · -- a payload that is read is cut like one that is skipped
      have hskip := skip_cut hbody hq hlen hrest
      cases hpl : f.payload with
      | varint v =>
        rw [hpl] at hbody hskip
        obtain ⟨h⟩ := hbody
        cases hk : onVarint (UInt32.ofNat f.num) with
        | none => simp [decTurn, Wire.Payload.wire, hk] at hskip ⊢; exact hskip
        | some k => simp [decTurn, Wire.Payload.wire, hk, rdVarint_cut h hq hlen hrest]
      | bytes d =>
        rw [hpl] at hbody hskip
        cases hk : onBytes (UInt32.ofNat f.num) with
        | none => simp [decTurn, Wire.Payload.wire, hk] at hskip ⊢; exact hskip
        | some k => simp [decTurn, Wire.Payload.wire, hk, rdBytes_cut hbody hq hlen hrest]
      | fixed64 d =>
        rw [hpl] at hskip
        simp [decTurn, Wire.Payload.wire] at hskip ⊢
        exact hskip
      | fixed32 d =>
        rw [hpl] at hskip
        simp [decTurn, Wire.Payload.wire] at hskip ⊢
        exact hskip

/-- One turn of the loop on a whole record. -/
theorem turn_encodes {ρ : Type} {Enc : ρ → Octets → Prop} {eff : σ → ρ → σ}
    (hrec : ∀ r b, Enc r b →
      ∃ f, EncodesField f b ∧ ∀ s, Acts onVarint onBytes f s (eff s r))
    {r : ρ} {b t : Octets} (hr : Enc r b) (s : σ) {c : Pb frame} (hc : c.rest = b ++ t)
    (fuel : Nat) : ∃ c', c'.rest = t ∧
      walkFuel (decTurn onVarint onBytes) (fuel + 1) s c =
        walkFuel (decTurn onVarint onBytes) fuel (eff s r) c' := by
  obtain ⟨f, hf, hacts⟩ := hrec r b hr
  obtain ⟨F, w, c₁, c', htag, hturn, hrest⟩ := decTurn_encodes hf (hacts s) hc
  refine ⟨c', hrest, ?_⟩
  rw [walkFuel, htag]
  dsimp only
  rw [hturn]

/-- By induction on the records: behind them the loop goes on with what follows. -/
theorem walkFuel_append {ρ : Type} {Enc : ρ → Octets → Prop} {eff : σ → ρ → σ}
    (hrec : ∀ r b, Enc r b →
      ∃ f, EncodesField f b ∧ ∀ s, Acts onVarint onBytes f s (eff s r))
    {rs : List ρ} {b : Octets} (h : Concat Enc rs b) :
    ∀ (s : σ) (c : Pb frame) (t : Octets) (fuel : Nat), c.rest = b ++ t → (b ++ t).length ≤ fuel →
      ∃ fuel' c', c'.rest = t ∧ t.length ≤ fuel' ∧
        walkFuel (decTurn onVarint onBytes) fuel s c =
          walkFuel (decTurn onVarint onBytes) fuel' (rs.foldl eff s) c' := by
  induction h with
  | nil =>
    intro s c t fuel hc hfuel
    exact ⟨fuel, c, hc, hfuel, rfl⟩
  | cons hr hs ih =>
    rename_i r rs b bs
    intro s c t fuel hc hfuel
    have hpos : 0 < b.length := by
      obtain ⟨f, hf, -⟩ := hrec r b hr
      exact List.length_pos_iff.mpr hf.ne_nil
    rw [List.append_assoc] at hc hfuel
    rw [List.length_append] at hfuel
    obtain ⟨fuel, rfl⟩ : ∃ m, fuel = m + 1 := ⟨fuel - 1, by omega⟩
    -- one turn for the record, the rest by induction
    obtain ⟨c₁, hc₁, hturn⟩ := turn_encodes hrec hr s hc fuel
    obtain ⟨fuel', c', hc', hfuel', hwalk⟩ := ih (eff s r) c₁ t fuel hc₁ (by omega)
    exact ⟨fuel', c', hc', hfuel', hturn.trans hwalk⟩

theorem decFields_append {ρ : Type} {Enc : ρ → Octets → Prop} {eff : σ → ρ → σ}
    (hrec : ∀ r b, Enc r b →
      ∃ f, EncodesField f b ∧ ∀ s, Acts onVarint onBytes f s (eff s r))
    {rs : List ρ} {b t : Octets} (h : Concat Enc rs b) (s : σ) {c : Pb frame}
    (hc : c.rest = b ++ t) : ∃ fuel c', c'.rest = t ∧ t.length ≤ fuel ∧
      decFields onVarint onBytes s c =
        walkFuel (decTurn onVarint onBytes) fuel (rs.foldl eff s) c' :=
  walkFuel_append hrec h s c t _ hc (by rw [← hc, c.rest_length])

/-- A loop on a cut field does nothing. -/
theorem walkFuel_cut {f : Field} {b p : Octets} (h : EncodesField f b) (hp : p <+: b)
    (hlt : p.length < b.length) {c : Pb frame} (hc : c.rest = p) (s : σ) (fuel : Nat) :
    walkFuel (decTurn onVarint onBytes) fuel s c = s := by
  cases fuel with
  | zero => rfl
  | succ fuel =>
    rw [walkFuel]
    have hstop : rdTag c = none ∨ ∃ F w c₁, rdTag c = some (F, w, c₁) ∧
        decTurn onVarint onBytes s F w c₁ = none := decTurn_cut h hp hlt hc s
    rcases hstop with hnone | ⟨F, w, c₁, htag, hturn⟩
    · rw [hnone]
    · rw [htag]
      dsimp only
      rw [hturn]

/-- **The loop on a cut message.** Records without effect, then a field: cut before the
end of that field, the message does nothing. -/
theorem decFields_cut {ρ : Type} {Enc : ρ → Octets → Prop}
    (hidle : ∀ r b, Enc r b → ∃ f, EncodesField f b ∧ ∀ s, Acts onVarint onBytes f s s)
    {rs : List ρ} {pre : Octets} (h : Concat Enc rs pre) {f : Field} {b p : Octets}
    (hf : EncodesField f b) (hp : p <+: pre ++ b) (hlt : p.length < (pre ++ b).length) (s : σ)
    {c : Pb frame} (hc : c.rest = p) : decFields onVarint onBytes s c = s := by
  unfold decFields walk
  -- over the records: the cut is in one of them, or in the field
  suffices key : ∀ (p : Octets) (c : Pb frame) (fuel : Nat), p <+: pre ++ b →
      p.length < (pre ++ b).length → c.rest = p → p.length ≤ fuel →
      walkFuel (decTurn onVarint onBytes) fuel s c = s from
    key p c _ hp hlt hc (by rw [← hc, c.rest_length])
  clear hp hlt hc p c
  induction h with
  | nil =>
    intro p c fuel hp hlt hc _
    exact walkFuel_cut hf hp hlt hc s fuel
  | cons hr hs ih =>
    rename_i r rs b₁ bs
    intro p c fuel hp hlt hc hfuel
    rw [List.append_assoc] at hp hlt
    obtain ⟨f₁, hf₁, -⟩ := hidle r b₁ hr
    rcases prefix_append_cases hp with ⟨hp, hlt'⟩ | ⟨q, rfl, hq⟩
    · exact walkFuel_cut hf₁ hp hlt' hc s fuel
    · have hpos : 0 < b₁.length := List.length_pos_iff.mpr hf₁.ne_nil
      rw [List.length_append] at hlt hfuel
      rw [List.length_append] at hlt
      obtain ⟨fuel, rfl⟩ : ∃ m, fuel = m + 1 := ⟨fuel - 1, by omega⟩
      obtain ⟨c₁, hc₁, hturn⟩ : ∃ c₁ : Pb frame, c₁.rest = q ∧
          walkFuel (decTurn onVarint onBytes) (fuel + 1) s c =
            walkFuel (decTurn onVarint onBytes) fuel s c₁ := turn_encodes hidle hr s hc fuel
      rw [hturn]
      exact ih q c₁ fuel hq (by omega) hc₁ (by omega)

/-- What every turn keeps the loop keeps, on any bytes. -/
theorem walkFuel_keeps {P : σ → Prop}
    (hvarint : ∀ f k s v, onVarint f = some k → P s → P (k s v))
    (hbytes : ∀ f k s d, onBytes f = some k → P s → P (k s d)) (fuel : Nat) :
    ∀ (s : σ) (c : Pb frame), P s → P (walkFuel (decTurn onVarint onBytes) fuel s c) := by
  induction fuel with
  | zero => exact fun s c hs => hs
  | succ fuel ih =>
    intro s c hs
    rw [walkFuel]
    split
    · exact hs
    · rename_i f w c₁ _
      split
      · exact hs
      · rename_i s' c' hturn
        -- a handler ran on the field, or it was skipped
        refine ih s' c' ?_
        unfold decTurn at hturn
        split at hturn
        · rename_i k hk
          obtain ⟨⟨v, c₂⟩, -, heq⟩ := Option.map_eq_some_iff.mp hturn
          obtain ⟨rfl, -⟩ := Prod.mk.inj heq
          exact hvarint f k s v (by simpa using And.right (by simpa using hk)) hs
        · rename_i k _ hk
          obtain ⟨⟨d, c₂⟩, -, heq⟩ := Option.map_eq_some_iff.mp hturn
          obtain ⟨rfl, -⟩ := Prod.mk.inj heq
          exact hbytes f k s d (by simpa using And.right (by simpa using hk)) hs
        · obtain ⟨c₂, -, heq⟩ := Option.map_eq_some_iff.mp hturn
          obtain ⟨rfl, -⟩ := Prod.mk.inj heq
          exact hs

end Loop

/-! ## `NavigationState` -/

/-- The first step of the message `b` is the field `step`, after the fields `pre`. -/
def FirstStep (b pre step : Octets) : Prop :=
  ∃ (us : List Field) (rs : List StepRec) (steps : List (List StepRec)) (post : Octets),
    Concat (fun f b => f.bytes? 1 = none ∧ EncodesField f b) us pre ∧
    Nested 1 EncodesStep rs step ∧
    Interleaved (Nested 1 EncodesStep) (fun f => f.bytes? 1 = none) steps post ∧
    b = pre ++ (step ++ post)

/-- A message with a step has a first one. -/
theorem exists_firstStep {m : NavigationState} {b : Octets} (h : EncodesNavigationState m b)
    (hsteps : m.steps ≠ []) : ∃ pre step, FirstStep b pre step := by
  obtain ⟨steps, ⟨recs, hrecs, rfl⟩, rfl⟩ := h
  induction hrecs with
  | nil => exact absurd rfl hsteps
  | cons hr hs ih =>
    rename_i r recs b bs
    cases r with
    | known rs => exact ⟨[], b, [], rs, _, bs, .nil, hr, ⟨recs, hs, rfl⟩, rfl⟩
    | unknown f =>
      obtain ⟨pre, step, us, rs, steps, post, hpre, hstep, hpost, rfl⟩ := ih hsteps
      exact ⟨b ++ pre, step, f :: us, rs, steps, post, .cons hr hpre, hstep, hpost,
        (List.append_assoc ..).symm⟩

/-- The same maneuver, exit, road and lanes; the number of steps may differ. -/
def AaGuidance.SameStep (g g' : AaGuidance) : Prop := { g with nSteps := 0 } = { g' with nSteps := 0 }

instance (g g' : AaGuidance) : Decidable (g.SameStep g') := inferInstanceAs (Decidable (_ = _))

/-- The handler of `hud_nav16_decode_navstate`. -/
def navstateBytes (f : UInt32) : Option (AaGuidance × Bool → Pb frame → AaGuidance × Bool) :=
  if f = 1 then some fun (out, gotStep) d =>
    let out := { out with nSteps := out.nSteps + 1 }
    if gotStep then (out, gotStep) else (decStep d out, true)
  else none

theorem hudNav16DecodeNavstate_eq (c : Pb frame) :
    hudNav16DecodeNavstate c = (decFields (fun _ => none) navstateBytes ({}, false) c).1 := rfl

/-- Fields other than the steps are skipped. -/
theorem navstate_unknown (f : Field) (b : Octets) (h : f.bytes? 1 = none ∧ EncodesField f b) :
    ∃ f', EncodesField f' b ∧
      ∀ s, Acts (fun _ => none) (@navstateBytes frame) f' s s := by
  obtain ⟨hf, henc⟩ := h
  have hnum : f.num < 2 ^ 29 := by
    obtain ⟨hnum, -, -⟩ := henc
    exact hnum
  refine ⟨f, henc, fun s => acts_unknown (fun d hpl s c => ?_) s⟩
  have := bytes?_eq_none hpl hf
  simp [navstateBytes, ofNat_num_eq_iff hnum, this]

theorem navstate_step (rs : List StepRec) (b : Octets) (h : Nested 1 EncodesStep rs b) :
    ∃ f, EncodesField f b ∧
      ∀ s, Acts (fun _ => none) (@navstateBytes frame) f s (navstateEff s rs) := by
  obtain ⟨body, hrs, hf⟩ := h
  refine ⟨_, hf, fun s c hc => ?_⟩
  rcases s with ⟨out, _ | _⟩
  · simp [navstateBytes, navstateEff, decStep_eff hrs _ hc]
  · simp [navstateBytes, navstateEff]

/-- **Cut before the end of its first step, a message says nothing.** -/
theorem navstate_cut {b pre step p : Octets} (h : FirstStep b pre step) (hp : p <+: pre ++ step)
    (hlt : p.length < (pre ++ step).length) {c : Pb frame} (hc : c.rest = p) :
    hudNav16DecodeNavstate c = {} := by
  obtain ⟨us, rs, steps, post, hpre, ⟨body, -, hstep⟩, -, -⟩ := h
  rw [hudNav16DecodeNavstate_eq, decFields_cut navstate_unknown hpre hstep hp hlt _ hc]

/-- Behind its first step a message changes the count only. -/
theorem navstate_rest (g : AaGuidance) (fuel : Nat) (c : Pb frame) :
    (walkFuel (decTurn (fun _ => none) navstateBytes) fuel (g, true) c).1.SameStep g := by
  refine (walkFuel_keeps (P := fun s => s.2 = true ∧ s.1.SameStep g) ?_ ?_ fuel (g, true) c
    ⟨rfl, rfl⟩).2
  · intro f k s v hk
    exact absurd hk (by simp)
  · rintro f k ⟨out, gotStep⟩ d hk ⟨hgot, hsame⟩
    have hgot : gotStep = true := hgot
    subst hgot
    unfold navstateBytes at hk
    split at hk
    · rw [← Option.some_inj.mp hk]
      exact ⟨rfl, hsame⟩
    · exact absurd hk (by simp)

/-- **Whole up to the end of its first step, a message shows it**, whatever follows. -/
theorem navstate_append {b pre step : Octets} (h : FirstStep b pre step) :
    ∃ g, ∀ (frame : List UInt8) (c : Pb frame) (t : Octets), c.rest = pre ++ (step ++ t) →
      (hudNav16DecodeNavstate c).SameStep g := by
  obtain ⟨us, rs, steps, post, hpre, hstep, -, -⟩ := h
  refine ⟨(navstateEff ({}, false) rs).1, fun frame c t hc => ?_⟩
  obtain ⟨fuel, c₁, hc₁, hfuel, hwalk⟩ : ∃ (fuel : Nat) (c₁ : Pb frame), c₁.rest = step ++ t ∧
      (step ++ t).length ≤ fuel ∧ decFields (fun _ => none) navstateBytes ({}, false) c =
        walkFuel (decTurn (fun _ => none) navstateBytes) fuel
          (us.foldl (fun s _ => s) ({}, false)) c₁ :=
    decFields_append navstate_unknown hpre ({}, false) hc
  -- the fields before the first step say nothing
  rw [List.foldl_fixed] at hwalk
  have hpos : 0 < step.length := by
    obtain ⟨body, -, hf⟩ := hstep
    exact List.length_pos_iff.mpr hf.ne_nil
  rw [List.length_append] at hfuel
  obtain ⟨fuel, rfl⟩ : ∃ m, fuel = m + 1 := ⟨fuel - 1, by omega⟩
  obtain ⟨c₂, -, hturn⟩ := turn_encodes navstate_step hstep ({}, false) hc₁ fuel
  rw [hudNav16DecodeNavstate_eq, hwalk, hturn]
  -- behind the first step the further ones are only counted
  exact navstate_rest _ fuel c₂

end OemAaMod
