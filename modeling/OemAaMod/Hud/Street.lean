import OemAaMod.Hud.Accumulator
import OemAaMod.Hud.Callback
import OemAaMod.Nav16.RoundTrip

/-!
# The street string on the service bus

A road name is cut to 63 bytes on its way to `emit_guidance`, and a
`DBUS_TYPE_STRING` has to be valid UTF-8. On the 1.6 path the decoder cuts before
the fold; on the 1.5 path the transport cuts after it.

* `NameFits` — 63 bytes hold the name, or end between two of its characters;
* `street_cut_mid_character` — a name that is valid and a street that is not;
* `street_valid_iff` — on either path and with the fold on or off the street is
  valid exactly for the names that fit, counted folded where the fold comes first.
-/

namespace OemAaMod

open CStr (Bytes CharBuf cstr)

/-- The street of a `GuidanceChangedForHUD`. -/
def HudMsg.street? : HudMsg → Option Bytes
  | guidance _ _ _ street .. => some street
  | _ => none

/-- The streets svcnavi sends from the snapshot after a producer call. -/
def svcnaviStreets (t : Tx) (c : TxCall) : List Bytes :=
  (svcnaviSendOne (t.call c).snapshot).filterMap HudMsg.street?

/-- What C sees of a name. -/
def readName (cs : List Char) : List Char := cs.takeWhile (· ≠ '\x00')

/-- A 64-byte buffer holds the name, or cuts it between two characters. -/
def NameFits (cs : List Char) : Prop := Utf8.width cs ≤ 63 ∨ Utf8.Boundary cs 63

/-! ## The cuts -/

theorem valid_cut_iff (cs : List Char) :
    Utf8.Valid ((Utf8.enc cs).take 63) ↔ NameFits cs :=
  Utf8.valid_take_iff cs 63

/-- The fold neither mends nor breaks a cut name. -/
theorem valid_foldSpec_take (cs : List Char) (n : Nat) :
    Utf8.Valid (HudTranslit.foldSpec 0 ((Utf8.enc cs).take n)) ↔ Utf8.Valid ((Utf8.enc cs).take n) := by
  obtain ⟨pre, p, -, hp, htake⟩ := Utf8.take_enc cs n
  rw [htake, HudTranslit.foldSpec_enc_append (by decide), HudTranslit.foldSpec_cutChar 0 hp,
    Utf8.valid_enc_append, Utf8.valid_enc_append]

/-- The 255 bytes copied before the fold are more than the 63 kept after it: a
folded character has at least a third of its bytes. -/
theorem take_foldSpec_take (cs : List Char) :
    (HudTranslit.foldSpec 0 ((Utf8.enc cs).take 255)).take 63 =
      (Utf8.enc (cs.map (HudTranslit.foldChar 0))).take 63 := by
  by_cases hshort : Utf8.width cs ≤ 255
  · -- nothing is cut before the folding
    have hall : (Utf8.enc cs).take 255 = Utf8.enc cs := by
      rw [List.take_of_length_le]
      rw [Utf8.length_enc]
      exact hshort
    rw [hall, HudTranslit.foldSpec_enc (by decide)]
  · -- cut at 255 bytes: whole characters `pre` and part `p` of the next one. `pre` has at
    -- least 252 bytes, and still 63 when folded, so the cut at 63 does not see `p`
    obtain ⟨pre, p, ⟨post, hpost⟩, hp, htake⟩ := Utf8.take_enc cs 255
    have hlen := congrArg List.length htake
    have hcut := hp.length_le
    rw [List.length_take, Utf8.length_enc, List.length_append, Utf8.length_enc] at hlen
    have hwidth := HudTranslit.width_map_foldChar pre
    have hlong : 63 ≤ (Utf8.enc (pre.map (HudTranslit.foldChar 0))).length := by
      rw [Utf8.length_enc]
      omega
    rw [htake, HudTranslit.foldSpec_enc_append (by decide), List.take_append_of_le_length hlong,
      ← hpost, List.map_append, Utf8.enc, Utf8.enc, List.flatMap_append]
    exact (List.take_append_of_le_length hlong).symm

/-! ## The two paths -/

/-- The transport's own cut. -/
theorem svcnaviStreets_nextTurn {t : Tx} (hlive : t.active = true) (road : Bytes) (icon : UInt32) :
    svcnaviStreets t (.nextTurn (some road) icon) = [(cstr road).take 63] := by
  have hview := Tx.call_view t (.nextTurn (some road) icon) hlive
  have hroad : (t.call (.nextTurn (some road) icon)).snapshot.roadName.str = (cstr road).take 63 :=
    congrArg View.road hview
  show [(t.call (.nextTurn (some road) icon)).snapshot.roadName.str] = _
  rw [hroad]

theorem foldBuf_ofStrncpy_str {cap : Nat} (hcap : 0 < cap) (src : Bytes) :
    (HudTranslit.foldBuf 0 (.ofStrncpy cap src) : CharBuf cap).str =
      HudTranslit.foldSpec 0 ((cstr src).take (cap - 1)) := by
  obtain ⟨k, hk⟩ := CharBuf.ofStrncpy_bytes hcap src
  have hstr := CharBuf.ofStrncpy_str hcap src
  have hbytes : (CharBuf.ofStrncpy cap src).bytes =
      (CharBuf.ofStrncpy cap src).str ++ 0 :: List.replicate k 0 := by rw [hstr, hk]
  rw [HudTranslit.foldBuf_str 0 hbytes, hstr]

/-- A name in a buffer that holds it, read back. -/
theorem Holds.cstr_eq {cap : Nat} {buf : CharBuf cap} {s : Bytes} (h : Holds buf s) :
    cstr buf.bytes = (cstr s).take (cap - 1) := by
  obtain ⟨rest, hrest⟩ := h
  rw [← hrest, List.append_assoc, List.singleton_append, CStr.cstr_append_zero', CStr.cstr_take]

/-- **1.6**: the decoder's cut comes first, and the fold and both later copies
keep within it. -/
theorem svcnaviStreets_guidance {t : Tx} (hlive : t.active = true) (hudFoldLatin : Bool)
    (acc : AaNav16HudState) {g : AaGuidance} {cs : List Char} (hroad : Holds g.road (Utf8.enc cs)) :
    svcnaviStreets t (nextTurnCall (nav16OnGuidance hudFoldLatin acc g)) =
      [if hudFoldLatin then HudTranslit.foldSpec 0 ((Utf8.enc (readName cs)).take 63)
        else (Utf8.enc (readName cs)).take 63] := by
  have hcut : (cstr g.road.bytes).take 63 = (Utf8.enc (readName cs)).take 63 := by
    rw [hroad.cstr_eq, Utf8.cstr_enc]
    exact List.take_take.trans (by rw [Nat.min_self]; rfl)
  -- the callback cuts first and folds what is left
  have hlocal : (guidanceRoad hudFoldLatin g).str =
      if hudFoldLatin then HudTranslit.foldSpec 0 ((Utf8.enc (readName cs)).take 63)
      else (Utf8.enc (readName cs)).take 63 := by
    unfold guidanceRoad
    cases hudFoldLatin with
    | true =>
      simp only [if_true]
      rw [foldBuf_ofStrncpy_str (by decide), hcut]
    | false =>
      simp only [Bool.false_eq_true, if_false]
      rw [CharBuf.ofStrncpy_str (by decide), hcut]
  have hlen : (guidanceRoad hudFoldLatin g).str.length ≤ 63 := by
    rw [hlocal]
    split
    · exact (HudTranslit.length_foldSpec 0 _).trans (List.length_take_le 63 _)
    · exact List.length_take_le 63 _
  -- which fits the accumulator and the snapshot as it is
  have hacc : (nav16OnGuidance hudFoldLatin acc g).road.str = (guidanceRoad hudFoldLatin g).str := by
    show (CharBuf.ofStrncpy 64 (guidanceRoad hudFoldLatin g).bytes).str = _
    rw [CharBuf.ofStrncpy_str (by decide)]
    exact List.take_of_length_le hlen
  have hsent := svcnaviStreets_nextTurn hlive (nav16OnGuidance hudFoldLatin acc g).road.bytes
    (nav16OnGuidance hudFoldLatin acc g).glyph
  have hkept : (cstr (nav16OnGuidance hudFoldLatin acc g).road.bytes).take 63 =
      (guidanceRoad hudFoldLatin g).str := by
    show (nav16OnGuidance hudFoldLatin acc g).road.str.take 63 = _
    rw [hacc, List.take_of_length_le hlen]
  rw [← hlocal, ← hkept]
  exact hsent

/-- **1.5**: only the transport's cut matters, on the folded name. -/
theorem svcnaviStreets_hudTxNextTurn {t : Tx} (hlive : t.active = true) (hudFoldLatin : Bool)
    (cs : List Char) (rest : Bytes) (side event : UInt32) (angle : Int32) :
    svcnaviStreets t (hudTxNextTurn hudFoldLatin (some (Utf8.enc cs ++ 0 :: rest)) side event angle) =
      [(Utf8.enc (if hudFoldLatin then (readName cs).map (HudTranslit.foldChar 0)
        else readName cs)).take 63] := by
  have hread : cstr (Utf8.enc cs ++ 0 :: rest) = Utf8.enc (readName cs) := by
    rw [CStr.cstr_append_zero', Utf8.cstr_enc]
    rfl
  unfold hudTxNextTurn
  cases hudFoldLatin with
  | true =>
    simp only [if_true]
    -- 1.5 folds the whole name, and the snapshot cuts
    rw [svcnaviStreets_nextTurn hlive]
    show [(HudTranslit.foldBuf 0 (.ofStrncpy 256 _) : CharBuf 256).str.take 63] = _
    rw [foldBuf_ofStrncpy_str (by decide), hread, take_foldSpec_take]
  | false =>
    simp only [Bool.false_eq_true, if_false]
    rw [svcnaviStreets_nextTurn hlive, hread]

/-- Sixty-two letters and one more of two bytes. -/
def longName : List Char := List.replicate 62 'A' ++ ['é']

theorem longName_cut : ¬Utf8.Valid ((Utf8.enc longName).take 63) := by decide +kernel

/-- A frame with one step, on the road `longName`. -/
theorem encodes_longName :
    ∃ b, EncodesNavigationState ⟨[{ road := some (Utf8.enc longName) }]⟩ b := by
  have hname : EncodesFields [⟨1, .bytes (Utf8.enc longName)⟩]
      (([⟨1, .bytes (Utf8.enc longName)⟩] : List Wire.Field).flatMap Wire.Field.encode) :=
    Wire.concat_flatMap fun f hf => by
      rw [List.mem_singleton] at hf
      subst hf
      have hfits : (Utf8.enc longName).length < 2 ^ 64 := by decide +kernel
      exact Wire.encodesField_encode (by decide) hfits
  have hstep : EncodesStep [.road _] _ := Wire.interleaved_of_concat
    (.cons (Wire.nested_encode hname (by decide) (by decide +kernel)) .nil)
  exact ⟨_, _, Wire.interleaved_of_concat
    (.cons (Wire.nested_encode hstep (by decide) (by decide +kernel)) .nil), rfl⟩

/-- **A valid name, a street that is not**, on both paths. -/
theorem street_cut_mid_character :
    (¬∀ hudFoldLatin t cs m b g p acc g', t.active = true → EncodesNavigationState m b →
      (m.steps.headD {}).road = some (Utf8.enc cs) →
      hudNav16OnFrame (0x80 :: 0x06 :: b) (some g) p = (AA_NAV16_MSG_NAV_STATE, some g', p) →
      ∀ street ∈ svcnaviStreets t (nextTurnCall (nav16OnGuidance hudFoldLatin acc g')),
        Utf8.Valid street) ∧
    (¬∀ hudFoldLatin t cs rest side event angle number, t.active = true →
      ∀ c ∈ ourNavCb hudFoldLatin false
        (.nextTurn (some (Utf8.enc cs ++ 0 :: rest)) side event angle number),
      ∀ street ∈ svcnaviStreets t c, Utf8.Valid street) := by
  have hread : readName longName = longName := by decide
  constructor
  · intro h
    obtain ⟨b, henc⟩ := encodes_longName
    obtain ⟨g', hframe, hshows⟩ := onFrame_navigationState henc {} none
    have hroad : Holds g'.road (Utf8.enc longName) := hshows.first.road
    -- 1.6, in a NavigationState
    have hstreets := svcnaviStreets_guidance (t := { active := true }) rfl false {} hroad
    refine longName_cut (h false { active := true } longName _ b {} none {} g' rfl henc rfl hframe _ ?_)
    rw [hstreets, hread]
    exact List.mem_singleton.mpr rfl
  · intro h
    -- 1.5, in a next_turn
    have hstreets := svcnaviStreets_hudTxNextTurn (t := { active := true }) rfl false longName [] 2
      (decodeTurnEvent 4) 0
    refine longName_cut (h false { active := true } longName [] 2 4 0 0 rfl _ rfl _ ?_)
    rw [hstreets]
    simp only [Bool.false_eq_true, if_false, hread]
    exact List.mem_singleton.mpr rfl

/-- **When the street is valid UTF-8.** The valid names are the encodings; of a
name with a NUL in it C reads what comes before. On the 1.6 path, and on the 1.5
path with the fold off, the name itself has to fit; on the 1.5 path with the fold
on, the folded name. -/
theorem street_valid_iff (hudFoldLatin : Bool) (t : Tx) (hlive : t.active = true)
    (cs : List Char) :
    (∀ m b, EncodesNavigationState m b → (m.steps.headD {}).road = some (Utf8.enc cs) →
      ∀ g p acc, ∃ g', hudNav16OnFrame (0x80 :: 0x06 :: b) (some g) p =
          (AA_NAV16_MSG_NAV_STATE, some g', p) ∧
        ((∀ street ∈ svcnaviStreets t (nextTurnCall (nav16OnGuidance hudFoldLatin acc g')),
          Utf8.Valid street) ↔ NameFits (readName cs))) ∧
    (∀ rest side event angle number,
      (∀ c ∈ ourNavCb hudFoldLatin false
          (.nextTurn (some (Utf8.enc cs ++ 0 :: rest)) side event angle number),
        ∀ street ∈ svcnaviStreets t c, Utf8.Valid street) ↔
      NameFits (if hudFoldLatin then (readName cs).map (HudTranslit.foldChar 0)
        else readName cs)) := by
  constructor
  · intro m b henc hroad g p acc
    obtain ⟨g', hframe, hshows⟩ := onFrame_navigationState henc g p
    refine ⟨g', hframe, ?_⟩
    have hholds : Holds g'.road (Utf8.enc cs) := by
      have h := hshows.first.road
      rwa [hroad] at h
    rw [svcnaviStreets_guidance hlive hudFoldLatin acc hholds, List.forall_mem_singleton]
    cases hudFoldLatin with
    | true =>
      simp only [if_true]
      rw [valid_foldSpec_take, valid_cut_iff]
    | false =>
      simp only [Bool.false_eq_true, if_false]
      exact valid_cut_iff _
  · intro rest side event angle number
    have hcall : ourNavCb hudFoldLatin false
        (.nextTurn (some (Utf8.enc cs ++ 0 :: rest)) side event angle number) =
        some (hudTxNextTurn hudFoldLatin (some (Utf8.enc cs ++ 0 :: rest)) side
          (decodeTurnEvent event) angle) := rfl
    simp only [hcall, Option.mem_some_iff, forall_eq']
    rw [svcnaviStreets_hudTxNextTurn hlive, List.forall_mem_singleton]
    exact valid_cut_iff _

/-- `longName` in a frame does not fit; a short Vietnamese name from the 1.5
callback does, folded. -/
theorem street_valid_iff_examples :
    (∃ b g', hudNav16OnFrame (0x80 :: 0x06 :: b) (some {}) none =
        (AA_NAV16_MSG_NAV_STATE, some g', none) ∧
      ¬∀ street ∈ svcnaviStreets { active := true } (nextTurnCall (nav16OnGuidance true {} g')),
        Utf8.Valid street) ∧
    (∀ c ∈ ourNavCb true false
        (.nextTurn (some (Utf8.enc ['P', 'h', 'ố'] ++ [0])) 2 4 0 0),
      ∀ street ∈ svcnaviStreets { active := true } c, Utf8.Valid street) := by
  constructor
  · obtain ⟨b, henc⟩ := encodes_longName
    obtain ⟨g', hframe, hiff⟩ :=
      (street_valid_iff true { active := true } rfl longName).1 _ b henc rfl {} none {}
    refine ⟨b, g', hframe, fun hvalid => ?_⟩
    have hfits : NameFits longName := hiff.mp hvalid
    exact longName_cut ((valid_cut_iff longName).mpr hfits)
  · exact ((street_valid_iff true { active := true } rfl ['P', 'h', 'ố']).2 [] 2 4 0 0).mpr
      (.inl (by decide +kernel))

end OemAaMod
