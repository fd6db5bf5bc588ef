import Mathlib.Data.List.Basic
import Mathlib.Tactic

/-!
# The protobuf wire format

What it means for bytes to *encode* a varint, a field, a list of fields. The
relations are deliberately wide: a varint may be padded to any of its forms of
at most ten bytes, fields stand in any order, and nothing is said about which
field numbers a reader knows. A reader that decodes every encoding admitted here
decodes whatever a conforming writer can produce.

* `EncodesVarint v bs` — `bs` is one of the base-128 forms of `v`;
* `EncodesField f bs` — a tag, then the payload its wire type announces;
* `Concat Enc rs bs` — `bs` is the concatenation of encodings of `rs`;
* `Nested n Enc r bs` — a length-delimited field `n` whose content encodes `r`;
* `Interleaved Enc Unknown ks bs` — the records `ks` with unknown fields between.

The writer side is here as well (`varint`, `Field.encode`): every value has an
encoding, so none of the relations is empty (`encodesVarint_varint`,
`encodesField_encode`).

Messages are read off a field list by *last value wins* (`lastOf`), which is how
the format merges repeated scalars and, by concatenation, repeated submessages.
-/

namespace Wire

abbrev Octets := List UInt8

/-! ## Varints -/

/-- The number a group of base-128 digits stands for, lowest digit first. -/
def digits : Octets → Nat
  | [] => 0
  | b :: bs => b.toNat % 128 + 128 * digits bs

/-- Every byte but the last carries the continuation bit. -/
def Terminated : Octets → Prop
  | [] => False
  | [b] => b.toNat < 128
  | b :: c :: bs => 128 ≤ b.toNat ∧ Terminated (c :: bs)

/-- `bs` is a varint form of `v`: at most ten bytes, terminated, with the value
of its digits modulo `2 ^ 64`. -/
structure EncodesVarint (v : UInt64) (bs : Octets) : Prop where
  short      : bs.length ≤ 10
  terminated : Terminated bs
  value      : UInt64.ofNat (digits bs) = v

theorem terminated_ne_nil {bs : Octets} (h : Terminated bs) : bs ≠ [] := by
  rintro rfl
  exact h

/-- The shortest form of `n` in at most `fuel + 1` bytes. -/
def varintAux : Nat → Nat → Octets
  | 0, n => [UInt8.ofNat (n % 128)]
  | fuel + 1, n =>
    if n < 128 then [UInt8.ofNat n]
    else UInt8.ofNat (n % 128 + 128) :: varintAux fuel (n / 128)

/-- The canonical varint of `v`. -/
def varint (v : UInt64) : Octets := varintAux 9 v.toNat

theorem varintAux_length (fuel n : Nat) : (varintAux fuel n).length ≤ fuel + 1 := by
  induction fuel generalizing n with
  | zero => simp [varintAux]
  | succ fuel ih =>
    rw [varintAux]
    split
    · simp
    · simpa using ih (n / 128)

theorem varintAux_terminated (fuel n : Nat) : Terminated (varintAux fuel n) := by
  induction fuel generalizing n with
  | zero =>
    rw [varintAux, Terminated, UInt8.toNat_ofNat']
    omega
  | succ fuel ih =>
    rw [varintAux]
    split
    · rw [Terminated, UInt8.toNat_ofNat']
      omega
    · have ht := ih (n / 128)
      cases hv : varintAux fuel (n / 128) with
      | nil => exact absurd hv (terminated_ne_nil ht)
      | cons c bs =>
        rw [Terminated, UInt8.toNat_ofNat']
        exact ⟨by omega, hv ▸ ht⟩

theorem varintAux_digits (fuel n : Nat) (h : n < 128 ^ (fuel + 1)) :
    digits (varintAux fuel n) = n := by
  induction fuel generalizing n with
  | zero =>
    rw [varintAux, digits, digits, UInt8.toNat_ofNat']
    omega
  | succ fuel ih =>
    rw [varintAux]
    split
    · rw [digits, digits, UInt8.toNat_ofNat']
      omega
    · have hlt : n / 128 < 128 ^ (fuel + 1) := by
        rw [Nat.div_lt_iff_lt_mul (by decide), ← Nat.pow_succ]
        exact h
      rw [digits, ih _ hlt, UInt8.toNat_ofNat']
      omega

/-- The canonical form is one of the forms. -/
theorem encodesVarint_varint (v : UInt64) : EncodesVarint v (varint v) where
  short := varintAux_length 9 v.toNat
  terminated := varintAux_terminated 9 v.toNat
  value := by
    have hv := v.toNat_lt
    rw [varint, varintAux_digits 9 _ (by omega), UInt64.ofNat_toNat]

/-! ## Fields -/

/-- What follows a tag, by wire type. Groups (3 and 4) are not part of the
format the relations describe. -/
inductive Payload
  | varint (v : UInt64)
  | fixed64 (b : Octets)
  | bytes (b : Octets)
  | fixed32 (b : Octets)
deriving DecidableEq

/-- The wire type announced in the tag. -/
def Payload.wire : Payload → Nat
  | varint _ => 0
  | fixed64 _ => 1
  | bytes _ => 2
  | fixed32 _ => 5

structure Field where
  num     : Nat
  payload : Payload
deriving DecidableEq

inductive EncodesPayload : Payload → Octets → Prop
  | varint {v : UInt64} {b : Octets} (h : EncodesVarint v b) : EncodesPayload (.varint v) b
  | fixed64 {b : Octets} (h : b.length = 8) : EncodesPayload (.fixed64 b) b
  | bytes {d n : Octets} (hlen : d.length < 2 ^ 64)
      (h : EncodesVarint (UInt64.ofNat d.length) n) : EncodesPayload (.bytes d) (n ++ d)
  | fixed32 {b : Octets} (h : b.length = 4) : EncodesPayload (.fixed32 b) b

/-- The tag value of a field. -/
def Field.tag (f : Field) : UInt64 := UInt64.ofNat (f.num * 8 + f.payload.wire)

/-- `b` is an encoding of the field `f`, whose number fits the format. -/
inductive EncodesField : Field → Octets → Prop
  | intro {f : Field} {tag body : Octets} (hnum : f.num < 2 ^ 29)
      (htag : EncodesVarint f.tag tag) (hbody : EncodesPayload f.payload body) :
      EncodesField f (tag ++ body)

theorem EncodesField.ne_nil {f : Field} {b : Octets} (h : EncodesField f b) : b ≠ [] := by
  obtain ⟨-, htag, -⟩ := h
  simp [terminated_ne_nil htag.terminated]

/-- `b` is the concatenation of encodings of the records `rs`. -/
inductive Concat {ρ : Type*} (Enc : ρ → Octets → Prop) : List ρ → Octets → Prop
  | nil : Concat Enc [] []
  | cons {r : ρ} {rs : List ρ} {b bs : Octets} (h : Enc r b) (hs : Concat Enc rs bs) :
      Concat Enc (r :: rs) (b ++ bs)

/-- `b` is the length-delimited field `n` around an encoding of `r`. -/
def Nested {ρ : Type*} (n : Nat) (Enc : ρ → Octets → Prop) (r : ρ) (b : Octets) : Prop :=
  ∃ body, Enc r body ∧ EncodesField ⟨n, .bytes body⟩ b

/-! ## Records among unknown fields -/

/-- A record of a message: one the reader knows, or any other field. -/
inductive Record (κ : Type*)
  | known (k : κ)
  | unknown (f : Field)

def Record.known? {κ : Type*} : Record κ → Option κ
  | known k => some k
  | unknown _ => none

def EncodesRecord {κ : Type*} (Enc : κ → Octets → Prop) (Unknown : Field → Prop) :
    Record κ → Octets → Prop
  | .known k, b => Enc k b
  | .unknown f, b => Unknown f ∧ EncodesField f b

/-- `b` encodes the records `ks` in this order, with unknown fields anywhere
between them. -/
def Interleaved {κ : Type*} (Enc : κ → Octets → Prop) (Unknown : Field → Prop) (ks : List κ)
    (b : Octets) : Prop :=
  ∃ rs, Concat (EncodesRecord Enc Unknown) rs b ∧ rs.filterMap Record.known? = ks

/-- Without unknown fields a plain concatenation is an encoding. -/
theorem interleaved_of_concat {κ : Type*} {Enc : κ → Octets → Prop} {Unknown : Field → Prop}
    {ks : List κ} {b : Octets} (h : Concat Enc ks b) : Interleaved Enc Unknown ks b := by
  induction h with
  | nil => exact ⟨[], .nil, rfl⟩
  | @cons k ks b bs hk _ ih =>
    obtain ⟨rs, hrs, hks⟩ := ih
    exact ⟨.known k :: rs, .cons hk hrs, by simp [Record.known?, hks]⟩

/-! ## The canonical writer -/

def Payload.encode : Payload → Octets
  | .varint v => Wire.varint v
  | .fixed64 b => b
  | .bytes d => Wire.varint (UInt64.ofNat d.length) ++ d
  | .fixed32 b => b

def Field.encode (f : Field) : Octets := Wire.varint f.tag ++ f.payload.encode

/-- The sizes a payload must have to be written at all. -/
def Payload.Fits : Payload → Prop
  | .varint _ => True
  | .fixed64 b => b.length = 8
  | .bytes d => d.length < 2 ^ 64
  | .fixed32 b => b.length = 4

theorem encodesPayload_encode {p : Payload} (h : p.Fits) : EncodesPayload p p.encode := by
  cases p with
  | varint v => exact .varint (encodesVarint_varint v)
  | fixed64 b => exact .fixed64 h
  | bytes d => exact .bytes h (encodesVarint_varint _)
  | fixed32 b => exact .fixed32 h

theorem encodesField_encode {f : Field} (hnum : f.num < 2 ^ 29) (h : f.payload.Fits) :
    EncodesField f f.encode :=
  .intro hnum (encodesVarint_varint _) (encodesPayload_encode h)

theorem nested_encode {ρ : Type*} {n : Nat} {Enc : ρ → Octets → Prop} {r : ρ} {body : Octets}
    (hr : Enc r body) (hn : n < 2 ^ 29) (hlen : body.length < 2 ^ 64) :
    Nested n Enc r (Field.encode ⟨n, .bytes body⟩) :=
  ⟨body, hr, encodesField_encode hn hlen⟩

theorem concat_flatMap {ρ : Type*} {Enc : ρ → Octets → Prop} {enc : ρ → Octets} {rs : List ρ}
    (h : ∀ r ∈ rs, Enc r (enc r)) : Concat Enc rs (rs.flatMap enc) := by
  induction rs with
  | nil => exact .nil
  | cons r rs ih =>
    rw [List.flatMap_cons]
    exact .cons (h r (List.mem_cons_self ..)) (ih fun x hx => h x (List.mem_cons_of_mem _ hx))

/-! ## Reading a message off its fields -/

/-- The last value `p` finds in `l`: a repeated scalar keeps its last value. -/
def lastOf {α β : Type*} (p : α → Option β) (l : List α) : Option β := (l.filterMap p).getLast?

theorem lastOf_cons_getD {α β : Type*} (p : α → Option β) (a : α) (l : List α) (d : β) :
    (lastOf p (a :: l)).getD d = (lastOf p l).getD ((p a).getD d) := by
  cases hp : p a with
  | none => rw [lastOf, List.filterMap_cons_none hp, ← lastOf, Option.getD_none]
  | some v =>
    rw [lastOf, List.filterMap_cons_some hp, List.getLast?_cons, ← lastOf]
    rfl

/-- Overwriting a slot at every hit leaves the last hit in it. -/
theorem foldl_lastOf {α β : Type*} (p : α → Option β) (l : List α) (d : β) :
    l.foldl (fun acc a => (p a).getD acc) d = (lastOf p l).getD d := by
  induction l generalizing d with
  | nil => rfl
  | cons a l ih => rw [List.foldl_cons, ih, lastOf_cons_getD]

/-- A component that every turn of a loop overwrites at a hit, and otherwise
leaves alone, ends up with the last hit. -/
theorem foldl_slot {σ α β : Type*} (proj : σ → β) (p : α → Option β) {step : σ → α → σ}
    (hstep : ∀ s a, proj (step s a) = (p a).getD (proj s)) (l : List α) (s : σ) :
    proj (l.foldl step s) = (lastOf p l).getD (proj s) := by
  induction l generalizing s with
  | nil => rfl
  | cons a l ih => rw [List.foldl_cons, ih, hstep, lastOf_cons_getD]

/-- Looking at each hit through `g` is looking at the last hit through `g`. -/
theorem lastOf_map {α β γ : Type*} (p : α → Option β) (g : β → γ) (l : List α) :
    lastOf (fun a => (p a).map g) l = (lastOf p l).map g := by
  rw [lastOf, lastOf, ← List.getLast?_map, List.map_filterMap]

/-- The varint of field `n`, when this is one. -/
def Field.varint? (n : Nat) (f : Field) : Option UInt64 :=
  match f.payload with
  | .varint v => if f.num = n then some v else none
  | _ => none

/-- The bytes of the length-delimited field `n`, when this is one. -/
def Field.bytes? (n : Nat) (f : Field) : Option Octets :=
  match f.payload with
  | .bytes b => if f.num = n then some b else none
  | _ => none

end Wire
