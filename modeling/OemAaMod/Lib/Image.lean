import Mathlib.Tactic

/-!
# Memory images

The image of a struct is the images of its fields one after the other, each of a size
of its own. Equal images then have equal fields.

* `leBytes` — a number in little-endian order, `leBytes_inj`;
* `flatMap_inj` — the image of an array.
-/

namespace Image

/-- The low `n` bytes of a number, the lowest first. -/
def leBytes : Nat → Nat → List UInt8
  | 0, _ => []
  | n + 1, x => UInt8.ofNat x :: leBytes n (x / 256)

@[simp] theorem length_leBytes (n x : Nat) : (leBytes n x).length = n := by
  induction n generalizing x with
  | zero => rfl
  | succ n ih => rw [leBytes, List.length_cons, ih]

/-- Numbers that fit are told apart by their bytes. -/
theorem leBytes_inj {n x y : Nat} (hx : x < 256 ^ n) (hy : y < 256 ^ n)
    (h : leBytes n x = leBytes n y) : x = y := by
  induction n generalizing x y with
  | zero =>
    rw [Nat.pow_zero] at hx hy
    omega
  | succ n ih =>
    rw [Nat.pow_succ] at hx hy
    obtain ⟨hlow, hrest⟩ := List.cons.inj h
    have hlow := congrArg UInt8.toNat hlow
    rw [UInt8.toNat_ofNat', UInt8.toNat_ofNat'] at hlow
    have hhigh := ih (by omega) (by omega) hrest
    omega

variable {α β : Type*} {f : α → List β} {n : Nat}

/-- Elements of one size, told apart by their images. -/
theorem flatMap_inj (hn : 0 < n) (hlen : ∀ a, (f a).length = n) (hf : Function.Injective f) :
    ∀ {l l' : List α}, l.flatMap f = l'.flatMap f → l = l'
  | [], [], _ => rfl
  | [], b :: l', h => by
    have := congrArg List.length h
    simp [hlen] at this
    omega
  | a :: l, [], h => by
    have := congrArg List.length h
    simp [hlen] at this
    omega
  | a :: l, b :: l', h => by
    rw [List.flatMap_cons, List.flatMap_cons] at h
    obtain ⟨hhead, htail⟩ := List.append_inj h ((hlen a).trans (hlen b).symm)
    rw [hf hhead, flatMap_inj hn hlen hf htail]

end Image
