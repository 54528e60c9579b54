import Mathlib.Data.List.Basic
import Mathlib.Data.Nat.ModEq
import Mathlib.Tactic.Ring

/-!
# Byte order

Fixed-width byte images of natural numbers, most significant byte first (`beBytes`, the network
order) and least significant byte first (`leBytes`, the memory image on a little-endian host), with
the two readers `beNat` and `leNat`.

The round trips are stated with the truncation they really have: `beNat (beBytes w v)` is `v`
reduced modulo `256 ^ w`, and equals `v` only below that bound. Nothing here knows which integers a
program sends.
-/

namespace ByteOrder

/-! ### Big-endian -/

/-- The `w` low bytes of `v`, most significant first. -/
def beBytes : ℕ → ℕ → List UInt8
  | 0, _ => []
  | w + 1, v => UInt8.ofNat (v / 256 ^ w) :: beBytes w v

/-- The number a byte string denotes, most significant byte first. -/
def beNat (l : List UInt8) : ℕ :=
  l.foldl (fun acc b ↦ acc * 256 + b.toNat) 0

@[simp] theorem length_beBytes (w v : ℕ) : (beBytes w v).length = w := by
  induction w with
  | zero => rfl
  | succ w ih => rw [beBytes, List.length_cons, ih]

private theorem foldl_be (l : List UInt8) (a : ℕ) :
    l.foldl (fun acc b ↦ acc * 256 + b.toNat) a = a * 256 ^ l.length + beNat l := by
  induction l generalizing a with
  | nil => simp [beNat]
  | cons b l ih =>
    rw [beNat, List.foldl_cons, List.foldl_cons, ih, ih (0 * 256 + b.toNat), List.length_cons,
      pow_succ]
    ring

@[simp] theorem beNat_nil : beNat [] = 0 := rfl

theorem beNat_cons (b : UInt8) (l : List UInt8) :
    beNat (b :: l) = b.toNat * 256 ^ l.length + beNat l := by
  rw [beNat, List.foldl_cons, foldl_be, Nat.zero_mul, Nat.zero_add]

/-- A byte string denotes a number below `256` to its length. -/
theorem beNat_lt (l : List UInt8) : beNat l < 256 ^ l.length := by
  induction l with
  | nil => simp
  | cons b l ih =>
    have hb : b.toNat + 1 ≤ 256 := UInt8.toNat_lt b
    calc beNat (b :: l) = b.toNat * 256 ^ l.length + beNat l := beNat_cons b l
      _ < b.toNat * 256 ^ l.length + 256 ^ l.length := by omega
      _ = (b.toNat + 1) * 256 ^ l.length := by ring
      _ ≤ 256 * 256 ^ l.length := Nat.mul_le_mul_right _ hb
      _ = 256 ^ (b :: l).length := by rw [List.length_cons, pow_succ]; ring

/-- **Round trip with its truncation**: reading back `w` bytes of `v` gives `v` modulo
`256 ^ w`. -/
theorem beNat_beBytes_mod (w v : ℕ) : beNat (beBytes w v) = v % 256 ^ w := by
  induction w with
  | zero => simp [beBytes, Nat.mod_one]
  | succ w ih =>
    rw [Nat.mod_pow_succ, beBytes, beNat_cons, ih, length_beBytes, UInt8.toNat_ofNat',
      Nat.mul_comm, Nat.add_comm]

/-- **Round trip** below the width's bound. -/
theorem beNat_beBytes {w v : ℕ} (h : v < 256 ^ w) : beNat (beBytes w v) = v := by
  rw [beNat_beBytes_mod, Nat.mod_eq_of_lt h]

/-- Only the residue modulo `256 ^ w` is written. -/
theorem beBytes_congr {w v v' : ℕ} (h : v % 256 ^ w = v' % 256 ^ w) :
    beBytes w v = beBytes w v' := by
  induction w with
  | zero => rfl
  | succ w ih =>
    have hdvd : 256 ^ w ∣ 256 ^ (w + 1) := pow_dvd_pow _ (Nat.le_succ w)
    have hlow : v % 256 ^ w = v' % 256 ^ w := by
      rw [← Nat.mod_mod_of_dvd v hdvd, h, Nat.mod_mod_of_dvd v' hdvd]
    have hhigh : v / 256 ^ w % 256 = v' / 256 ^ w % 256 := by
      rw [Nat.mod_pow_succ, Nat.mod_pow_succ, hlow] at h
      have hpos : 0 < 256 ^ w := Nat.pow_pos (by decide)
      exact Nat.eq_of_mul_eq_mul_left hpos (by omega)
    rw [beBytes, beBytes, ih hlow]
    refine congrArg (· :: _) (UInt8.toNat_inj.1 ?_)
    rw [UInt8.toNat_ofNat', UInt8.toNat_ofNat']
    exact hhigh

/-- **Round trip on bytes**: a string of length `w` is the image of the number it denotes. -/
theorem beBytes_beNat (l : List UInt8) : beBytes l.length (beNat l) = l := by
  induction l with
  | nil => rfl
  | cons b l ih =>
    have hlt := beNat_lt l
    have hpos : 0 < 256 ^ l.length := Nat.pow_pos (by decide)
    have hdiv : beNat (b :: l) / 256 ^ l.length = b.toNat := by
      rw [beNat_cons, Nat.add_comm, Nat.add_mul_div_right _ _ hpos, Nat.div_eq_of_lt hlt,
        Nat.zero_add]
    have hlow : beBytes l.length (beNat (b :: l)) = beBytes l.length (beNat l) :=
      beBytes_congr (by rw [beNat_cons, Nat.add_comm, Nat.add_mul_mod_self_right])
    rw [List.length_cons, beBytes, hdiv, hlow, ih, UInt8.ofNat_toNat]

/-- A wide image is the high image followed by the low image. -/
theorem beBytes_add (u w v : ℕ) : beBytes (u + w) v = beBytes u (v / 256 ^ w) ++ beBytes w v := by
  induction u with
  | zero => simp [beBytes]
  | succ u ih =>
    rw [Nat.add_right_comm, beBytes, beBytes, ih, List.cons_append, Nat.div_div_eq_div_mul,
      ← pow_add, Nat.add_comm w u]

/-! ### Little-endian -/

/-- The `w` low bytes of `v`, least significant first. -/
def leBytes (w v : ℕ) : List UInt8 := (beBytes w v).reverse

/-- The number a byte string denotes, least significant byte first. -/
def leNat (l : List UInt8) : ℕ := beNat l.reverse

@[simp] theorem length_leBytes (w v : ℕ) : (leBytes w v).length = w := by
  rw [leBytes, List.length_reverse, length_beBytes]

theorem leNat_lt (l : List UInt8) : leNat l < 256 ^ l.length := by
  simpa [leNat] using beNat_lt l.reverse

/-- The image of a number read from `w` bytes is those bytes. -/
theorem leBytes_leNat (l : List UInt8) : leBytes l.length (leNat l) = l := by
  have h := beBytes_beNat l.reverse
  rw [List.length_reverse] at h
  rw [leBytes, leNat, h, List.reverse_reverse]

/-- A two-part image: the low `w` bytes come first. -/
theorem leBytes_add (u w v : ℕ) : leBytes (u + w) v = leBytes w v ++ leBytes u (v / 256 ^ w) := by
  rw [leBytes, beBytes_add, List.reverse_append, leBytes, leBytes]

theorem leBytes_congr {w v v' : ℕ} (h : v % 256 ^ w = v' % 256 ^ w) :
    leBytes w v = leBytes w v' := by
  rw [leBytes, leBytes, beBytes_congr h]

end ByteOrder
