import MyTeams.Lib.ByteReader
import MyTeams.Message

/-!
# Client helpers

`src/client/Helpers.cpp`: the writer of fixed-width fields, and the four readers with their
defaults.

`read_i64` copies eight bytes into a native integer and reverses their order by masks and shifts. On
a little-endian host that gives the big-endian value: `i64OfBytes_eq`.
-/

namespace MyTeams

open ByteOrder ByteField ByteReader

/-! ### Writing -/

/-- `pack_fixed`: truncate, or pad with zeros. -/
def packFixed (buf : List UInt8) (s : Str) (fieldLen : ℕ) : List UInt8 :=
  let copyLen := min s.length fieldLen
  buf ++ s.take copyLen ++ List.replicate (fieldLen - copyLen) 0

/-- A packed text is a field. -/
@[simp] theorem packFixed_eq (buf : List UInt8) (s : Str) (n : ℕ) :
    packFixed buf s n = buf ++ (fill n s).toList := by
  have hfill : ∀ (s : Str) (n : ℕ),
      s.take (min s.length n) ++ List.replicate (n - min s.length n) 0 = s.takeD n 0 := by
    intro s n
    induction n generalizing s with
    | zero => simp [List.takeD]
    | succ n ih =>
      cases s with
      | nil => simp [List.takeD, List.replicate_succ, ← ih []]
      | cons b s => simpa [List.takeD, Nat.succ_min_succ] using ih s
  rw [packFixed, List.append_assoc, hfill]
  rfl

/-! ### Reading -/

/-- `read_fixed`: the text of a field, up to its first zero byte. -/
def readFixed (len : ℕ) : Reader Str := readField len [] cut

/-- `read_u32`. -/
def readU32 : Reader UInt32 := readField 4 0 ofBe32

/-- `read_u8`. -/
def readU8 : Reader UInt8 := readField 1 0 fun l ↦ l.headD 0

/-- The byte reversal of `read_i64`. -/
def swapBytes (u : UInt64) : UInt64 :=
  (u &&& 0x00000000000000FF) <<< 56
    ||| (u &&& 0x000000000000FF00) <<< 40
    ||| (u &&& 0x0000000000FF0000) <<< 24
    ||| (u &&& 0x00000000FF000000) <<< 8
    ||| (u &&& 0x000000FF00000000) >>> 8
    ||| (u &&& 0x0000FF0000000000) >>> 24
    ||| (u &&& 0x00FF000000000000) >>> 40
    ||| (u &&& 0xFF00000000000000) >>> 56

/-- What `read_i64` makes of eight bytes in memory. -/
def i64OfBytes (l : List UInt8) : Int64 := (swapBytes (UInt64.ofNat (leNat l))).toInt64

/-- `read_i64`. -/
def readI64 : Reader Int64 := readField 8 0 i64OfBytes

/-! ### The byte reversal -/

/-- A mask of one byte cuts out that byte. -/
private theorem and_byteMask (n k : ℕ) :
    n &&& 255 * 256 ^ k = n / 256 ^ k % 256 * 256 ^ k := by
  have hpow : 256 ^ k = 2 ^ (8 * k) := by rw [Nat.pow_mul]
  have hbyte : n / 2 ^ (8 * k) % 256 = (n >>> (8 * k)) &&& (2 ^ 8 - 1) := by
    rw [Nat.and_two_pow_sub_one_eq_mod, Nat.shiftRight_eq_div_pow]
  rw [hpow, hbyte, ← Nat.shiftLeft_eq, ← Nat.shiftLeft_eq]
  refine Nat.eq_of_testBit_eq fun i ↦ ?_
  simp only [Nat.testBit_and, Nat.testBit_shiftLeft, Nat.testBit_shiftRight]
  rcases Nat.lt_or_ge i (8 * k) with hi | hi
  · simp [Nat.not_le.2 hi]
  · simp [hi, Nat.add_sub_cancel' hi]

/-- Placing a byte below the ones that are there is adding it. -/
private theorem or_byte {a b : ℕ} (k : ℕ) (ha : a % 256 ^ (k + 1) = 0) (hb : b < 256) :
    a ||| b * 256 ^ k = a + b * 256 ^ k := by
  have hlt : b * 256 ^ k < 2 ^ (8 * (k + 1)) := by
    rw [Nat.pow_mul, pow_succ, Nat.mul_comm]
    exact Nat.mul_lt_mul_of_pos_left hb (Nat.pow_pos (by decide))
  have hdiv : a = 2 ^ (8 * (k + 1)) * (a / 256 ^ (k + 1)) := by
    rw [Nat.pow_mul]
    exact (Nat.mul_div_cancel' (Nat.dvd_of_mod_eq_zero ha)).symm
  rw [hdiv, ← Nat.two_pow_add_eq_or_of_lt hlt]

/-- **Byte reversal**: the masks and shifts read the memory image the other way round. -/
theorem toNat_swapBytes (u : UInt64) : (swapBytes u).toNat = beNat (leBytes 8 u.toNat) := by
  set n := u.toNat with hn
  have hbyte (k : ℕ) : n / 256 ^ k % 256 < 256 := Nat.mod_lt _ (by decide)
  have hleft (k s : ℕ) (hs : 256 ^ k * 2 ^ s * 256 ≤ 2 ^ 64) :
      (n &&& 255 * 256 ^ k) <<< s % 2 ^ 64 = n / 256 ^ k % 256 * (256 ^ k * 2 ^ s) := by
    have hlt : n / 256 ^ k % 256 * (256 ^ k * 2 ^ s) < 2 ^ 64 := by
      refine lt_of_lt_of_le ?_ hs
      rw [Nat.mul_comm]
      exact Nat.mul_lt_mul_of_pos_left (hbyte k)
        (Nat.mul_pos (Nat.pow_pos (by decide)) (Nat.two_pow_pos s))
    rw [and_byteMask, Nat.shiftLeft_eq, Nat.mul_assoc, Nat.mod_eq_of_lt hlt]
  have hright (k s j : ℕ) (hs : 256 ^ k = 256 ^ j * 2 ^ s) :
      (n &&& 255 * 256 ^ k) >>> s = n / 256 ^ k % 256 * 256 ^ j := by
    rw [and_byteMask, Nat.shiftRight_eq_div_pow, hs, ← Nat.mul_assoc,
      Nat.mul_div_cancel _ (Nat.two_pow_pos s)]
  -- byte `k` goes up by `s` bits, or down to place `j`
  have h0 := hleft 0 56 (by decide)
  have h1 := hleft 1 40 (by decide)
  have h2 := hleft 2 24 (by decide)
  have h3 := hleft 3 8 (by decide)
  have h4 := hright 4 8 3 (by decide)
  have h5 := hright 5 24 2 (by decide)
  have h6 := hright 6 40 1 (by decide)
  have h7 := hright 7 56 0 (by decide)
  simp only [Nat.reducePow, Nat.reduceMul] at h0 h1 h2 h3 h4 h5 h6 h7
  have hor : (swapBytes u).toNat =
      n / 256 ^ 0 % 256 * 256 ^ 7 ||| n / 256 ^ 1 % 256 * 256 ^ 6 |||
        n / 256 ^ 2 % 256 * 256 ^ 5 ||| n / 256 ^ 3 % 256 * 256 ^ 4 |||
        n / 256 ^ 4 % 256 * 256 ^ 3 ||| n / 256 ^ 5 % 256 * 256 ^ 2 |||
        n / 256 ^ 6 % 256 * 256 ^ 1 ||| n / 256 ^ 7 % 256 * 256 ^ 0 := by
    simp only [swapBytes, UInt64.toNat_or, UInt64.toNat_shiftLeft, UInt64.toNat_shiftRight,
      UInt64.toNat_and, UInt64.toNat_ofNat, Nat.reducePow, Nat.reduceMod, ← hn, h0, h1, h2, h3, h4,
      h5, h6, h7]
  have hsum : beNat (leBytes 8 n) =
      n / 256 ^ 0 % 256 * 256 ^ 7 + n / 256 ^ 1 % 256 * 256 ^ 6 + n / 256 ^ 2 % 256 * 256 ^ 5 +
        n / 256 ^ 3 % 256 * 256 ^ 4 + n / 256 ^ 4 % 256 * 256 ^ 3 + n / 256 ^ 5 % 256 * 256 ^ 2 +
        n / 256 ^ 6 % 256 * 256 ^ 1 + n / 256 ^ 7 % 256 * 256 ^ 0 := by
    simp only [leBytes, beBytes, List.reverse_cons, List.reverse_nil, List.nil_append,
      List.cons_append, beNat, List.foldl_cons, List.foldl_nil, UInt8.toNat_ofNat', Nat.reducePow]
    omega
  rw [hor, hsum, or_byte 6 (by omega) (hbyte 1), or_byte 5 (by omega) (hbyte 2),
    or_byte 4 (by omega) (hbyte 3), or_byte 3 (by omega) (hbyte 4), or_byte 2 (by omega) (hbyte 5),
    or_byte 1 (by omega) (hbyte 6), or_byte 0 (by omega) (hbyte 7)]

/-- **`read_i64` is big-endian.** -/
theorem i64OfBytes_be64 (v : Int64) : i64OfBytes (be64 v) = v := by
  have hle : leNat (be64 v) < 2 ^ 64 := by simpa using leNat_lt (be64 v)
  have hbytes : leBytes 8 (leNat (be64 v)) = be64 v := by
    have hroundtrip := leBytes_leNat (be64 v)
    rwa [length_be64] at hroundtrip
  have hswap : (swapBytes (UInt64.ofNat (leNat (be64 v)))).toNat = v.toUInt64.toNat := by
    rw [toNat_swapBytes, UInt64.toNat_ofNat_of_lt' hle, hbytes, be64,
      beNat_beBytes v.toUInt64.toNat_lt]
  rw [i64OfBytes, UInt64.toNat_inj.1 hswap]
  rfl

/-! ### Decoding -/

theorem decodes_readFixed {n : ℕ} (b : Bytes n) :
    Decodes (readFixed n) b.toList (cut b.toList) := by
  have hfield := decodes_readField b.toList [] cut
  rwa [b.toList_length] at hfield

theorem decodes_readU32 (v : UInt32) : Decodes readU32 (be32 v) v := by
  have hfield := decodes_readField (be32 v) 0 ofBe32
  rwa [length_be32, ofBe32_be32] at hfield

theorem decodes_readU8 (v : UInt8) : Decodes readU8 [v] v :=
  decodes_readField [v] 0 fun l ↦ l.headD 0

theorem decodes_readI64 (v : Int64) : Decodes readI64 (be64 v) v := by
  have hfield := decodes_readField (be64 v) 0 i64OfBytes
  rwa [length_be64, i64OfBytes_be64] at hfield

end MyTeams
