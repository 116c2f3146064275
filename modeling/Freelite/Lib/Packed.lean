import Mathlib

/-!
# Two fields in one word

C programs put two numbers into one word as `(hi << b) + lo` and take them out again as
`word >> b` and `word mod 2^b`.  Nothing is masked on the way in, so the upper bits of
`hi` fall off the word and the upper bits of `lo` run into `hi`.

`decodes_pack_iff` says exactly when both come out as they went in.
-/

namespace Freelite.Lib

/-- The word of `w` bits with `hi` above the bit `b` and `lo` below it. -/
def pack (w b hi lo : ℕ) : ℕ := (hi * 2 ^ b + lo) % 2 ^ w

/-- The two fields of a word, parted at the bit `b`, are `hi` and `lo`. -/
def Decodes (b word hi lo : ℕ) : Prop := word / 2 ^ b = hi ∧ word % 2 ^ b = lo

variable {w b hi lo : ℕ}

/-- A word has one pair of fields. -/
theorem Decodes.unique {word hi' lo' : ℕ} (h : Decodes b word hi lo) (h' : Decodes b word hi' lo') :
    hi = hi' ∧ lo = lo' :=
  ⟨h.1.symm.trans h'.1, h.2.symm.trans h'.2⟩

/-- Fields that fit stay apart. -/
theorem pack_of_lt (hb : b ≤ w) (hhi : hi < 2 ^ (w - b)) (hlo : lo < 2 ^ b) :
    pack w b hi lo = hi * 2 ^ b + lo := by
  apply Nat.mod_eq_of_lt
  calc hi * 2 ^ b + lo < hi * 2 ^ b + 2 ^ b := by omega
    _ = (hi + 1) * 2 ^ b := by rw [Nat.add_mul, Nat.one_mul]
    _ ≤ 2 ^ (w - b) * 2 ^ b := Nat.mul_le_mul_right _ hhi
    _ = 2 ^ w := by rw [← pow_add, Nat.sub_add_cancel hb]

/-- **The fields come out as they went in** exactly when they fit. -/
theorem decodes_pack_iff (hb : b ≤ w) :
    Decodes b (pack w b hi lo) hi lo ↔ hi < 2 ^ (w - b) ∧ lo < 2 ^ b := by
  constructor
  · rintro ⟨hhi, hlo⟩
    constructor
    · rw [← hhi]
      apply Nat.div_lt_of_lt_mul
      rw [← pow_add, Nat.add_sub_cancel' hb]
      exact Nat.mod_lt _ (Nat.two_pow_pos w)
    · rw [← hlo]
      exact Nat.mod_lt _ (Nat.two_pow_pos b)
  · rintro ⟨hhi, hlo⟩
    rw [pack_of_lt hb hhi hlo]
    constructor
    · rw [Nat.add_comm, Nat.add_mul_div_right _ _ (Nat.two_pow_pos b), Nat.div_eq_of_lt hlo,
        Nat.zero_add]
    · rw [Nat.add_comm, Nat.add_mul_mod_self_right, Nat.mod_eq_of_lt hlo]

/-! ## In 32 bits -/

/-- The word of unsigned arithmetic. -/
theorem toNat_shiftLeft_add {b : UInt32} (hb : b.toNat < 32) (hi lo : UInt32) :
    ((hi <<< b) + lo).toNat = pack 32 b.toNat hi.toNat lo.toNat := by
  rw [UInt32.toNat_add, UInt32.toNat_shiftLeft, Nat.mod_eq_of_lt hb, Nat.shiftLeft_eq,
    Nat.mod_add_mod, pack]

theorem toNat_shiftRight {b : UInt32} (hb : b.toNat < 32) (word : UInt32) :
    (word >>> b).toNat = word.toNat / 2 ^ b.toNat := by
  rw [UInt32.toNat_shiftRight, Nat.mod_eq_of_lt hb, Nat.shiftRight_eq_div_pow]

end Freelite.Lib
