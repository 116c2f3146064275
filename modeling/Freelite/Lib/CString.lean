import Mathlib

/-!
# Character arrays as strings

The few string functions the programs use, on lists of bytes: reading up to the
terminator (`cstr`), the bounds-checked `substr` of the C++ string class, and the
zero-padded decimal conversion of `printf`.
-/

namespace Freelite.Lib

/-- The bytes of a literal. -/
def bytes (s : String) : List UInt8 := s.toList.map fun c ↦ UInt8.ofNat c.toNat

/-- The characters before the first terminator. -/
def cstr (l : List UInt8) : List UInt8 := l.takeWhile (· ≠ 0)

/-- `substr(pos, n)`; it throws when `pos` is beyond the end. -/
def substr (l : List UInt8) (pos n : Nat) : Option (List UInt8) :=
  if pos ≤ l.length then some ((l.drop pos).take n) else none

/-- `printf`'s `%0wd`: the sign, and the digits filled up with zeros to width `w`. -/
def zeroPadded (w : Nat) (n : Int32) : List UInt8 :=
  let digits := (Nat.toDigits 10 n.toInt.natAbs).map fun c ↦ UInt8.ofNat c.toNat
  if n.toInt < 0 then bytes "-" ++ List.replicate (w - 1 - digits.length) 0x30 ++ digits
  else List.replicate (w - digits.length) 0x30 ++ digits

/-- A string without terminator is read whole, and the read goes on behind it. -/
theorem cstr_append {l : List UInt8} (hl : 0 ∉ l) (r : List UInt8) :
    cstr (l ++ r) = l ++ cstr r := by
  apply List.takeWhile_append_of_pos
  intro x hx
  rw [decide_eq_true_eq]
  rintro rfl
  exact hl hx

theorem cstr_of_notMem {l : List UInt8} (hl : 0 ∉ l) : cstr l = l := by
  simpa [cstr] using cstr_append hl []

/-- A read that meets a terminator does not depend on what follows. -/
theorem cstr_append_of_mem {l : List UInt8} (hl : 0 ∈ l) (r : List UInt8) :
    cstr (l ++ r) = cstr l := by
  induction l with
  | nil => contradiction
  | cons x l ih =>
      by_cases hx : x = 0
      · simp [cstr, hx]
      · have hl' : 0 ∈ l := (List.mem_cons.mp hl).resolve_left fun h ↦ hx h.symm
        simpa [cstr, hx] using ih hl'

/-- The padding of a fixed-size array is not part of the string in it. -/
theorem cstr_append_zeros {l : List UInt8} (hl : 0 ∉ l) (m : Nat) :
    cstr (l ++ List.replicate m 0) = l := by
  rw [cstr_append hl]
  cases m with
  | zero => simp [cstr]
  | succ m => simp [cstr, List.replicate_succ]

end Freelite.Lib
