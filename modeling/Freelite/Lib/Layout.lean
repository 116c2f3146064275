import Freelite.Lib.CString

/-!
# Flat objects of a C program

A C structure is, on the wire and in memory, a block of bytes with fields at
fixed offsets.  This file is the small theory of such blocks.

* `Codec α` says how a scalar type is laid out: a width, an encoder, a decoder,
  and the two laws that make them a round trip.  The scalars are little-endian.
* `Flat n` is a block of `n` bytes; the length is part of the value, so a write
  cannot silently grow it.
* `Field n α` is a scalar at an offset which the block has room for, `CharArray n`
  a run of characters.  A read sees the last write to the same field
  (`Field.get_set_self`) and ignores writes elsewhere (`Field.get_set_of_disjoint`);
  whether two fields are apart is decidable, so both serve as rewrite rules.
* `strncpy` and `cstring` are the two ways a program treats a run of characters
  as a string.  Both are partial: a copy past the end of its array, or a read of
  an array without a terminator, has no meaning.
-/

namespace Freelite.Lib

/-! ## Little-endian numbers -/

/-- The lowest `w` bytes of `x`, least significant first. -/
def leBytes : Nat → Nat → List UInt8
  | 0, _ => []
  | w + 1, x => UInt8.ofNat x :: leBytes w (x / 256)

/-- The number a run of bytes stands for, least significant first. -/
def leValue : List UInt8 → Nat
  | [] => 0
  | b :: bs => b.toNat + 256 * leValue bs

@[simp] theorem length_leBytes (w x : Nat) : (leBytes w x).length = w := by
  induction w generalizing x with
  | zero => rfl
  | succ w ih => simp [leBytes, ih]

theorem leValue_leBytes (w x : Nat) : leValue (leBytes w x) = x % 256 ^ w := by
  induction w generalizing x with
  | zero => simp [leBytes, leValue, Nat.mod_one]
  | succ w ih =>
      have hb : (UInt8.ofNat x).toNat = x % 256 := by simp
      rw [leBytes, leValue, ih, hb, Nat.pow_succ', Nat.mod_mul]

theorem leValue_lt (l : List UInt8) : leValue l < 256 ^ l.length := by
  induction l with
  | nil => simp [leValue]
  | cons b l ih =>
      have hb : b.toNat < 256 := b.toNat_lt
      rw [leValue, List.length_cons, Nat.pow_succ]
      omega

theorem leBytes_leValue (l : List UInt8) : leBytes l.length (leValue l) = l := by
  induction l with
  | nil => rfl
  | cons b l ih =>
      have hb : b.toNat < 256 := b.toNat_lt
      have hhead : UInt8.ofNat (b.toNat + 256 * leValue l) = b := by
        apply UInt8.toNat_inj.mp
        rw [UInt8.toNat_ofNat']
        omega
      have htail : (b.toNat + 256 * leValue l) / 256 = leValue l := by omega
      rw [List.length_cons, leValue, leBytes, hhead, htail, ih]

/-! ## Scalar types -/

/-- A scalar type's representation in `width` bytes. -/
structure Codec (α : Type) where
  /-- How many bytes a value occupies. -/
  width : Nat
  /-- The bytes of a value. -/
  enc : α → List UInt8
  /-- The value of some bytes. -/
  dec : List UInt8 → α
  length_enc : ∀ a, (enc a).length = width
  dec_enc : ∀ a, dec (enc a) = a

attribute [simp] Codec.length_enc Codec.dec_enc

namespace Codec

/-- The value left in a variable after a prefix of its bytes has been overwritten:
what a `recv` that stores only part of a message leaves behind. -/
def overwrite {α : Type} (c : Codec α) (a : α) (chunk : List UInt8) : α :=
  c.dec ((chunk ++ (c.enc a).drop chunk.length).take c.width)

/-- Storing no byte leaves the variable as it was. -/
@[simp] theorem overwrite_nil {α : Type} (c : Codec α) (a : α) : c.overwrite a [] = a := by
  rw [overwrite, List.nil_append, List.length_nil, List.drop_zero, ← c.length_enc a,
    List.take_length, c.dec_enc]

/-- Storing a whole message replaces the variable. -/
@[simp] theorem overwrite_enc {α : Type} (c : Codec α) (a b : α) :
    c.overwrite a (c.enc b) = b := by
  rw [overwrite, List.take_left' (c.length_enc b), c.dec_enc]

/-- `unsigned int`. -/
def uint32 : Codec UInt32 where
  width := 4
  enc a := leBytes 4 a.toNat
  dec l := UInt32.ofNat (leValue l)
  length_enc _ := length_leBytes 4 _
  dec_enc a := by
    rw [leValue_leBytes, Nat.mod_eq_of_lt (by simpa using a.toNat_lt), UInt32.ofNat_toNat]

/-- `int`, in two's complement. -/
def int32 : Codec Int32 where
  width := 4
  enc a := uint32.enc a.toUInt32
  dec l := (uint32.dec l).toInt32
  length_enc a := uint32.length_enc a.toUInt32
  dec_enc a := by rw [uint32.dec_enc, Int32.toInt32_toUInt32]

/-- Pointers, `size_t`, `uintptr_t` and `uint64_t`. -/
def uint64 : Codec UInt64 where
  width := 8
  enc a := leBytes 8 a.toNat
  dec l := UInt64.ofNat (leValue l)
  length_enc _ := length_leBytes 8 _
  dec_enc a := by
    rw [leValue_leBytes, Nat.mod_eq_of_lt (by simpa using a.toNat_lt), UInt64.ofNat_toNat]

/-- `bool`, one byte. -/
def bool : Codec Bool where
  width := 1
  enc a := [if a then 1 else 0]
  dec l := l != [0]
  length_enc _ := rfl
  dec_enc a := by cases a <;> rfl

/-- Every run of four bytes is the representation of an `unsigned int`. -/
theorem uint32_enc_dec {l : List UInt8} (h : l.length = 4) : uint32.enc (uint32.dec l) = l := by
  have hlt : leValue l < 2 ^ 32 := by simpa [h] using leValue_lt l
  have hmod : leValue l % 2 ^ 32 = leValue l := Nat.mod_eq_of_lt hlt
  change leBytes 4 (UInt32.ofNat (leValue l)).toNat = l
  rw [UInt32.toNat_ofNat', hmod, ← h, leBytes_leValue]

/-- Every run of four bytes is the representation of an `int`. -/
theorem int32_enc_dec {l : List UInt8} (h : l.length = 4) : int32.enc (int32.dec l) = l :=
  uint32_enc_dec h

end Codec

/-! ## Blocks of bytes -/

/-- An object of `n` bytes. -/
@[ext]
structure Flat (n : Nat) where
  /-- The bytes, from the lowest address up. -/
  bytes : List UInt8
  length_bytes : bytes.length = n
deriving DecidableEq

attribute [simp] Flat.length_bytes

namespace Flat

variable {n : Nat}

/-- The object `memset` to zero. -/
def zero (n : Nat) : Flat n := ⟨List.replicate n 0, List.length_replicate⟩

/-- The `w` bytes at offset `off`. -/
def slice (o : Flat n) (off w : Nat) : List UInt8 := (o.bytes.drop off).take w

/-- Overwrite the bytes from offset `off` on by `bs`. -/
def write (o : Flat n) (off : Nat) (bs : List UInt8) (h : off + bs.length ≤ n) : Flat n where
  bytes := o.bytes.take off ++ bs ++ o.bytes.drop (off + bs.length)
  length_bytes := by simp; omega

/-- A slice of the zero object is all zeros. -/
@[simp] theorem slice_zero {off w : Nat} (h : off + w ≤ n) :
    (zero n).slice off w = List.replicate w 0 := by
  rw [slice, zero, List.drop_replicate, List.take_replicate, Nat.min_eq_left (by omega)]

/-- From the offset of a write on, one reads what was written and then what was
there before. -/
theorem slice_write_add (o : Flat n) {off k : Nat} {bs : List UInt8} (h : off + bs.length ≤ n)
    (hk : bs.length = k) (w : Nat) :
    (o.write off bs h).slice off (k + w) = bs ++ o.slice (off + k) w := by
  subst hk
  have hoff : (o.bytes.take off).length = off := by simp; omega
  change ((o.bytes.take off ++ bs ++ o.bytes.drop (off + bs.length)).drop off).take _ = _
  rw [List.append_assoc, List.drop_left' hoff, List.take_length_add_append, slice]

/-- What was written is read back. -/
theorem slice_write_self (o : Flat n) {off k : Nat} {bs : List UInt8} (h : off + bs.length ≤ n)
    (hk : bs.length = k) : (o.write off bs h).slice off k = bs := by
  simpa [slice] using o.slice_write_add h hk 0

/-- Writes leave the bytes before and after them alone. -/
theorem slice_write_of_disjoint (o : Flat n) {off off' w : Nat} {bs : List UInt8}
    (h : off + bs.length ≤ n) (hd : off' + w ≤ off ∨ off + bs.length ≤ off') :
    (o.write off bs h).slice off' w = o.slice off' w := by
  have hlen := o.length_bytes
  apply List.ext_getElem?
  intro i
  simp only [slice, write, List.getElem?_take, List.getElem?_drop, List.getElem?_append,
    List.length_take, List.length_append]
  split_ifs <;> first | rfl | omega | (congr 1; omega)

end Flat

/-! ## Scalar fields -/

/-- A scalar member of an object of `n` bytes. -/
structure Field (n : Nat) (α : Type) where
  /-- The offset of the member from the start of the object. -/
  offset : Nat
  /-- The representation of its type. -/
  codec : Codec α
  fits : offset + codec.width ≤ n := by decide

namespace Field

variable {n : Nat} {α β : Type}

/-- Read the member. -/
def get (f : Field n α) (o : Flat n) : α := f.codec.dec (o.slice f.offset f.codec.width)

/-- Assign the member. -/
def set (f : Field n α) (a : α) (o : Flat n) : Flat n :=
  o.write f.offset (f.codec.enc a) (by simpa using f.fits)

/-- The members occupy different bytes. -/
def Disjoint (f : Field n α) (g : Field n β) : Prop :=
  f.offset + f.codec.width ≤ g.offset ∨ g.offset + g.codec.width ≤ f.offset

instance (f : Field n α) (g : Field n β) : Decidable (f.Disjoint g) :=
  inferInstanceAs (Decidable (_ ∨ _))

@[simp] theorem get_set_self (f : Field n α) (a : α) (o : Flat n) : f.get (f.set a o) = a := by
  rw [get, set, o.slice_write_self _ (f.codec.length_enc a), f.codec.dec_enc]

theorem get_set_of_disjoint {f : Field n α} {g : Field n β} (h : f.Disjoint g) (b : β)
    (o : Flat n) : f.get (g.set b o) = f.get o := by
  rw [get, set, o.slice_write_of_disjoint _ (by simpa [Disjoint] using h), get]

end Field

/-! ## Runs of characters -/

/-- A member of type `char [size]` of an object of `n` bytes. -/
structure CharArray (n : Nat) where
  /-- The offset of the member from the start of the object. -/
  offset : Nat
  /-- The number of characters it has room for. -/
  size : Nat
  fits : offset + size ≤ n := by decide

namespace CharArray

variable {n : Nat} {α : Type}

/-- The array and the scalar member occupy different bytes. -/
def Disjoint (c : CharArray n) (f : Field n α) : Prop :=
  c.offset + c.size ≤ f.offset ∨ f.offset + f.codec.width ≤ c.offset

instance (c : CharArray n) (f : Field n α) : Decidable (c.Disjoint f) :=
  inferInstanceAs (Decidable (_ ∨ _))

/-- The bytes `strncpy` stores for a bound of `k`: at most `k` characters of the
source, filled up with zeros to exactly `k`. -/
def copied (src : List UInt8) (k : Nat) : List UInt8 :=
  src.take k ++ List.replicate (k - src.length) 0

@[simp] theorem length_copied (src : List UInt8) (k : Nat) : (copied src k).length = k := by
  simp [copied]; omega

/-- `strncpy` into the array.  It stores exactly `k` bytes, so for a bound above
the size of the array it writes outside of it, which has no meaning. -/
def strncpy (c : CharArray n) (src : List UInt8) (k : Nat) (o : Flat n) : Option (Flat n) :=
  if h : k ≤ c.size then
    some (o.write c.offset (copied src k) (by have := c.fits; simp; omega))
  else none

/-- The characters in the array, whether there is a zero among them or not. -/
def chars (c : CharArray n) (o : Flat n) : List UInt8 := o.slice c.offset c.size

/-- The array read as a C string: the characters before the first zero.  Without
a zero the read runs off the array, which has no meaning. -/
def cstring (c : CharArray n) (o : Flat n) : Option (List UInt8) :=
  let l := o.slice c.offset c.size
  if 0 ∈ l then some (cstr l) else none

theorem strncpy_eq_none_iff {c : CharArray n} {src : List UInt8} {k : Nat} {o : Flat n} :
    c.strncpy src k o = none ↔ c.size < k := by
  simp [strncpy]

/-- A copy does not disturb the scalar members around the array. -/
theorem get_strncpy {c : CharArray n} {f : Field n α} (hd : c.Disjoint f) {src : List UInt8}
    {k : Nat} {o o' : Flat n} (h : c.strncpy src k o = some o') : f.get o' = f.get o := by
  by_cases hk : k ≤ c.size
  · rw [strncpy, dif_pos hk, Option.some_inj] at h
    subst h
    rw [Field.get, o.slice_write_of_disjoint, Field.get]
    rw [length_copied]
    rcases hd with hd | hd
    · exact Or.inr (by omega)
    · exact Or.inl hd
  · simp [strncpy, hk] at h

/-- Assigning a scalar member does not disturb the array. -/
theorem slice_set {c : CharArray n} {f : Field n α} (hd : c.Disjoint f) (a : α) (o : Flat n) :
    (f.set a o).slice c.offset c.size = o.slice c.offset c.size :=
  o.slice_write_of_disjoint _ (by simpa [Disjoint] using hd)

/-- The array of an object that is zero. -/
theorem slice_zero (c : CharArray n) :
    (Flat.zero n).slice c.offset c.size = List.replicate c.size 0 := Flat.slice_zero c.fits

/-- A copy into a zeroed array leaves zeros behind the part of the string the bound lets
through, whatever the bound. -/
theorem chars_strncpy {c : CharArray n} {src : List UInt8} {k : Nat} {o o' : Flat n}
    (hz : o.slice c.offset c.size = List.replicate c.size 0) (h : c.strncpy src k o = some o') :
    c.chars o' = copied (src.take k) c.size := by
  have hfits := c.fits
  have hk : k ≤ c.size := by
    by_contra hk
    rw [strncpy_eq_none_iff.mpr (by omega)] at h
    contradiction
  rw [strncpy, dif_pos hk, Option.some_inj] at h
  subst h
  have htail : o.slice (c.offset + k) (c.size - k) = List.replicate (c.size - k) 0 := by
    have h := congrArg (List.drop k) hz
    rw [Flat.slice, List.drop_take, List.drop_drop, List.drop_replicate] at h
    exact h
  have hroom : c.offset + (copied src k).length ≤ n := by simp; omega
  have hall := o.slice_write_add hroom (length_copied src k) (c.size - k)
  have hpad : k - src.length + (c.size - k) = c.size - min k src.length := by omega
  rw [show k + (c.size - k) = c.size by omega, htail] at hall
  simp only [copied, List.append_assoc, List.replicate_append_replicate, hpad] at hall
  calc (o.write c.offset (copied src k) hroom).slice c.offset c.size
    _ = src.take k ++ List.replicate (c.size - min k src.length) 0 := hall
    _ = copied (src.take k) c.size := by
      rw [copied, List.length_take, List.take_take, Nat.min_eq_right hk]

/-- A string is read back from the array it has been copied into. -/
theorem cstr_copied {src : List UInt8} (hsrc : 0 ∉ src) {k : Nat} (hk : src.length ≤ k) :
    cstr (copied src k) = src := by
  rw [copied, List.take_of_length_le hk, cstr_append_zeros hsrc]

/-- **Strings survive a copy** into a zeroed array that is longer than the part
of the string the bound lets through: what is read back is that part. -/
theorem cstring_strncpy {c : CharArray n} {src : List UInt8} (hsrc : 0 ∉ src) {k : Nat}
    (hlt : (src.take k).length < c.size) {o o' : Flat n}
    (hz : o.slice c.offset c.size = List.replicate c.size 0) (h : c.strncpy src k o = some o') :
    c.cstring o' = some (src.take k) := by
  have htake : 0 ∉ src.take k := fun h ↦ hsrc (List.mem_of_mem_take h)
  have hchars := chars_strncpy hz h
  rw [chars] at hchars
  have hmem : 0 ∈ copied (src.take k) c.size :=
    List.mem_append_right _ (List.mem_replicate.mpr ⟨by omega, rfl⟩)
  simp only [cstring, hchars]
  rw [if_pos hmem, cstr_copied htake hlt.le]

end CharArray

/-! ## Reading on

A string function does not know the size of the array whose address it is given: it
reads on, through the members that follow, until there is a zero. -/

section Reading

variable {n : Nat} {α : Type}

/-- The characters from an offset up to the first zero in the object.  Without one the
read runs off the object. -/
def Flat.cstring (o : Flat n) (off : Nat) : Option (List UInt8) :=
  let l := o.bytes.drop off
  if 0 ∈ l then some (cstr l) else none

theorem Flat.drop_eq_append (o : Flat n) (off w : Nat) :
    o.bytes.drop off = o.slice off w ++ o.bytes.drop (off + w) := by
  rw [slice, ← List.drop_drop, List.take_append_drop]

/-- The first bytes of a member that has been assigned. -/
theorem Field.slice_set_self (f : Field n α) (a : α) (o : Flat n) {w : Nat}
    (hw : w ≤ f.codec.width) : (f.set a o).slice f.offset w = (f.codec.enc a).take w := by
  have hall := o.slice_write_self (by simpa using f.fits) (f.codec.length_enc a)
  rw [← hall, Flat.slice, Flat.slice, List.take_take, Nat.min_eq_left hw, set]

namespace CharArray

/-- Where the array has a terminator there is nothing to read on for. -/
theorem flat_cstring_of_cstring {c : CharArray n} {o : Flat n} {s : List UInt8}
    (h : c.cstring o = some s) : o.cstring c.offset = some s := by
  have hdrop := o.drop_eq_append c.offset c.size
  by_cases hz : 0 ∈ o.slice c.offset c.size
  · simp only [cstring, if_pos hz, Option.some_inj] at h
    simp only [Flat.cstring, hdrop]
    rw [if_pos (List.mem_append_left _ hz), cstr_append_of_mem hz, h]
  · simp [cstring, hz] at h

/-- A copy leaves what comes behind the array alone. -/
theorem slice_strncpy_behind {c : CharArray n} {src : List UInt8} {k w : Nat} {o o' : Flat n}
    (h : c.strncpy src k o = some o') :
    o'.slice (c.offset + c.size) w = o.slice (c.offset + c.size) w := by
  by_cases hk : k ≤ c.size
  · rw [strncpy, dif_pos hk, Option.some_inj] at h
    subst h
    apply o.slice_write_of_disjoint
    rw [length_copied]
    exact Or.inr (by omega)
  · simp [strncpy, hk] at h

/-- A string that fills the array is read back when the byte behind the array happens
to be zero. -/
theorem flat_cstring_of_full {c : CharArray n} {src : List UInt8} (hsrc : 0 ∉ src)
    (hlen : c.size ≤ src.length) {o o' : Flat n} (h : c.strncpy src c.size o = some o') :
    o'.cstring c.offset = some (src.take c.size) ↔ o'.slice (c.offset + c.size) 1 = [0] := by
  have htake : 0 ∉ src.take c.size := fun h ↦ hsrc (List.mem_of_mem_take h)
  have hslice : o'.slice c.offset c.size = src.take c.size := by
    rw [strncpy, dif_pos le_rfl, Option.some_inj] at h
    subst h
    rw [o.slice_write_self _ (length_copied src c.size), copied, Nat.sub_eq_zero_of_le hlen]
    simp
  have hdrop := o'.drop_eq_append c.offset c.size
  simp only [Flat.cstring, hdrop, hslice, cstr_append htake]
  simp only [Flat.slice]
  cases hrest : o'.bytes.drop (c.offset + c.size) with
  | nil => simpa using fun h ↦ absurd h htake
  | cons x rest =>
      by_cases hx : x = 0
      · simp [cstr, hx]
      · simp [cstr, hx]

end CharArray

end Reading

end Freelite.Lib
