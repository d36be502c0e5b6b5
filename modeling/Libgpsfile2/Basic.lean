import Mathlib.Tactic
import Mathlib.Data.List.TakeWhile

/-!
# Strings, exceptions and machine numbers

What the library is written over: `std::string` and its conversion from `const char *`, the ways a
call can fail to return, and the conversions between `char`, `int`, `std::streamsize` and
`std::size_t` as the x86-64 build makes them (`char` is a signed 8 bit number, `int_type` is
`int`). A `char` is stored as its byte, a `UInt8`.
-/

namespace Libgpsfile2

/-! ### Strings -/

/-- A `std::string`: its bytes. -/
abbrev StdString := List UInt8

/-- A string literal of ASCII characters. -/
def lit (s : String) : StdString := s.toList.map fun c => UInt8.ofNat c.toNat

/-- The `std::string` made from a `const char *`: it ends at the first NUL. -/
def cStr (s : StdString) : StdString := s.takeWhile (· ≠ 0)

theorem length_cStr_le (s : StdString) : (cStr s).length ≤ s.length :=
  (List.takeWhile_sublist _).length_le

theorem cStr_eq_self_iff (s : StdString) : cStr s = s ↔ 0 ∉ s := by
  unfold cStr
  rw [List.takeWhile_eq_self_iff]
  constructor
  · intro h h0
    simpa using h 0 h0
  · intro h c hc
    exact decide_eq_true fun h0 => h (h0 ▸ hc)

theorem length_cStr_lt {s : StdString} (h0 : 0 ∈ s) : (cStr s).length < s.length := by
  refine (length_cStr_le s).lt_of_ne fun hlen => ?_
  exact (cStr_eq_self_iff s).1 ((List.takeWhile_sublist _).eq_of_length hlen) h0

/-- What stands behind a NUL does not matter. -/
theorem cStr_append {s : StdString} (h0 : 0 ∈ s) (t : StdString) : cStr (s ++ t) = cStr s := by
  have hlen := (length_cStr_lt h0).ne
  unfold cStr at hlen ⊢
  rw [List.takeWhile_append, if_neg hlen]

/-- The terminating NUL is not part of the string. -/
theorem cStr_concat_zero (s : StdString) : cStr (s ++ [0]) = cStr s := by
  induction s with
  | nil => rfl
  | cons c s ih =>
    unfold cStr at ih ⊢
    by_cases hc : c = 0
    · simp [hc]
    · rw [List.cons_append, List.takeWhile_cons_of_pos (by simpa using hc),
        List.takeWhile_cons_of_pos (by simpa using hc), ih]

/-! ### Exceptions -/

/-- The ways a call can end without returning. The first two are C++ exceptions; the others end
the process, or leave it with undefined behaviour. -/
inductive Exn
  | runtimeError (what : String)
  | outOfRange
  | outOfBounds
  | nullPointer
  | terminate
  deriving DecidableEq

/-- A caller can catch what was thrown, and cannot go on after anything else. -/
def Exn.Fatal : Exn → Prop
  | .runtimeError _ => False
  | .outOfRange => False
  | .outOfBounds => True
  | .nullPointer => True
  | .terminate => True

instance : DecidablePred Exn.Fatal := fun e => by
  cases e <;> simp only [Exn.Fatal] <;> infer_instance

/-! ### Numbers -/

/-- `traits_type::eof ()`. -/
def eof : ℤ := -1

/-- `traits_type::to_int_type`: the value of the byte as an `unsigned char`. -/
def toIntType (c : UInt8) : ℤ := c.toNat

/-- The implicit conversion of a `char` to `int`. -/
def charToInt (c : UInt8) : ℤ := if c.toNat < 128 then c.toNat else c.toNat - 256

/-- The implicit conversion of an `int` to `char`. -/
def intToChar (c : ℤ) : UInt8 := UInt8.ofNat (c % 256).toNat

/-- `static_cast<std::size_t>` of a `std::streamsize`. -/
def toSizeT (n : ℤ) : ℤ := if n < 0 then n + 2 ^ 64 else n

/-- `static_cast<std::streamsize>` of a `std::size_t`. -/
def toStreamsize (n : UInt64) : ℤ := n.toInt64.toInt

/-- From `2 ^ 63` on a size is negative as a `std::streamsize`. -/
theorem toStreamsize_eq (n : UInt64) :
    toStreamsize n = if n.toNat < 2 ^ 63 then (n.toNat : ℤ) else n.toNat - 2 ^ 64 := by
  have htwos : toStreamsize n =
      if 2 * n.toNat < 2 ^ 64 then (n.toNat : ℤ) else n.toNat - (2 ^ 64 : ℕ) := rfl
  rw [htwos]
  split_ifs <;> omega

theorem lt_toStreamsize_iff {n : ℤ} (hn : 0 ≤ n) (s : UInt64) :
    n < toStreamsize s ↔ n < s.toNat ∧ s.toNat < 2 ^ 63 := by
  have hs := s.toNat_lt
  rw [toStreamsize_eq]
  split_ifs <;> omega

theorem intToChar_toIntType (c : UInt8) : intToChar (toIntType c) = c := by
  have hc := c.toNat_lt
  rw [← UInt8.toNat_inj, intToChar, toIntType, UInt8.toNat_ofNat']
  omega

theorem intToChar_charToInt (c : UInt8) : intToChar (charToInt c) = c := by
  have hc := c.toNat_lt
  rw [← UInt8.toNat_inj, intToChar, charToInt, UInt8.toNat_ofNat']
  split_ifs <;> omega

theorem toIntType_ne_eof (c : UInt8) : toIntType c ≠ eof := by
  simp only [toIntType, eof]; omega

/-- A `char` compares equal to the `unsigned char` it stands for exactly on the ASCII bytes. -/
theorem charToInt_eq_toIntType_iff (c : UInt8) : charToInt c = toIntType c ↔ c.toNat < 128 := by
  simp only [charToInt, toIntType]
  split_ifs <;> omega

/-- The byte `0xff` is the one `char` that compares equal to `eof ()`. -/
theorem charToInt_eq_eof_iff (c : UInt8) : charToInt c = eof ↔ c = 255 := by
  have hc := c.toNat_lt
  rw [← UInt8.toNat_inj, show (255 : UInt8).toNat = 255 from rfl]
  unfold charToInt eof
  constructor
  · intro h
    split_ifs at h
    omega
  · intro h
    rw [if_neg (by omega)]
    omega

end Libgpsfile2
