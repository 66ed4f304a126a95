/-!
Double-precision numbers as their sixty-four bits.

Only what a guarded cell does with them is here: comparing two, telling a not-a-number apart, and
taking in a small integer or a single-precision number, each of which has an exact double.
-/
namespace GuardedStore

/-- A double-precision number, by its bits. -/
structure Float64 where
  bits : UInt64
  deriving DecidableEq, Inhabited

namespace Float64

/-- The bit that stands for a negative sign. -/
def signBit : Nat := 0x8000000000000000

/-- The bits below the sign. -/
def magnitude (x : Float64) : Nat :=
  x.bits.toNat % signBit

def isNegative (x : Float64) : Bool :=
  signBit ≤ x.bits.toNat

/-- Exponent bits all ones and a fraction that is not zero. -/
def isNaN (x : Float64) : Bool :=
  0x7ff0000000000000 < x.magnitude

/-- Every not-a-number has one written form. -/
def canonical (x : Float64) : Float64 :=
  if x.isNaN then ⟨0x7ff8000000000000⟩ else x

/-- The place on the number line; both zeros stand at the same place. -/
def order (x : Float64) : Int :=
  if x.isNegative then -x.magnitude else x.magnitude

/-- Whether a comparison of the two places holds; no comparison holds of a not-a-number. -/
def compareBy (holds : Int → Int → Bool) (x y : Float64) : Bool :=
  !x.isNaN && !y.isNaN && holds x.order y.order

/-- The double of `±m · 2 ^ q`, exact for `0 < m < 2 ^ 53` within the normal range. -/
def ofScaled (negative : Bool) (m : Nat) (q : Int) : Float64 :=
  let top := m.log2
  let exponent := (top + q + 1023).toNat
  let fraction := (m <<< (52 - top)) - (1 <<< 52)
  ⟨UInt64.ofNat ((if negative then signBit else 0) + (exponent <<< 52) + fraction)⟩

def zero (negative : Bool) : Float64 :=
  ⟨if negative then 0x8000000000000000 else 0⟩

def infinity (negative : Bool) : Float64 :=
  ⟨if negative then 0xfff0000000000000 else 0x7ff0000000000000⟩

def ofInt32 (n : Int32) : Float64 :=
  if n = 0 then zero false else ofScaled (n < 0) n.toInt.natAbs 0

/-- The double equal to a single-precision number given by its bits. -/
def ofSingle (bits : UInt32) : Float64 :=
  let n : Nat := bits.toNat
  let negative : Bool := 0x80000000 ≤ n
  let exponent : Nat := (n >>> 23) % 256
  let fraction : Nat := n % 0x800000
  if exponent = 255 then
    if fraction = 0 then infinity negative else ⟨0x7ff8000000000000⟩
  else if exponent = 0 then
    if fraction = 0 then zero negative else ofScaled negative fraction (-149)
  else
    ofScaled negative (0x800000 + fraction) ((exponent : Int) - 150)

end Float64

end GuardedStore
