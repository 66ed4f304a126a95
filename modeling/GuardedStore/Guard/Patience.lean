/-!
How long an access waits for a lock: a number of milliseconds, or without end.
-/
namespace GuardedStore

inductive Patience where
  | milliseconds (n : UInt64)
  | unlimited
  deriving DecidableEq

instance : Inhabited Patience := ⟨.unlimited⟩

namespace Patience

/-- The longest time that can be written down stands for waiting without end. -/
def nanoseconds : Patience → Nat
  | milliseconds n => n.toNat * 1000000
  | unlimited => 18446744073709551615999999999

def inMilliseconds (p : Patience) : Nat :=
  p.nanoseconds / 1000000

/-- Three digits of a fraction, without the zeros they end in. -/
def thousandths (n : Nat) : List Char :=
  let ds := ((Nat.toDigits 10 (1000 + n)).drop 1).reverse.dropWhile (· = '0')
  ds.reverse

/-- Milliseconds below one second, and seconds with a fraction from there on. -/
def inspect : Patience → String
  | unlimited => "18446744073709551615.999999999s"
  | milliseconds n =>
    let n := n.toNat
    if n = 0 then "0ns"
    else if n < 1000 then toString n ++ "ms"
    else
      let fraction := thousandths (n % 1000)
      toString (n / 1000) ++
        (if fraction.isEmpty then "" else "." ++ String.ofList fraction) ++ "s"

end Patience

end GuardedStore
