import GuardedStore.Value.Literal

/-!
Conditions on values, as a validation aspect asks them.

A condition that does not apply to a value's type is false of it, and `not` then makes it true.
Named flags are the only thing a condition reads besides the value.
-/
namespace GuardedStore

inductive Comparison where
  | lt
  | le
  | eq
  | ge
  | gt
  deriving DecidableEq

def Comparison.holds : Comparison → Int → Int → Bool
  | lt, x, y => x < y
  | le, x, y => x ≤ y
  | eq, x, y => x = y
  | ge, x, y => x ≥ y
  | gt, x, y => x > y

inductive Predicate where
  | always
  | never
  | not (p : Predicate)
  | both (p q : Predicate)
  | flag (name : String)
  /-- The value's written form is the given one. -/
  | is (form : Literal)
  /-- The remainder of division by `modulus`, which has the sign of the number divided; division by
  zero leaves none. -/
  | residue (modulus remainder : Int)
  | lengthAtMost (n : Nat)
  | compareInt (c : Comparison) (bound : Int)
  | compareFloat (c : Comparison) (bound : Float64)
  deriving Inhabited

namespace Predicate

/-- All of a list of conditions. -/
def all (ps : List Predicate) : Predicate :=
  ps.foldr both always

def holds (flags : String → Bool) : Predicate → Value → Bool
  | always, _ => true
  | never, _ => false
  | not p, v => !p.holds flags v
  | both p q, v => p.holds flags v && q.holds flags v
  | flag name, _ => flags name
  | is form, v => v.literal = form
  | residue modulus remainder, v =>
    modulus ≠ 0 && v.int?.any fun n => n.tmod modulus = remainder
  | lengthAtMost n, v => v.length?.any (· ≤ n)
  | compareInt c bound, v => v.int?.any fun n => c.holds n bound
  | compareFloat c bound, v =>
    match v with
    | .float64 x => Float64.compareBy c.holds x bound
    | _ => false

end Predicate

end GuardedStore
