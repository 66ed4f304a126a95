import GuardedStore.Guard.Access
import GuardedStore.Value.Predicate

/-!
Refusal of values that fail a condition.

A write is always checked and a read only on request. A value of a type other than the condition's
is refused whatever its content.
-/
namespace GuardedStore

structure Validation where
  name : String
  type : ValueType
  condition : Predicate
  checkReads : Bool := false
  /-- How many values were refused; the count goes up by one with each and never comes near
  `2 ^ 64`. -/
  rejections : Nat := 0
  deriving Inhabited

namespace Validation

inductive Verdict where
  | admitted
  | wrongType
  | rejected
  deriving DecidableEq

def verdict (v : Validation) (flags : String → Bool) (phase : Phase) (a : Access) : Verdict :=
  if phase = .read ∧ v.checkReads = false then .admitted
  else match a.cast? v.type with
    | none => .wrongType
    | some value => if v.condition.holds flags value then .admitted else .rejected

def reject (v : Validation) : Validation :=
  { v with rejections := v.rejections + 1 }

def inspect (v : Validation) : String :=
  Text.record "ValidationAspect"
    [("name", Text.quoted v.name), ("check_reads", toString v.checkReads),
      ("rejections", toString v.rejections)]

end Validation

end GuardedStore
