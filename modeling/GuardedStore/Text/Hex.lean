/-!
Numbers in base sixteen. `render` writes a fixed number of lower-case digits; `read?` takes digits
of either case and refuses every other character.
-/
namespace GuardedStore.Hex

def digits : List Char :=
  ['0', '1', '2', '3', '4', '5', '6', '7', '8', '9', 'a', 'b', 'c', 'd', 'e', 'f']

/-- The last `width` digits of `n`, most significant first. -/
def renderDigits : (width : Nat) → Nat → List Char
  | 0, _ => []
  | width + 1, n => renderDigits width (n / 16) ++ [digits.getD (n % 16) '0']

def render (width n : Nat) : String :=
  String.ofList (renderDigits width n)

def value? (c : Char) : Option Nat :=
  if '0' ≤ c ∧ c ≤ '9' then some (c.toNat - '0'.toNat)
  else if 'a' ≤ c ∧ c ≤ 'f' then some (c.toNat - 'a'.toNat + 10)
  else if 'A' ≤ c ∧ c ≤ 'F' then some (c.toNat - 'A'.toNat + 10)
  else none

/-- The number written by a possibly empty run of digits, after the digits already read. -/
def readFrom? (read : Nat) : List Char → Option Nat
  | [] => some read
  | c :: cs => do readFrom? (read * 16 + (← value? c)) cs

def read? (cs : List Char) : Option Nat :=
  readFrom? 0 cs

theorem length_renderDigits (width n : Nat) : (renderDigits width n).length = width := by
  induction width generalizing n with
  | zero => rfl
  | succ width ih => simp [renderDigits, ih]

end GuardedStore.Hex
