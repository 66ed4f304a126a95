import GuardedStore.Value.Basic
import GuardedStore.Text.Hex

/-!
The written form of values: null, truth values, integers, texts and lists of integers.

Which value a literal stands for depends on the type asked for. A double is written by its bits in
base sixteen, every not-a-number alike. A few types can also be made from an argument of another
type; `ArgumentType` names the argument types, and `Literal.convert?` makes the value.
-/
namespace GuardedStore

inductive Literal where
  | null
  | bool (b : Bool)
  | int (n : Int)
  | text (s : String)
  | list (ns : List Int)
  /-- A form in which no value is written. -/
  | other
  deriving DecidableEq, Inhabited

/-- What a new item's argument may be, where it is not a value of the item's own type. -/
inductive ArgumentType where
  | int32
  | byte
  | bool
  | char
  | single
  | text
  | int64
  deriving DecidableEq

namespace Literal

def int32? : Literal → Option Int32
  | int n =>
    if Int32.minValue.toInt ≤ n ∧ n ≤ Int32.maxValue.toInt then some (Int32.ofInt n) else none
  | _ => none

def int64? : Literal → Option Int64
  | int n =>
    if Int64.minValue.toInt ≤ n ∧ n ≤ Int64.maxValue.toInt then some (Int64.ofInt n) else none
  | _ => none

def byteOf? (n : Int) : Option UInt8 :=
  if 0 ≤ n ∧ n < UInt8.size then some (UInt8.ofNat n.toNat) else none

def byte? : Literal → Option UInt8
  | int n => byteOf? n
  | _ => none

def word64? : Literal → Option UInt64
  | int n => if 0 ≤ n ∧ n < UInt64.size then some (UInt64.ofNat n.toNat) else none
  | _ => none

def bool? : Literal → Option Bool
  | bool b => some b
  | _ => none

def text? : Literal → Option String
  | text s => some s
  | _ => none

def char? (l : Literal) : Option Char := do
  (← l.text?).toList.head?

/-- The number written by exactly `width` digits in base sixteen. -/
def bits? (width : Nat) (l : Literal) : Option Nat := do
  let cs := (← l.text?).toList
  if cs.length = width then Hex.read? cs else none

def float64? (l : Literal) : Option Float64 := do
  some ⟨UInt64.ofNat (← l.bits? 16)⟩

/-- The value of type `t` that the literal stands for. -/
def value? (t : ValueType) (l : Literal) : Option Value :=
  match t, l with
  | .bool, l => l.bool?.map .bool
  | .byte, l => l.byte?.map .byte
  | .int32, l => l.int32?.map .int32
  | .int64, l => l.int64?.map .int64
  | .word64, l => l.word64?.map .word64
  | .float64, l => l.float64?.map .float64
  | .string, l => l.text?.map .string
  | .bytes, .list ns => (ns.mapM byteOf?).map .bytes
  | .unit, .null => some .unit
  | .optInt64, .null => some (.optInt64 none)
  | .optInt64, l => l.int64?.map fun n => .optInt64 (some n)
  | .counter, l => l.int64?.map .counter
  | _, _ => none

/-- The value of type `t` made from an argument of another type. -/
def convert? (t : ValueType) (a : ArgumentType) (l : Literal) : Option Value :=
  match t, a with
  | .int64, .byte => l.byte?.map fun n => .int64 (Int64.ofNat n.toNat)
  | .int64, .int32 => l.int32?.map fun n => .int64 n.toInt64
  | .int64, .bool => l.bool?.map fun b => .int64 (if b then 1 else 0)
  | .byte, .bool => l.bool?.map fun b => .byte (if b then 1 else 0)
  | .int32, .byte => l.byte?.map fun n => .int32 (Int32.ofNat n.toNat)
  | .int32, .bool => l.bool?.map fun b => .int32 (if b then 1 else 0)
  | .word64, .byte => l.byte?.map fun n => .word64 n.toUInt64
  | .word64, .char => l.char?.map fun c => .word64 (UInt64.ofNat c.toNat)
  | .float64, .int32 => l.int32?.map fun n => .float64 (Float64.ofInt32 n)
  | .float64, .single => (l.bits? 8).map fun n => .float64 (Float64.ofSingle (UInt32.ofNat n))
  | .string, .char => l.char?.map fun c => .string (String.singleton c)
  | .bytes, .text => l.text?.map fun s => .bytes s.toUTF8.toList
  | .optInt64, .int64 => l.int64?.map fun n => .optInt64 (some n)
  | _, _ => none

/-- The value of an argument, of the item's own type when `a` names no other. -/
def argument? (t : ValueType) (a : Option ArgumentType) (l : Literal) : Option Value :=
  match a with
  | none => l.value? t
  | some a => l.convert? t a

end Literal

/-- The written form of a value. -/
def Value.literal : Value → Literal
  | bool b => .bool b
  | byte n => .int n.toNat
  | int32 n => .int n.toInt
  | int64 n => .int n.toInt
  | word64 n => .int n.toNat
  | float64 x => .text (Hex.render 16 x.canonical.bits.toNat)
  | string s => .text s
  | bytes bs => .list (bs.map fun b => b.toNat)
  | unit => .null
  | optInt64 none => .null
  | optInt64 (some n) => .int n.toInt
  | counter n => .int n.toInt

end GuardedStore
