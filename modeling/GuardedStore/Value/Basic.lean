import GuardedStore.Value.Float64

/-!
The values a guarded item can hold, and their types.

A type is known by a tag, by the name it goes by in diagnostics, and by the room one value takes in
memory; `Value.type` is the type a value belongs to.
-/
namespace GuardedStore

inductive ValueType where
  | bool
  | byte
  | int32
  | int64
  | word64
  | float64
  | string
  | bytes
  | unit
  | optInt64
  | counter
  deriving DecidableEq, Inhabited

namespace ValueType

def all : List ValueType :=
  [bool, byte, int32, int64, word64, float64, string, bytes, unit, optInt64, counter]

/-- The short name by which a type is asked for. -/
def tag : ValueType → String
  | bool => "bool"
  | byte => "u8"
  | int32 => "i32"
  | int64 => "i64"
  | word64 => "u64"
  | float64 => "f64"
  | string => "string"
  | bytes => "bytes"
  | unit => "unit"
  | optInt64 => "opt_i64"
  | counter => "counter"

def ofTag? (tag : String) : Option ValueType :=
  all.find? fun t => t.tag = tag

/-- The name of the type in diagnostics. -/
def name : ValueType → String
  | bool => "bool"
  | byte => "u8"
  | int32 => "i32"
  | int64 => "i64"
  | word64 => "u64"
  | float64 => "f64"
  | string => "alloc::string::String"
  | bytes => "alloc::vec::Vec<u8>"
  | unit => "()"
  | optInt64 => "core::option::Option<i64>"
  | counter => "driver::vals::Counter"

/-- The bytes one value takes in memory, not counting what it refers to. -/
def size : ValueType → Nat
  | bool | byte => 1
  | int32 => 4
  | int64 | word64 | float64 | counter => 8
  | optInt64 => 16
  | string | bytes => 24
  | unit => 0

end ValueType

inductive Value where
  | bool (b : Bool)
  | byte (n : UInt8)
  | int32 (n : Int32)
  | int64 (n : Int64)
  | word64 (n : UInt64)
  | float64 (x : Float64)
  | string (s : String)
  | bytes (bs : List UInt8)
  | unit
  | optInt64 (n : Option Int64)
  | counter (n : Int64)
  deriving DecidableEq, Inhabited

namespace Value

def type : Value → ValueType
  | bool _ => .bool
  | byte _ => .byte
  | int32 _ => .int32
  | int64 _ => .int64
  | word64 _ => .word64
  | float64 _ => .float64
  | string _ => .string
  | bytes _ => .bytes
  | unit => .unit
  | optInt64 _ => .optInt64
  | counter _ => .counter

/-- The number as a value of type `t`, where integers begin again at the end of their range. -/
def ofNat? (t : ValueType) (n : Nat) : Option Value :=
  match t with
  | .byte => some (.byte (UInt8.ofNat n))
  | .int32 => some (.int32 (Int32.ofNat n))
  | .int64 => some (.int64 (Int64.ofNat n))
  | .word64 => some (.word64 (UInt64.ofNat n))
  | .float64 => some (.float64 (Float64.ofInt32 (Int32.ofNat n)))
  | .optInt64 => some (.optInt64 (some (Int64.ofNat n)))
  | .counter => some (.counter (Int64.ofNat n))
  | _ => none

/-- The integer a value stands for, looking inside an optional one. -/
def int? : Value → Option Int
  | byte n => some n.toNat
  | int32 n => some n.toInt
  | int64 n => some n.toInt
  | word64 n => some n.toNat
  | counter n => some n.toInt
  | optInt64 n => n.map Int64.toInt
  | _ => none

/-- The length of a text in encoded bytes, or of a list of bytes. -/
def length? : Value → Option Nat
  | string s => some s.utf8ByteSize
  | bytes bs => some bs.length
  | _ => none

end Value

end GuardedStore
