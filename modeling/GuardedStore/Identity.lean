import GuardedStore.Text.Quoted

/-!
Identities of stores and items, and the sources of triggers they make.

A store's identity is either drawn when the store is built or given from outside as a UUID. Drawn
identities are numbered in the order of drawing: two draws never agree, and no draw agrees with a
given one. An item is known within its store by a slot and by how often the slot was vacated
before.
-/
namespace GuardedStore

/-- A 128-bit identifier. -/
structure Uuid where
  bits : BitVec 128
  deriving DecidableEq, Inhabited

namespace Uuid

def zero : Uuid := ⟨0⟩

def digits (u : Uuid) : List Char :=
  Hex.renderDigits 32 u.bits.toNat

/-- The sixteen bytes, most significant first. -/
def bytes (u : Uuid) : List Nat :=
  (List.range 16).map fun i => (u.bits >>> (8 * (15 - i))).toNat % UInt8.size

/-- The kind of identifier: four stands for one made by chance. -/
def version (u : Uuid) : Nat :=
  (u.bits >>> 76).toNat % 16

/-- Digits in groups of 8, 4, 4, 4 and 12 with hyphens between. -/
def hyphenate (ds : List Char) : List Char :=
  ds.take 8 ++ '-' :: (ds.drop 8).take 4 ++ '-' :: (ds.drop 12).take 4 ++ '-' ::
    (ds.drop 16).take 4 ++ '-' :: ds.drop 20

def text (u : Uuid) : String :=
  String.ofList (hyphenate u.digits)

/-- Exactly thirty-two digits. -/
def ofDigits? (cs : List Char) : Option Uuid :=
  if cs.length = 32 then (Hex.read? cs).map fun n => ⟨BitVec.ofNat 128 n⟩ else none

/-- Digits with hyphens in their places. -/
def ofHyphenated? (cs : List Char) : Option Uuid :=
  let ds := cs.filter (· ≠ '-')
  if ds.length = 32 ∧ hyphenate ds = cs then ofDigits? ds else none

/-- The part of `cs` after `start`, whose letters may be of either case. -/
def after? : (start cs : List Char) → Option (List Char)
  | [], cs => some cs
  | s :: ss, c :: cs => if c.toLower = s then after? ss cs else none
  | _ :: _, [] => none

/-- Digits, plain or hyphenated; or the hyphenated form in braces or as a resource name. -/
def ofText? (s : String) : Option Uuid :=
  let cs := s.toList
  (ofDigits? cs).or <| (ofHyphenated? cs).or <| (inBraces? cs).or (asName? cs)
where
  inBraces? (cs : List Char) : Option Uuid :=
    if cs.head? = some '{' ∧ cs.getLast? = some '}' then ofHyphenated? cs.tail.dropLast else none
  asName? (cs : List Char) : Option Uuid := do
    ofHyphenated? (← after? ['u', 'r', 'n', ':', 'u', 'u', 'i', 'd', ':'] cs)

end Uuid

inductive StoreId where
  /-- The identity drawn for the store built as number `n`. -/
  | drawn (n : Nat)
  | given (uuid : Uuid)
  deriving DecidableEq

instance : Inhabited StoreId := ⟨.given .zero⟩

namespace StoreId

/-- The identities of the first `n` draws. -/
def draw (n : Nat) : List StoreId :=
  (List.range n).map drawn

/-- Whether the identity was made by chance; a drawn one always was. -/
def isRandom : StoreId → Bool
  | drawn _ => true
  | given uuid => uuid.version = 4

def text : StoreId → String
  | drawn n => "S" ++ toString n
  | given uuid => uuid.text

def inspect (id : StoreId) : String :=
  "StoreId(" ++ id.text ++ ")"

end StoreId

structure ItemId where
  index : UInt32
  generation : UInt32
  deriving DecidableEq, Inhabited

namespace ItemId

def text (id : ItemId) : String :=
  "item#" ++ toString id.index.toNat ++ "." ++ toString id.generation.toNat

def inspect (id : ItemId) : String :=
  Text.record "ItemId"
    [("index", toString id.index.toNat), ("generation", toString id.generation.toNat)]

/-- By slot first and by generation within a slot. -/
def compare (a b : ItemId) : Ordering :=
  (Ord.compare a.index.toNat b.index.toNat).then
    (Ord.compare a.generation.toNat b.generation.toNat)

end ItemId

/-- What can fire a trigger. -/
inductive Source where
  | item (store : StoreId) (item : ItemId)
  | store (store : StoreId)
  deriving DecidableEq, Inhabited

def Source.text : Source → String
  | .item s i => i.text ++ "@" ++ s.text
  | .store s => "store@" ++ s.text

/-- One firing of a source; `sequence` is the source's own count. -/
structure Event where
  source : Source
  sequence : Nat
  deriving DecidableEq, Inhabited

end GuardedStore
