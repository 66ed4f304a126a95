/-!
Documents of nested tables, as configuration files hold them, and the rules by which a table
grows.

The modules under `Toml` stand for a TOML library outside this project. What is assumed of it for
reading is TOML 1.0, and for writing the style that `Writer` describes; nothing here proves that the
library keeps to either.

The rules of TOML 1.0 for tables are these. A table may be named by a header, implied by a header
that names something inside it, opened by a dotted key, or written inline. A header may claim an
implied table once and may pass through any table that is not inline; a dotted key may pass through
tables that no header has named, and the table it ends in must itself be one that a dotted key
opened. No key is given twice.
-/
namespace GuardedStore.Toml

/-- How a table came to be. -/
inductive Origin where
  | header
  | implied
  | dotted
  | inline
  deriving DecidableEq

inductive Node where
  | string (s : String)
  | integer (n : Int)
  | float
  | boolean (b : Bool)
  /-- A date, a time of day, or both. -/
  | moment
  | array (items : List Node)
  | table (origin : Origin) (fields : List (String × Node))
  /-- Tables under one repeated header, last one first. -/
  | tables (elements : List (List (String × Node)))

abbrev Fields := List (String × Node)

namespace Fields

def find? (fields : Fields) (key : String) : Option Node :=
  fields.lookup key

/-- Puts `node` under `key`, in place of what was there. -/
def put (fields : Fields) (key : String) (node : Node) : Fields :=
  (key, node) :: fields.filter fun f => f.1 ≠ key

/-- Puts `node` under a key that is not there yet. -/
def add? (fields : Fields) (key : String) (node : Node) : Option Fields :=
  if (fields.find? key).isSome then none else some ((key, node) :: fields)

end Fields

/-- Changes the table that `path` leads to from a table of the given origin, opening the tables that
are missing on the way. With `dotted` the path is a dotted key's. -/
def updateAt (dotted : Bool) (change : Origin → Fields → Option Fields) :
    (path : List String) → Origin → Fields → Option Fields
  | [], origin, fields => change origin fields
  | key :: path, _, fields =>
    match fields.find? key with
    | none =>
      let origin := if dotted then Origin.dotted else Origin.implied
      (updateAt dotted change path origin []).map fun child => fields.put key (.table origin child)
    | some (.table origin child) =>
      if origin = .inline ∨ (dotted ∧ origin = .header) then none
      else (updateAt dotted change path origin child).map fun child =>
        fields.put key (.table origin child)
    | some (.tables (last :: others)) =>
      (updateAt dotted change path .header last).map fun last =>
        fields.put key (.tables (last :: others))
    | some _ => none

/-- A dotted key and the value given for it. -/
structure Pair where
  path : List String
  key : String
  value : Node

/-- Adds one pair to a table. -/
def Pair.addTo? (p : Pair) (origin : Origin) (fields : Fields) : Option Fields :=
  updateAt true
    (fun last fields =>
      if decide (last = .dotted) = p.path.isEmpty then none else fields.add? p.key p.value)
    p.path origin fields

/-- Adds pairs one after another. -/
def Fields.addPairs? (pairs : List Pair) (fields : Fields) : Option Fields :=
  pairs.foldlM (fun fields p => p.addTo? .header fields) fields

/-- A header with the pairs under it. -/
structure Section where
  /-- Whether the header opens another element of a list of tables. -/
  repeated : Bool
  path : List String
  key : String
  pairs : List Pair

/-- Adds a section to the document. -/
def Section.addTo? (s : Section) (root : Fields) : Option Fields :=
  updateAt false (fun _ parent => place? parent) s.path .header root
where
  place? (parent : Fields) : Option Fields :=
    match s.repeated, parent.find? s.key with
    | false, none => do return parent.put s.key (.table .header (← Fields.addPairs? s.pairs []))
    | false, some (.table .implied fields) => do
      return parent.put s.key (.table .header (← Fields.addPairs? s.pairs fields))
    | true, none => do return parent.put s.key (.tables [← Fields.addPairs? s.pairs []])
    | true, some (.tables elements) => do
      return parent.put s.key (.tables ((← Fields.addPairs? s.pairs []) :: elements))
    | _, _ => none

/-- The document made of the pairs before the first header and of the sections. -/
def document? (pairs : List Pair) (sections : List Section) : Option Fields := do
  sections.foldlM (fun root s => s.addTo? root) (← Fields.addPairs? pairs [])

/-- The inline table made of the pairs in its braces. -/
def inline? (pairs : List Pair) : Option Node := do
  return .table .inline (← Fields.addPairs? pairs [])

namespace Node

/-- The parts of a record of `names.length` fields: a table gives them by name and may hold more, a
list gives them in order and may be short or long, and a moment gives none. -/
def parts? (names : List String) : Node → Option (List (Option Node))
  | table _ fields => some (names.map (Fields.find? fields))
  | array items => some ((List.range names.length).map fun i => items[i]?)
  | tables elements =>
    let items := elements.reverse.map (table .header)
    some ((List.range names.length).map fun i => items[i]?)
  | moment => some (names.map fun _ => none)
  | _ => none

def string? : Node → Option String
  | string s => some s
  | _ => none

def boolean? : Node → Option Bool
  | boolean b => some b
  | _ => none

/-- An integer that is not negative. -/
def natural? : Node → Option Nat
  | integer n => if 0 ≤ n then some n.toNat else none
  | _ => none

end Node

end GuardedStore.Toml
