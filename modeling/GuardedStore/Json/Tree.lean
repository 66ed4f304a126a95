import GuardedStore.Text.Hex
import GuardedStore.Text.Reader

/-!
Reading the interchange notation of nested lists and objects.

A tree keeps what a decoder can still object to: the fields of an object in order, repeated ones
included, whether a number was written as an integer, and whether the escapes of a text name
characters at all. `parse?` refuses only what breaks the grammar.
-/
namespace GuardedStore.Json

open Text (Reader)
open Text.Reader

inductive Tree where
  | null
  | boolean (b : Bool)
  | integer (n : Int)
  /-- A number not written as an integer. -/
  | number
  /-- A text, or `none` when an escape in it names half a character. -/
  | text (s : Option String)
  | list (items : List Tree)
  | object (fields : List (Option String × Tree))

/-- A character of a text, or a sixteen-bit unit given by number. -/
inductive Piece where
  | char (c : Char)
  | unit (n : Nat)

/-- The characters that the pieces name; a unit of the upper half pairs with one of the lower. -/
def join? : List Piece → Option (List Char)
  | [] => some []
  | .char c :: ps => (join? ps).map (c :: ·)
  | .unit hi :: ps =>
    if hi < 0xd800 ∨ 0xe000 ≤ hi then (join? ps).map (Char.ofNat hi :: ·)
    else match ps with
      | .unit lo :: ps =>
        if hi < 0xdc00 ∧ 0xdc00 ≤ lo ∧ lo < 0xe000 then
          (join? ps).map (Char.ofNat (0x10000 + (hi - 0xd800) * 0x400 + (lo - 0xdc00)) :: ·)
        else none
      | _ => none

/-- The character that a letter behind a backslash stands for. -/
def escape? : Char → Option Char
  | '"' => some '"'
  | '\\' => some '\\'
  | '/' => some '/'
  | 'b' => some '\x08'
  | 'f' => some '\x0c'
  | 'n' => some '\n'
  | 'r' => some '\r'
  | 't' => some '\t'
  | _ => none

/-- A text behind its opening quote, up to its closing one. -/
def pieces : Reader (List Piece)
  | [] => none
  | '"' :: cs => some ([], cs)
  | '\\' :: 'u' :: a :: b :: c :: d :: cs => do
    let n ← Hex.read? [a, b, c, d]
    let (ps, rest) ← pieces cs
    some (.unit n :: ps, rest)
  | '\\' :: c :: cs => do
    let e ← escape? c
    let (ps, rest) ← pieces cs
    some (.char e :: ps, rest)
  | c :: cs =>
    if 0x20 ≤ c.toNat ∧ c ≠ '\\' then do
      let (ps, rest) ← pieces cs
      some (.char c :: ps, rest)
    else none

/-- A text behind its opening quote. -/
def text : Reader (Option String) := do
  return (join? (← pieces)).map String.ofList

def isSpace (c : Char) : Bool :=
  c = ' ' || c = '\n' || c = '\t' || c = '\r'

def spaces : Reader Unit := do
  let _ ← run isSpace

def word (cs : List Char) : Reader Unit :=
  cs.forM char

def digits : Reader (List Char) := do
  let ds ← run Char.isDigit
  if ds.isEmpty then refuse else return ds

/-- A number; minus zero does not count as an integer. -/
def number : Reader Tree := do
  let negative ← tryChar '-'
  let ds ← digits
  if 1 < ds.length ∧ ds.head? = some '0' then refuse
  let fraction ← tryChar '.'
  if fraction then
    let _ ← digits
  let exponent := (← peek).any fun c => c = 'e' || c = 'E'
  if exponent then
    let _ ← one fun _ => true
    if !(← tryChar '+') then
      let _ ← tryChar '-'
    let _ ← digits
  let n : Int := ds.foldl (fun n d => n * 10 + (d.toNat - '0'.toNat)) 0
  if fraction ∨ exponent ∨ (negative ∧ n = 0) then return .number
  return .integer (if negative then -n else n)

/-- The items of a list that is not empty, up to its closing bracket. -/
def items (value : Reader Tree) : (rounds : Nat) → Reader (List Tree)
  | 0 => refuse
  | rounds + 1 => do
    let first ← value
    spaces
    if ← tryChar ',' then return first :: (← items value rounds)
    char ']'
    return [first]

/-- The fields of an object that is not empty, up to its closing brace. -/
def fields (value : Reader Tree) : (rounds : Nat) → Reader (List (Option String × Tree))
  | 0 => refuse
  | rounds + 1 => do
    spaces
    char '"'
    let name ← text
    spaces
    char ':'
    let first ← value
    spaces
    if ← tryChar ',' then return (name, first) :: (← fields value rounds)
    char '\x7d'
    return [(name, first)]

/-- A value with the spaces in front of it; `depth` bounds the lists and objects in one another. -/
def value : (depth : Nat) → Reader Tree
  | 0 => refuse
  | depth + 1 => do
    spaces
    match ← peek with
    | some '"' => do
      char '"'
      return .text (← text)
    | some '[' => do
      char '['
      spaces
      if ← tryChar ']' then return .list []
      return .list (← items (value depth) ((← left) + 1))
    | some '\x7b' => do
      char '\x7b'
      spaces
      if ← tryChar '\x7d' then return .object []
      return .object (← fields (value depth) ((← left) + 1))
    | some 'n' => do
      word ['n', 'u', 'l', 'l']
      return .null
    | some 't' => do
      word ['t', 'r', 'u', 'e']
      return .boolean true
    | some 'f' => do
      word ['f', 'a', 'l', 's', 'e']
      return .boolean false
    | _ => number

/-- The tree of a whole text. -/
def parse? (s : String) : Option Tree :=
  let cs := s.toList
  whole? (do let tree ← value (cs.length + 1); spaces; return tree) cs

namespace Tree

/-- The fields of an object under `name`. -/
def under (fields : List (Option String × Tree)) (name : String) : List Tree :=
  (fields.filter fun f => f.1 = some name).map (·.2)

/-- The parts of a record with the given fields: an object gives each at most once, in any order,
and may hold others; a list gives them in order and may be short. Every name must be readable. -/
def parts? (names : List String) : Tree → Option (List (Option Tree))
  | object fields =>
    if fields.any (·.1.isNone) then none
    else names.mapM fun name =>
      match under fields name with
      | [] => some none
      | [tree] => some (some tree)
      | _ => none
  | list items =>
    if items.length ≤ names.length then
      some ((List.range names.length).map fun i => items[i]?)
    else none
  | _ => none

def text? : Tree → Option String
  | text s => s
  | _ => none

def boolean? : Tree → Option Bool
  | boolean b => some b
  | _ => none

/-- An integer from zero up to, not including, `bound`. -/
def natural? (bound : Nat) : Tree → Option Nat
  | integer n => if 0 ≤ n ∧ n < bound then some n.toNat else none
  | _ => none

end Tree

end GuardedStore.Json
