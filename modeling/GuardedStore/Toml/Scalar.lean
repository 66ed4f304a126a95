import GuardedStore.Text.Hex
import GuardedStore.Toml.Node

/-!
Values of one word: truth values, integers, floats, dates and times.

`scalar?` takes the whole word. The forms are those of TOML 1.0: underscores may stand between
digits; a decimal integer has no leading zero and must fit sixty-four bits; the day must exist in
its month. That a float may not exceed the largest finite double, while one too far below zero is
let through, is assumed of the library.
-/
namespace GuardedStore.Toml

def isDigit (c : Char) : Bool :=
  '0' ≤ c && c ≤ '9'

def digit (c : Char) : Nat :=
  c.toNat - '0'.toNat

/-- The digits of a run in which an underscore may stand between two of them. -/
def ungroup? (p : Char → Bool) : List Char → Option (List Char)
  | [] => none
  | [c] => if p c then some [c] else none
  | c :: '_' :: cs => if p c then (ungroup? p cs).map (c :: ·) else none
  | c :: cs => if p c then (ungroup? p cs).map (c :: ·) else none

/-- The number with the given digits, most significant first. -/
def ofDigits (base : Nat) (value : Char → Nat) (ds : List Char) : Nat :=
  ds.foldl (fun n d => n * base + value d) 0

/-- A sign, if there is one, and the rest. -/
def signed : List Char → Bool × List Char
  | '-' :: cs => (true, cs)
  | '+' :: cs => (false, cs)
  | cs => (false, cs)

def fits64 (n : Int) : Bool :=
  Int64.minValue.toInt ≤ n && n ≤ Int64.maxValue.toInt

/-- Decimal digits, without a zero in front of others. -/
def decimal? (cs : List Char) : Option (List Char) := do
  let ds ← ungroup? isDigit cs
  if 1 < ds.length ∧ ds.head? = some '0' then none else some ds

/-- An integer in base two, eight or sixteen. -/
def radix? (base : Nat) (cs : List Char) : Option Node := do
  let ds ← ungroup? (fun c => (Hex.value? c).any (· < base)) cs
  let n := ofDigits base (fun c => (Hex.value? c).getD 0) ds
  if fits64 n then some (.integer n) else none

def integer? : List Char → Option Node
  | '0' :: 'x' :: cs => radix? 16 cs
  | '0' :: 'o' :: cs => radix? 8 cs
  | '0' :: 'b' :: cs => radix? 2 cs
  | cs => do
    let (negative, cs) := signed cs
    let n : Int := ofDigits 10 digit (← decimal? cs)
    let n := if negative then -n else n
    if fits64 n then some (.integer n) else none

/-- Whether `mantissa · 10 ^ exponent` rounds to a number beyond the largest finite double. -/
def overflows (mantissa : Nat) (exponent : Int) : Bool :=
  let limit := (1 <<< 1024) - (1 <<< 970)
  if mantissa = 0 then false
  else if exponent < 0 then
    -- a mantissa of few digits cannot be too large once divided
    let ds := (Nat.toDigits 10 mantissa).length
    if ds + exponent < 300 then false else limit * Nat.pow 10 exponent.natAbs ≤ mantissa
  else if exponent > 400 then true
  else limit ≤ mantissa * Nat.pow 10 exponent.toNat

/-- The digits after the point, and after the exponent mark, of what follows the integer part. -/
def floatTail? (cs : List Char) : Option (List Char × Int) := do
  let isMark := fun c => c = 'e' || c = 'E'
  let (fraction, rest) ← match cs with
    | '.' :: cs => do
      some (← ungroup? isDigit (cs.takeWhile (!isMark ·)), cs.dropWhile (!isMark ·))
    | cs => some ([], cs)
  match rest with
  | [] => if fraction.isEmpty then none else some (fraction, 0)
  | mark :: cs =>
    if isMark mark then do
      let (negative, cs) := signed cs
      let n : Int := ofDigits 10 digit (← ungroup? isDigit cs)
      some (fraction, if negative then -n else n)
    else none

def float? (cs : List Char) : Option Node := do
  let (negative, cs) := signed cs
  if cs = ['i', 'n', 'f'] ∨ cs = ['n', 'a', 'n'] then return .float
  let whole := cs.takeWhile fun c => isDigit c || c = '_'
  let ds ← decimal? whole
  let (fraction, exponent) ← floatTail? (cs.drop whole.length)
  let mantissa := ofDigits 10 digit (ds ++ fraction)
  if !negative && overflows mantissa (exponent - fraction.length) then none else some .float

def two? : List Char → Option (Nat × List Char)
  | a :: b :: cs => if isDigit a && isDigit b then some (digit a * 10 + digit b, cs) else none
  | _ => none

def daysIn (year month : Nat) : Nat :=
  if month = 2 then
    if year % 4 = 0 ∧ (year % 100 ≠ 0 ∨ year % 400 = 0) then 29 else 28
  else if month = 4 ∨ month = 6 ∨ month = 9 ∨ month = 11 then 30
  else 31

/-- A date at the front, and the rest. -/
def date? (cs : List Char) : Option (List Char) := do
  let (century, cs) ← two? cs
  let (year, cs) ← two? cs
  let (month, cs) ← two? (← hyphen? cs)
  let (day, cs) ← two? (← hyphen? cs)
  if 1 ≤ month ∧ month ≤ 12 ∧ 1 ≤ day ∧ day ≤ daysIn (century * 100 + year) month then some cs
  else none
where
  hyphen? : List Char → Option (List Char)
    | '-' :: cs => some cs
    | _ => none

def colon? : List Char → Option (List Char)
  | ':' :: cs => some cs
  | _ => none

/-- A time of day at the front, with any fraction of a second, and the rest. -/
def time? (cs : List Char) : Option (List Char) := do
  let (hour, cs) ← two? cs
  let (minute, cs) ← two? (← colon? cs)
  let (second, cs) ← two? (← colon? cs)
  if 24 ≤ hour ∨ 60 ≤ minute ∨ 60 < second then none
  match cs with
  | '.' :: cs =>
    let fraction := cs.takeWhile isDigit
    if fraction.isEmpty then none else some (cs.drop fraction.length)
  | cs => some cs

/-- Whether `cs` is nothing, or a distance from universal time. -/
def isOffset : List Char → Bool
  | [] => true
  | ['Z'] => true
  | ['z'] => true
  | sign :: cs =>
    (sign = '+' || sign = '-') &&
      (do
        let (hour, cs) ← two? cs
        let (minute, cs) ← two? (← colon? cs)
        if hour < 24 ∧ minute < 60 then some cs.isEmpty else none : Option Bool) = some true

/-- Whether `cs` is a time of day that a date may stand before. -/
def isDayTime (cs : List Char) : Bool :=
  (time? cs).any isOffset

def isDate (cs : List Char) : Bool :=
  (date? cs).any List.isEmpty

def moment? (cs : List Char) : Option Node :=
  match date? cs with
  | some [] => some .moment
  | some (mark :: cs) =>
    if (mark = 'T' || mark = 't' || mark = ' ') && isDayTime cs then some .moment else none
  | none => if (time? cs).any List.isEmpty then some .moment else none

/-- The value that a whole word stands for. -/
def scalar? (word : List Char) : Option Node :=
  if word = ['t', 'r', 'u', 'e'] then some (.boolean true)
  else if word = ['f', 'a', 'l', 's', 'e'] then some (.boolean false)
  else (integer? word).or <| (float? word).or (moment? word)

end GuardedStore.Toml
