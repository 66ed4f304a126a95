import GuardedStore.Text.Reader
import GuardedStore.Toml.Scalar
import GuardedStore.Toml.Strings

/-!
Reading a document: pairs and headers, one to a line, with comments.

`parse?` stands for the reader of a TOML library outside this project. It is assumed to take just
the documents of TOML 1.0, and to refuse those that nest deeper than the library follows. Lists and
inline tables nest less than `nesting` deep, and a dotted key has fewer parts than that. A list may
run over several lines and may end in a comma; an inline table may do neither.
-/
namespace GuardedStore.Toml

open Text (Reader)
open Text.Reader

/-- The bound on lists and inline tables within one another, and on the parts of a key. -/
def nesting : Nat := 80

def blanks : Reader Unit := do
  let _ ← run isBlank

/-- A line end, if one comes next. -/
def lineEnd : Reader Bool
  | '\n' :: cs => some (true, cs)
  | '\r' :: '\n' :: cs => some (true, cs)
  | cs => some (false, cs)

/-- A comment, if one comes next. -/
def comment : Reader Unit
  | '#' :: cs => some ((), cs.dropWhile isPlain)
  | cs => some ((), cs)

/-- Blanks, comments and line ends. -/
def gap : (rounds : Nat) → Reader Unit
  | 0 => pure ()
  | rounds + 1 => do
    blanks
    comment
    if ← lineEnd then gap rounds

/-- A gap of any length. -/
def anyGap : Reader Unit := do
  gap ((← left) + 1)

/-- Blanks and a comment up to the end of the line or of the text. -/
def endOfLine : Reader Unit := do
  blanks
  comment
  if !(← lineEnd) && !(← atEnd) then refuse

def isBare (c : Char) : Bool :=
  c.isAlphanum || c = '-' || c = '_'

/-- One part of a key. -/
def keyPart : Reader String := fun cs =>
  match quoted? cs with
  | some (s, cs) => some (String.ofList s, cs)
  | none =>
    let s := cs.takeWhile isBare
    if s.isEmpty then none else some (String.ofList s, cs.dropWhile isBare)

/-- Further parts of a key, each behind a point. -/
def keyParts : (rounds : Nat) → Reader (List String)
  | 0 => refuse
  | rounds + 1 => do
    blanks
    if ← tryChar '.' then
      blanks
      let part ← keyPart
      return part :: (← keyParts rounds)
    else return []

/-- A key: the path in front of its last part, and that part. -/
def key : Reader (List String × String) := do
  let first ← keyPart
  let parts := first :: (← keyParts nesting)
  if parts.length < nesting then return (parts.dropLast, parts.getLastD first) else refuse

def isWordChar (c : Char) : Bool :=
  c.isAlphanum || c = '+' || c = '-' || c = '.' || c = ':' || c = '_'

/-- A value of one word, or of two when a date and a time of day are parted by a space. -/
def scalar : Reader Node := fun cs =>
  let word := cs.takeWhile isWordChar
  let rest := cs.dropWhile isWordChar
  match rest with
  | ' ' :: d :: _ =>
    if isDate word && isDigit d then
      let time := rest.tail.takeWhile isWordChar
      (scalar? (word ++ ' ' :: time)).map (·, rest.tail.dropWhile isWordChar)
    else (scalar? word).map (·, rest)
  | _ => (scalar? word).map (·, rest)

/-- The items of a list, from its opening bracket to its closing one. -/
def items (item : Reader Node) : (rounds : Nat) → Reader (List Node)
  | 0 => refuse
  | rounds + 1 => do
    anyGap
    if ← tryChar ']' then return []
    let first ← item
    anyGap
    if ← tryChar ',' then return first :: (← items item rounds)
    char ']'
    return [first]

/-- A key and a value with an equals sign between. -/
def pair (value : Reader Node) : Reader Pair := do
  let (path, key) ← key
  blanks
  char '='
  blanks
  return ⟨path, key, ← value⟩

/-- The pairs of an inline table, from the first key to the closing brace. -/
def inlinePairs (value : Reader Node) : (rounds : Nat) → Reader (List Pair)
  | 0 => refuse
  | rounds + 1 => do
    let first ← pair value
    blanks
    if ← tryChar ',' then
      blanks
      return first :: (← inlinePairs value rounds)
    char '}'
    return [first]

/-- An inline table, behind its opening brace. -/
def inlineTable (value : Reader Node) : Reader Node := do
  blanks
  if ← tryChar '\x7d' then return .table .inline []
  match inline? (← inlinePairs value ((← left) + 1)) with
  | some node => return node
  | none => refuse

/-- A text or a value of one word. -/
def atom : Reader Node := fun cs =>
  match text? cs with
  | some (s, cs) => some (.string (String.ofList s), cs)
  | none => scalar cs

/-- A value within which lists and inline tables may still nest `depth` deep. -/
def value : (depth : Nat) → Reader Node
  | 0 => atom
  | depth + 1 => do
    if ← tryChar '[' then return Node.array (← items (value depth) ((← left) + 1))
    if ← tryChar '\x7b' then inlineTable (value depth)
    else atom

/-- A line that says something. -/
inductive Line where
  | pair (p : Pair)
  | header (repeated : Bool) (path : List String) (key : String)

/-- A header, behind its first bracket. -/
def header : Reader Line := do
  let repeated ← tryChar '['
  blanks
  let (path, key) ← key
  blanks
  char ']'
  if repeated then char ']'
  return .header repeated path key

def pairLine : Reader Line := do
  return .pair (← pair (value (nesting - 1)))

/-- The lines of a document that say something. -/
def lines : (rounds : Nat) → Reader (List Line)
  | 0 => refuse
  | rounds + 1 => do
    anyGap
    if ← atEnd then return []
    let line ← if ← tryChar '[' then header else pairLine
    endOfLine
    return line :: (← lines rounds)

/-- The pairs in front of the first header, and the sections. -/
def sections : List Line → List Pair × List Section
  | [] => ([], [])
  | .pair p :: rest =>
    let (pairs, later) := sections rest
    (p :: pairs, later)
  | .header repeated path key :: rest =>
    let (pairs, later) := sections rest
    ([], ⟨repeated, path, key, pairs⟩ :: later)

/-- The fields of a document of TOML 1.0; a byte order mark may stand in front of it. -/
def parse? (s : String) : Option Fields := do
  let cs := match s.toList with
    | '\ufeff' :: cs => cs
    | cs => cs
  let (pairs, later) := sections (← whole? (lines (cs.length + 1)) cs)
  document? pairs later

end GuardedStore.Toml
