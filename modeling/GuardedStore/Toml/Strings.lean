import GuardedStore.Text.Hex

/-!
The four ways of writing a text in a document: between double quotes with escapes, between single
quotes as it stands, and each of the two between triple quotes, over several lines. The rules are
those of TOML 1.0.

Each reader starts behind the opening quotes and answers the text with what follows the closing
ones. Up to two quotes may stand in front of the three that close a text of several lines. A line
end inside such a text is a line feed, however it was written.
-/
namespace GuardedStore.Toml

/-- A character that may stand in a document at all: a tab or no control character. -/
def isPlain (c : Char) : Bool :=
  c = '\t' || (0x20 ≤ c.toNat && c.toNat ≠ 0x7f)

def isBlank (c : Char) : Bool :=
  c = ' ' || c = '\t'

def push (c : Char) (read : List Char × List Char) : List Char × List Char :=
  (c :: read.1, read.2)

/-- The character that a letter behind a backslash stands for. -/
def escape? : Char → Option Char
  | 'b' => some '\x08'
  | 't' => some '\t'
  | 'n' => some '\n'
  | 'f' => some '\x0c'
  | 'r' => some '\r'
  | '"' => some '"'
  | '\\' => some '\\'
  | _ => none

/-- The character with the given number, written in base sixteen. -/
def scalarValue? (ds : List Char) : Option Char := do
  let n ← Hex.read? ds
  if n.isValidChar then some (Char.ofNat n) else none

/-- Between double quotes. -/
def basic? : List Char → Option (List Char × List Char)
  | [] => none
  | '"' :: cs => some ([], cs)
  | '\\' :: 'u' :: a :: b :: c :: d :: cs => do
    let e ← scalarValue? [a, b, c, d]
    (basic? cs).map (push e)
  | '\\' :: 'U' :: a :: b :: c :: d :: a' :: b' :: c' :: d' :: cs => do
    let e ← scalarValue? [a, b, c, d, a', b', c', d']
    (basic? cs).map (push e)
  | '\\' :: c :: cs => do
    let e ← escape? c
    (basic? cs).map (push e)
  | c :: cs => if isPlain c && c ≠ '\\' then (basic? cs).map (push c) else none

/-- Between single quotes. -/
def literal? : List Char → Option (List Char × List Char)
  | [] => none
  | '\'' :: cs => some ([], cs)
  | c :: cs => if isPlain c then (literal? cs).map (push c) else none

/-- The quotes that belong to the text when three quotes have been found, and what follows. -/
def closing (quote : Char) : List Char → List Char × List Char
  | a :: b :: cs =>
    if a = quote then if b = quote then ([quote, quote], cs) else ([quote], b :: cs)
    else ([], a :: b :: cs)
  | [a] => if a = quote then ([quote], []) else ([], [a])
  | [] => ([], [])

/-- Where a reader stands in a text of several lines between double quotes. -/
inductive BlockPlace where
  | inText
  /-- Behind a backslash that only blanks may part from the line's end. -/
  | lineEnd
  /-- Skipping blanks and line ends. -/
  | skipping
  deriving DecidableEq

/-- Between three double quotes. -/
def basicBlock? : BlockPlace → List Char → Option (List Char × List Char)
  | _, [] => none
  | .lineEnd, '\n' :: cs => basicBlock? .skipping cs
  | .lineEnd, '\r' :: '\n' :: cs => basicBlock? .skipping cs
  | .lineEnd, c :: cs => if isBlank c then basicBlock? .lineEnd cs else none
  | .inText, '\\' :: 'u' :: a :: b :: c :: d :: cs
  | .skipping, '\\' :: 'u' :: a :: b :: c :: d :: cs => do
    let e ← scalarValue? [a, b, c, d]
    (basicBlock? .inText cs).map (push e)
  | .inText, '\\' :: 'U' :: a :: b :: c :: d :: a' :: b' :: c' :: d' :: cs
  | .skipping, '\\' :: 'U' :: a :: b :: c :: d :: a' :: b' :: c' :: d' :: cs => do
    let e ← scalarValue? [a, b, c, d, a', b', c', d']
    (basicBlock? .inText cs).map (push e)
  | .inText, '\\' :: c :: cs
  | .skipping, '\\' :: c :: cs =>
    if c = '\n' then basicBlock? .skipping cs
    else if isBlank c || c = '\r' then basicBlock? .lineEnd (c :: cs)
    else do
      let e ← escape? c
      (basicBlock? .inText cs).map (push e)
  | .inText, '"' :: '"' :: '"' :: cs
  | .skipping, '"' :: '"' :: '"' :: cs => some (closing '"' cs)
  | .skipping, '\n' :: cs => basicBlock? .skipping cs
  | .skipping, '\r' :: '\n' :: cs => basicBlock? .skipping cs
  | .inText, '\n' :: cs => (basicBlock? .inText cs).map (push '\n')
  | .inText, '\r' :: '\n' :: cs => (basicBlock? .inText cs).map (push '\n')
  | place, c :: cs =>
    if place = .skipping ∧ isBlank c then basicBlock? .skipping cs
    else if isPlain c && c ≠ '\\' then (basicBlock? .inText cs).map (push c)
    else none

/-- Between three single quotes. -/
def literalBlock? : List Char → Option (List Char × List Char)
  | [] => none
  | '\'' :: '\'' :: '\'' :: cs => some (closing '\'' cs)
  | '\n' :: cs => (literalBlock? cs).map (push '\n')
  | '\r' :: '\n' :: cs => (literalBlock? cs).map (push '\n')
  | c :: cs => if isPlain c then (literalBlock? cs).map (push c) else none

/-- A line end right behind opening triple quotes is not part of the text. -/
def dropLineEnd : List Char → List Char
  | '\n' :: cs => cs
  | '\r' :: '\n' :: cs => cs
  | cs => cs

/-- A text on one line, as a key may also be written. -/
def quoted? : List Char → Option (List Char × List Char)
  | '"' :: cs => basic? cs
  | '\'' :: cs => literal? cs
  | _ => none

/-- A text in any of the four ways. -/
def text? : List Char → Option (List Char × List Char)
  | '"' :: '"' :: '"' :: cs => basicBlock? .inText (dropLineEnd cs)
  | '\'' :: '\'' :: '\'' :: cs => literalBlock? (dropLineEnd cs)
  | cs => quoted? cs

end GuardedStore.Toml
