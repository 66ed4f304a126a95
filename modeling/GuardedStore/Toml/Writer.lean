import GuardedStore.Text.Hex

/-!
`write` stands for the writer of a TOML library outside this project. What is assumed of it is the
style in which it puts a text into a document: the first of these forms that can hold it as it
stands: double quotes, single quotes, triple double quotes, triple single quotes; and with escapes,
between double quotes, if none can. That such a text can be read back as it was is proved and not
assumed.

A text with a line feed is never put on one line without an escape, and a triple-quoted form then
starts on a line of its own.
-/
namespace GuardedStore.Toml.Writer

/-- A control character other than a tab or a line feed. -/
def isControl (c : Char) : Bool :=
  c ≠ '\t' && c ≠ '\n' && (c.toNat < 0x20 || c.toNat = 0x7f)

/-- The length of the longest run of `q`, given the length of the run read so far. -/
def longestRun (q : Char) : (current : Nat) → List Char → Nat
  | current, [] => current
  | current, c :: cs =>
    if c = q then longestRun q (current + 1) cs else max current (longestRun q 0 cs)

inductive Form where
  | basic
  | literal
  | basicBlock
  | literalBlock
  deriving DecidableEq

def form (cs : List Char) : Form :=
  let control := cs.any isControl
  let backslash := cs.contains '\\'
  let lineFeed := cs.contains '\n'
  let double := longestRun '"' 0 cs
  let single := longestRun '\'' 0 cs
  if !control && !backslash && double = 0 && !lineFeed then .basic
  else if !control && single = 0 && !lineFeed then .literal
  else if !control && !backslash && double ≤ 2 then .basicBlock
  else if !control && single ≤ 2 then .literalBlock
  else if lineFeed then .basicBlock
  else .basic

/-- A character between double quotes; a quote and a line feed are left to the form. -/
def escaped (c : Char) : List Char :=
  if c = '\x08' then ['\\', 'b']
  else if c = '\t' then ['\\', 't']
  else if c = '\x0c' then ['\\', 'f']
  else if c = '\r' then ['\\', 'r']
  else if c = '\\' then ['\\', '\\']
  else if isControl c then '\\' :: 'u' :: (Hex.renderDigits 4 c.toNat).map Char.toUpper
  else [c]

def basicBody : List Char → List Char
  | [] => []
  | c :: cs =>
    (if c = '"' then ['\\', '"'] else if c = '\n' then ['\\', 'n'] else escaped c) ++ basicBody cs

/-- Between triple quotes, after `quotes` quotes in a row; the third of a row is escaped. -/
def blockBody : (quotes : Nat) → List Char → List Char
  | _, [] => []
  | quotes, c :: cs =>
    if c = '"' then
      if quotes = 2 then '\\' :: '"' :: blockBody 0 cs else '"' :: blockBody (quotes + 1) cs
    else if c = '\n' then '\n' :: blockBody 0 cs
    else escaped c ++ blockBody 0 cs

/-- The line feed that opens a text of several lines. -/
def opening (cs : List Char) : List Char :=
  if cs.contains '\n' then ['\n'] else []

/-- The text as a value of a document. -/
def write (cs : List Char) : List Char :=
  match form cs with
  | .basic => '"' :: basicBody cs ++ ['"']
  | .literal => '\'' :: cs ++ ['\'']
  | .basicBlock => ['"', '"', '"'] ++ opening cs ++ blockBody 0 cs ++ ['"', '"', '"']
  | .literalBlock => ['\'', '\'', '\''] ++ opening cs ++ cs ++ ['\'', '\'', '\'']

end GuardedStore.Toml.Writer
