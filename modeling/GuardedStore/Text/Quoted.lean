import GuardedStore.Text.Hex
import GuardedStore.Text.Unprintable

/-!
Texts as diagnostics show them: between double quotes, with a backslash before a quote or a
backslash, the usual letters for tab, line feed, carriage return and NUL, and the code point in
braces for any other character that would not show as itself.
-/
namespace GuardedStore.Text

def isControl (c : Char) : Bool :=
  c.toNat < 0x20 || c.toNat = 0x7f

/-- Base sixteen without leading zeros. -/
def shortHex (n : Nat) : String :=
  Hex.render (n.log2 / 4 + 1) n

def quoteChar (c : Char) : String :=
  if c = '"' then "\\\""
  else if c = '\\' then "\\\\"
  else if c = '\n' then "\\n"
  else if c = '\t' then "\\t"
  else if c = '\r' then "\\r"
  else if c.toNat = 0 then "\\0"
  else if isControl c || (0x80 ≤ c.toNat && Unprintable.contains c) then
    "\\u\x7b" ++ shortHex c.toNat ++ "\x7d"
  else String.singleton c

def quoted (s : String) : String :=
  "\"" ++ s.toList.foldl (fun t c => t ++ quoteChar c) "" ++ "\""

/-- A list of texts, each quoted. -/
def quotedList (ss : List String) : String :=
  "[" ++ ", ".intercalate (ss.map quoted) ++ "]"

/-- A record's name and its fields, each already written out. -/
def record (name : String) (fields : List (String × String)) : String :=
  name ++ " \x7b " ++ ", ".intercalate (fields.map fun f => f.1 ++ ": " ++ f.2) ++ " \x7d"

end GuardedStore.Text
