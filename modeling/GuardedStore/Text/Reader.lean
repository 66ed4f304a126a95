/-!
Reading a text from left to right.

A reader takes a run of characters off the front and answers what it read and the rest, or
refuses. The readers here are the ones every grammar starts from; a loop over an unknown number of
parts takes the length of the text as a bound on its rounds.
-/
namespace GuardedStore.Text

abbrev Reader (α : Type) := StateT (List Char) Option α

namespace Reader

def refuse {α : Type} : Reader α := fun _ => none

/-- The next character, left in place. -/
def peek : Reader (Option Char) := fun cs => some (cs.head?, cs)

/-- The next character, if `p` holds of it. -/
def one (p : Char → Bool) : Reader Char
  | c :: cs => if p c then some (c, cs) else none
  | [] => none

def char (c : Char) : Reader Unit
  | d :: cs => if d = c then some ((), cs) else none
  | [] => none

/-- Takes `c` if it comes next, and tells whether it did. -/
def tryChar (c : Char) : Reader Bool
  | d :: cs => if d = c then some (true, cs) else some (false, d :: cs)
  | [] => some (false, [])

/-- The longest run of characters on which `p` holds. -/
def run (p : Char → Bool) : Reader (List Char) := fun cs =>
  some (cs.takeWhile p, cs.dropWhile p)

def atEnd : Reader Bool := fun cs => some (cs.isEmpty, cs)

/-- How many characters are left. -/
def left : Reader Nat := fun cs => some (cs.length, cs)

/-- What the reader makes of the whole text. -/
def whole? {α : Type} (r : Reader α) (cs : List Char) : Option α :=
  match r cs with
  | some (a, []) => some a
  | _ => none

end Reader

end GuardedStore.Text
