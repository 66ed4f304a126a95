import GuardedStore.Toml.Document
import GuardedStore.Proofs.Document.Readers
import GuardedStore.Proofs.Document.Texts

/-!
What the reader of a document makes of lines written plainly: a bare key, an equals sign with a
blank on either side and a value, or a bare key between brackets; each ended by a line feed.
-/
namespace GuardedStore.Toml

open Text (Reader)
open Text.Reader

/-! ### Between the lines -/

/-- A character that no gap takes. -/
def Solid (c : Char) : Prop :=
  isBlank c = false ∧ c ≠ '#' ∧ c ≠ '\n' ∧ c ≠ '\r'

theorem blanks_solid {c : Char} (solid : isBlank c = false) (cs : List Char) :
    blanks (c :: cs) = some ((), c :: cs) := by
  simp [blanks, run, solid]

theorem blanks_one {c : Char} (solid : isBlank c = false) (cs : List Char) :
    blanks (' ' :: c :: cs) = some ((), c :: cs) := by
  have blank : isBlank ' ' = true := by decide
  simp [blanks, run, blank, solid]

theorem anyGap_solid {c : Char} (solid : Solid c) (cs : List Char) :
    anyGap (c :: cs) = some ((), c :: cs) := by
  obtain ⟨blank, hash, line, ret⟩ := solid
  simp [anyGap, left, gap, blanks_solid blank, comment, hash, lineEnd, line, ret]

/-- An empty line is part of the gap. -/
theorem anyGap_line (cs : List Char) : anyGap ('\n' :: cs) = anyGap cs := by
  have blank : isBlank '\n' = false := by decide
  simp [anyGap, left, gap, blanks_solid blank, comment, lineEnd]

theorem endOfLine_line (cs : List Char) : endOfLine ('\n' :: cs) = some ((), cs) := by
  have blank : isBlank '\n' = false := by decide
  simp [endOfLine, blanks_solid blank, comment, lineEnd, atEnd]

/-! ### Keys -/

/-- A key that needs no quotes. -/
def Bare (word : List Char) : Prop :=
  word ≠ [] ∧ word.all isBare = true

instance (word : List Char) : Decidable (Bare word) :=
  inferInstanceAs (Decidable (word ≠ [] ∧ word.all isBare = true))

theorem Bare.mem {word : List Char} (bare : Bare word) : ∀ c ∈ word, isBare c = true :=
  List.all_eq_true.mp bare.2

theorem Bare.head {word : List Char} (bare : Bare word) :
    ∃ c cs, word = c :: cs ∧ isBare c = true := by
  obtain ⟨c, cs, rfl⟩ := List.exists_cons_of_ne_nil bare.1
  exact ⟨c, cs, rfl, bare.mem c List.mem_cons_self⟩

/-- A bare character starts neither a gap, nor a quoted key, nor a header. -/
theorem solid_of_isBare {c : Char} (bare : isBare c = true) :
    Solid c ∧ c ≠ '"' ∧ c ≠ '\'' ∧ c ≠ '[' := by
  have apart : ∀ d ∈ [' ', '\t', '#', '\n', '\r', '"', '\'', '['], c ≠ d := by
    intro d mem same
    subst same
    simp only [List.mem_cons, List.not_mem_nil, or_false] at mem
    rcases mem with rfl | rfl | rfl | rfl | rfl | rfl | rfl | rfl <;> exact absurd bare (by decide)
  simp only [List.mem_cons, List.not_mem_nil, or_false, forall_eq_or_imp, forall_eq] at apart
  obtain ⟨space, tab, hash, line, ret, double, single, bracket⟩ := apart
  exact ⟨⟨by simp [isBlank, space, tab], hash, line, ret⟩, double, single, bracket⟩

theorem keyPart_bare {word : List Char} (bare : Bare word) {c : Char} (other : isBare c = false)
    (rest : List Char) :
    keyPart (word ++ c :: rest) = some (String.ofList word, c :: rest) := by
  have unquoted : quoted? (word ++ c :: rest) = none := by
    obtain ⟨d, ds, rfl, plain⟩ := bare.head
    obtain ⟨-, double, single, -⟩ := solid_of_isBare plain
    simp [quoted?, double, single]
  have taken : (word ++ c :: rest).takeWhile isBare = word := by
    rw [List.takeWhile_append_of_pos bare.mem]
    simp [other]
  have dropped : (word ++ c :: rest).dropWhile isBare = c :: rest := by
    rw [List.dropWhile_append_of_pos bare.mem]
    simp [other]
  simp [keyPart, unquoted, taken, dropped, bare.1]

/-- A mark that may stand behind a key. -/
def Mark (c : Char) : Prop :=
  isBlank c = false ∧ isBare c = false ∧ c ≠ '.'

theorem keyParts_mark {c : Char} (mark : Mark c) (rounds : Nat) (rest : List Char) :
    keyParts (rounds + 1) (c :: rest) = some ([], c :: rest) ∧
      keyParts (rounds + 1) (' ' :: c :: rest) = some ([], c :: rest) := by
  obtain ⟨blank, -, point⟩ := mark
  simp [keyParts, blanks_solid blank, blanks_one blank, tryChar, point]

/-- A bare key in front of a mark. A blank between them goes with the key, since another part of the
key might have come. -/
theorem key_bare {word : List Char} (bare : Bare word) {c : Char} (mark : Mark c)
    (rest : List Char) :
    key (word ++ c :: rest) = some (([], String.ofList word), c :: rest) ∧
      key (word ++ ' ' :: c :: rest) = some (([], String.ofList word), c :: rest) := by
  have space : isBare ' ' = false := by decide
  obtain ⟨near, far⟩ := keyParts_mark mark 79 rest
  simp only [key, nesting, bind_apply, keyPart_bare bare mark.2.1, keyPart_bare bare space,
    Option.bind_some, near, far]
  exact ⟨rfl, rfl⟩

/-! ### Values -/

/-- At the end of a line, `text` is read as the value `node`. -/
structure Stands (text : List Char) (node : Node) : Prop where
  start : ∃ c cs, text = c :: cs ∧ isBlank c = false
  read : ∀ rest, value (nesting - 1) (text ++ '\n' :: rest) = some (node, '\n' :: rest)

/-- A value that is not a list or an inline table, at any depth. -/
theorem value_atom (depth : Nat) {c : Char} (plain : c ≠ '[' ∧ c ≠ '\x7b') (cs : List Char) :
    value depth (c :: cs) = atom (c :: cs) := by
  cases depth with
  | zero => simp [value]
  | succ depth => simp [value, tryChar, plain]

theorem stands_text (cs : List Char) :
    Stands (Writer.write cs) (.string (String.ofList cs)) := by
  have start : ∃ c ds, Writer.write cs = c :: ds ∧ isBlank c = false ∧ c ≠ '[' ∧ c ≠ '\x7b' := by
    unfold Writer.write
    split
    all_goals exact ⟨_, _, rfl, by decide⟩
  obtain ⟨c, ds, shape, blank, plain⟩ := start
  refine ⟨⟨c, ds, shape, blank⟩, ?_⟩
  intro rest
  have read := text?_write cs rest
  rw [shape, List.cons_append] at read ⊢
  rw [value_atom _ plain]
  simp [atom, read]

/-- A word at the end of its line is read as a value of one word. -/
theorem stands_word (c : Char) (word : List Char) (plain : (c :: word).all isWordChar = true)
    {node : Node} (known : scalar? (c :: word) = some node) : Stands (c :: word) node := by
  have plain : ∀ d ∈ c :: word, isWordChar d = true := List.all_eq_true.mp plain
  have first : isWordChar c = true := plain c List.mem_cons_self
  have apart : c ≠ '[' ∧ c ≠ '\x7b' ∧ c ≠ '"' ∧ c ≠ '\'' := by
    constructor
    · rintro rfl
      exact absurd first (by decide)
    constructor
    · rintro rfl
      exact absurd first (by decide)
    constructor <;> rintro rfl <;> exact absurd first (by decide)
  have blank : isBlank c = false := by
    cases blank : isBlank c with
    | false => rfl
    | true =>
      simp only [isBlank, Bool.or_eq_true, decide_eq_true_eq] at blank
      rcases blank with rfl | rfl <;> exact absurd first (by decide)
  refine ⟨⟨c, word, rfl, blank⟩, ?_⟩
  intro rest
  have unquoted : text? (c :: word ++ '\n' :: rest) = none := by
    simp [text?, quoted?, apart]
  have taken : (c :: word ++ '\n' :: rest).takeWhile isWordChar = c :: word := by
    rw [List.takeWhile_append_of_pos plain]
    simp [isWordChar, Char.isAlphanum]
  have dropped : (c :: word ++ '\n' :: rest).dropWhile isWordChar = '\n' :: rest := by
    rw [List.dropWhile_append_of_pos plain]
    simp [isWordChar, Char.isAlphanum]
  rw [List.cons_append, value_atom _ ⟨apart.1, apart.2.1⟩, ← List.cons_append]
  simp only [atom, unquoted, scalar, taken, dropped, known]
  rfl

/-! ### Lines -/

theorem pair_bare {word : List Char} (bare : Bare word) (value : Reader Node) {c : Char}
    (solid : isBlank c = false) (cs : List Char) :
    pair value (word ++ ' ' :: '=' :: ' ' :: c :: cs) =
      (value (c :: cs)).map fun read => (⟨[], String.ofList word, read.1⟩, read.2) := by
  have mark : Mark '=' := by
    unfold Mark
    decide
  simp [pair, (key_bare bare mark _).2, blanks_solid mark.1, Reader.char, blanks_one solid]

theorem header_bare {word : List Char} (bare : Bare word) (rest : List Char) :
    header (word ++ ']' :: rest) = some (.header false [] (String.ofList word), rest) := by
  have mark : Mark ']' := by
    unfold Mark
    decide
  have start : tryChar '[' (word ++ ']' :: rest) = some (false, word ++ ']' :: rest) ∧
      blanks (word ++ ']' :: rest) = some ((), word ++ ']' :: rest) := by
    obtain ⟨c, cs, rfl, plain⟩ := bare.head
    obtain ⟨solid, -, -, bracket⟩ := solid_of_isBare plain
    exact ⟨by simp [tryChar, bracket], blanks_solid solid.1 _⟩
  simp [header, start, (key_bare bare mark _).1, blanks_solid mark.1, Reader.char]

theorem lines_line (rounds : Nat) (cs : List Char) :
    lines (rounds + 1) ('\n' :: cs) = lines (rounds + 1) cs := by
  simp [lines, anyGap_line]

theorem lines_end (rounds : Nat) : lines (rounds + 1) [] = some ([], []) := by
  simp [lines, anyGap, left, gap, blanks, run, comment, lineEnd, atEnd]

/-- One pair on a line of its own, and the rest of the document. -/
theorem lines_pair {word text : List Char} (bare : Bare word) {node : Node}
    (stands : Stands text node) (rounds : Nat) (rest : List Char) :
    lines (rounds + 1) (word ++ ' ' :: '=' :: ' ' :: (text ++ '\n' :: rest)) =
      (lines rounds rest).map fun later =>
        (.pair ⟨[], String.ofList word, node⟩ :: later.1, later.2) := by
  obtain ⟨⟨c, cs, rfl, solid⟩, read⟩ := stands
  have line : pairLine (word ++ ' ' :: '=' :: ' ' :: (c :: cs ++ '\n' :: rest)) =
      some (.pair ⟨[], String.ofList word, node⟩, '\n' :: rest) := by
    have first := read rest
    rw [List.cons_append] at first ⊢
    simp [pairLine, pair_bare bare _ solid, first]
  obtain ⟨d, ds, rfl, plain⟩ := bare.head
  obtain ⟨firm, -, -, bracket⟩ := solid_of_isBare plain
  simp only [List.cons_append] at line ⊢
  simp [lines, anyGap_solid firm, atEnd, tryChar, bracket, line, endOfLine_line]

theorem lines_header {word : List Char} (bare : Bare word) (rounds : Nat) (rest : List Char) :
    lines (rounds + 1) ('[' :: word ++ ']' :: '\n' :: rest) =
      (lines rounds rest).map fun later =>
        (.header false [] (String.ofList word) :: later.1, later.2) := by
  have firm : Solid '[' := by
    unfold Solid
    decide
  simp [lines, anyGap_solid firm, atEnd, tryChar, header_bare bare, endOfLine_line]

end GuardedStore.Toml
