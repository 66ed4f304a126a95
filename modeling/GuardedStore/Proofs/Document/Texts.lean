import GuardedStore.Toml.Strings
import GuardedStore.Toml.Writer

/-!
Texts written into a document read back as they were.

The two forms with double quotes escape whatever would not survive, so they hold every text; the two
forms with single quotes hold it as it stands, and only the choice of the form makes them safe. What
is delicate is quotes that touch the delimiters: two quotes may stand in front of the three that
close a block, so a block's reader finds the end of the text early by up to two characters and has
to give them back.
-/
namespace GuardedStore.Toml

open Writer

/-! ### Characters -/

theorem isPlain_of_not_control {c : Char} (control : isControl c = false) (line : c ≠ '\n') :
    isPlain c = true := by
  unfold isControl at control
  unfold isPlain
  by_cases tab : c = '\t'
  · simp [tab]
  · simp [tab, line] at control ⊢
    omega

theorem not_return_of_not_control {c : Char} (control : isControl c = false) : c ≠ '\r' := by
  rintro rfl
  exact absurd control (by decide)

/-- A control character by its number; all of them are below 128. -/
theorem toNat_lt_of_control {c : Char} (control : isControl c = true) : c.toNat < 128 := by
  unfold isControl at control
  simp at control
  omega

/-- Four digits in base sixteen are read as the number they were written for. -/
theorem scalarValue?_renderDigits :
    ∀ n < 128, scalarValue? ((Hex.renderDigits 4 n).map Char.toUpper) = some (Char.ofNat n) := by
  decide +kernel

/-- An escape for a number has exactly four digits behind its letter. -/
theorem renderDigits_four (n : Nat) :
    ∃ a b c d, (Hex.renderDigits 4 n).map Char.toUpper = [a, b, c, d] := by
  have length : ((Hex.renderDigits 4 n).map Char.toUpper).length = 4 := by
    simp [Hex.length_renderDigits]
  match (Hex.renderDigits 4 n).map Char.toUpper, length with
  | [a, b, c, d], _ => exact ⟨a, b, c, d, rfl⟩

/-- What a control character without a letter of its own is written as. -/
theorem control_escape {c : Char} (control : isControl c = true) :
    ∃ p q r s, (Hex.renderDigits 4 c.toNat).map Char.toUpper = [p, q, r, s] ∧
      scalarValue? [p, q, r, s] = some c := by
  obtain ⟨p, q, r, s, digits⟩ := renderDigits_four c.toNat
  have number := scalarValue?_renderDigits c.toNat (toNat_lt_of_control control)
  rw [digits, Char.ofNat_toNat] at number
  exact ⟨p, q, r, s, digits, number⟩

/-- An escaped character is one that a reader of `quote` texts takes in one step, be it on one line
or in a block: it is the character itself, a letter behind a backslash or a number. -/
theorem escaped_cases {c : Char} (quote : c ≠ '"') (line : c ≠ '\n') :
    (escaped c = [c] ∧ isPlain c = true ∧ c ≠ '\\') ∨
      (∃ l, escaped c = ['\\', l] ∧ escape? l = some c ∧ l ≠ 'u' ∧ l ≠ 'U' ∧ l ≠ '\n' ∧
        isBlank l = false ∧ l ≠ '\r') ∨
      ∃ p q r s, escaped c = ['\\', 'u', p, q, r, s] ∧ scalarValue? [p, q, r, s] = some c := by
  by_cases letter : c ∈ ['\x08', '\t', '\x0c', '\r', '\\']
  · right
    left
    simp only [List.mem_cons, List.not_mem_nil, or_false] at letter
    rcases letter with rfl | rfl | rfl | rfl | rfl
    · exact ⟨'b', by decide⟩
    · exact ⟨'t', by decide⟩
    · exact ⟨'f', by decide⟩
    · exact ⟨'r', by decide⟩
    · exact ⟨'\\', by decide⟩
  · simp only [List.mem_cons, List.not_mem_nil, or_false, not_or] at letter
    obtain ⟨backspace, tab, feed, ret, backslash⟩ := letter
    by_cases control : isControl c = true
    · obtain ⟨p, q, r, s, digits, number⟩ := control_escape control
      exact .inr (.inr ⟨p, q, r, s, by simp [escaped, backspace, tab, feed, ret, backslash, control,
        digits], number⟩)
    · left
      have plain := isPlain_of_not_control (by simpa using control) line
      exact ⟨by simp [escaped, backspace, tab, feed, ret, backslash, control], plain, backslash⟩

/-- No escaped character starts with a quote or ends a line. -/
theorem head_escaped {c : Char} (quote : c ≠ '"') (line : c ≠ '\n') :
    ∃ d ds, escaped c = d :: ds ∧ d ≠ '"' ∧ d ≠ '\n' ∧ d ≠ '\r' := by
  obtain ⟨shape, -, -⟩ | ⟨l, shape, -⟩ | ⟨p, q, r, s, shape, -⟩ := escaped_cases quote line
  · refine ⟨c, [], shape, quote, line, ?_⟩
    rintro rfl
    exact absurd shape (by decide)
  · exact ⟨'\\', [l], shape, by decide⟩
  · exact ⟨'\\', ['u', p, q, r, s], shape, by decide⟩

/-! ### One line -/

theorem basic?_escaped {c : Char} (quote : c ≠ '"') (line : c ≠ '\n') (rest : List Char) :
    basic? (escaped c ++ rest) = (basic? rest).map (push c) := by
  obtain ⟨shape, plain, backslash⟩ | ⟨l, shape, letter, u, u', -⟩ | ⟨p, q, r, s, shape, number⟩ :=
    escaped_cases quote line
  · rw [shape]
    simp [basic?, plain, backslash]
  · rw [shape]
    simp [basic?, letter, u, u']
  · rw [shape]
    simp [basic?, number]

theorem basic?_basicBody (cs rest : List Char) :
    basic? (basicBody cs ++ '"' :: rest) = some (cs, rest) := by
  induction cs with
  | nil => simp [basicBody, basic?]
  | cons c cs ih =>
    by_cases quote : c = '"'
    · subst quote
      simp [basicBody, basic?, escape?, ih, push]
    · by_cases line : c = '\n'
      · subst line
        simp [basicBody, basic?, escape?, ih, push]
      · simp only [basicBody, quote, line, if_false, List.append_assoc]
        rw [basic?_escaped quote line, ih]
        rfl

theorem literal?_append {cs : List Char} (fits : ∀ c ∈ cs, isPlain c = true ∧ c ≠ '\'')
    (rest : List Char) : literal? (cs ++ '\'' :: rest) = some (cs, rest) := by
  induction cs with
  | nil => simp [literal?]
  | cons c cs ih =>
    obtain ⟨plain, quote⟩ := fits c List.mem_cons_self
    have tail := ih fun d mem => fits d (List.mem_cons_of_mem c mem)
    simp [literal?, plain, tail, push]

/-! ### Blocks -/

/-- The three quotes that close a block with nothing behind them but the line's end. -/
@[simp]
theorem closing_line (quote : Char) (away : quote ≠ '\n') (rest : List Char) :
    closing quote ('\n' :: rest) = ([], '\n' :: rest) := by
  cases rest <;> simp [closing, away.symm]

@[simp]
theorem closing_one (quote : Char) (away : quote ≠ '\n') (rest : List Char) :
    closing quote (quote :: '\n' :: rest) = ([quote], '\n' :: rest) := by
  simp [closing, away.symm]

@[simp]
theorem closing_two (quote : Char) (rest : List Char) :
    closing quote (quote :: quote :: rest) = ([quote, quote], rest) := by
  simp [closing]

theorem basicBlock?_escaped {c : Char} (quote : c ≠ '"') (line : c ≠ '\n') (rest : List Char) :
    basicBlock? .inText (escaped c ++ rest) = (basicBlock? .inText rest).map (push c) := by
  obtain ⟨shape, plain, backslash⟩ | ⟨l, shape, letter, u, u', end', blank, ret⟩ |
    ⟨p, q, r, s, shape, number⟩ := escaped_cases quote line
  · have ret : c ≠ '\r' := by
      rintro rfl
      exact absurd shape (by decide)
    rw [shape]
    simp [basicBlock?, quote, line, ret, plain, backslash]
  · rw [shape]
    simp [basicBlock?, letter, u, u', end', blank, ret]
  · rw [shape]
    simp [basicBlock?, number]

/-- A quote that is not the first of three belongs to the text. -/
theorem basicBlock?_quote {cs : List Char} (few : ∀ rest, cs ≠ '"' :: '"' :: rest) :
    basicBlock? .inText ('"' :: cs) = (basicBlock? .inText cs).map (push '"') := by
  match cs, few with
  | [], _ => simp [basicBlock?, isPlain]
  | [c], _ => simp [basicBlock?, isPlain]
  | c :: d :: cs, few =>
    by_cases first : c = '"'
    · have second : d ≠ '"' := fun same => few cs (by rw [first, same])
      simp [basicBlock?, isPlain, second]
    · simp [basicBlock?, isPlain, first]

/-- A body that starts with anything but a quote, or comes behind two of them, is not taken for more
quotes. -/
theorem head_blockBody (quotes : Nat) {c : Char} (apart : c = '"' → quotes = 2) (cs : List Char) :
    ∃ d ds, blockBody quotes (c :: cs) = d :: ds ∧ d ≠ '"' := by
  by_cases quote : c = '"'
  · exact ⟨'\\', _, by simp [blockBody, quote, apart quote]; rfl, by decide⟩
  · by_cases line : c = '\n'
    · exact ⟨'\n', _, by simp [blockBody, line]; rfl, by decide⟩
    · obtain ⟨d, ds, shape, other, -⟩ := head_escaped quote line
      exact ⟨d, _, by simp [blockBody, quote, line, shape]; rfl, other⟩

/-- The reader of a block gives back the text, wherever in a row of quotes it is. -/
theorem basicBlock?_blockBody (cs rest : List Char) (quotes : Nat) (row : quotes ≤ 2) :
    basicBlock? .inText (blockBody quotes cs ++ '"' :: '"' :: '"' :: '\n' :: rest) =
      some (cs, '\n' :: rest) := by
  induction cs generalizing quotes with
  | nil => simp [blockBody, basicBlock?]
  | cons c cs ih =>
    by_cases quote : c = '"'
    · subst quote
      by_cases full : quotes = 2
      · simp [blockBody, full, basicBlock?, escape?, isBlank, ih, push]
      · -- the quote is either one of those that touch the closing ones, or stands in the text
        simp only [blockBody, full, if_true, if_false, List.cons_append]
        have next := ih (quotes + 1) (by omega)
        match cs, next with
        | [], _ => simp [blockBody, basicBlock?]
        | d :: ds, next =>
          by_cases second : d = '"' ∧ quotes = 0
          · obtain ⟨rfl, rfl⟩ := second
            match ds, next with
            | [], _ => simp [blockBody, basicBlock?]
            | e :: es, next =>
              obtain ⟨f, fs, shape, other⟩ :=
                head_blockBody 2 (c := e) (fun _ => rfl) es
              rw [basicBlock?_quote, next]
              · rfl
              · simp [blockBody] at shape ⊢
                simp [shape, other]
          · have apart : d = '"' → quotes + 1 = 2 := by
              intro same
              have : quotes ≠ 0 := fun zero => second ⟨same, zero⟩
              omega
            obtain ⟨f, fs, shape, other⟩ := head_blockBody (quotes + 1) apart ds
            rw [basicBlock?_quote, next]
            · rfl
            · simp [shape, other]
    · by_cases line : c = '\n'
      · simp [blockBody, line, basicBlock?, ih, push]
      · simp only [blockBody, quote, line, if_false, List.append_assoc]
        rw [basicBlock?_escaped quote line, ih 0 (Nat.zero_le 2)]
        rfl

theorem le_longestRun (q : Char) (current : Nat) (cs : List Char) :
    current ≤ longestRun q current cs := by
  induction cs generalizing current with
  | nil => exact Nat.le_refl current
  | cons c cs ih =>
    unfold longestRun
    split
    · exact Nat.le_trans (Nat.le_succ current) (ih (current + 1))
    · exact Nat.le_max_left _ _

theorem not_mem_of_longestRun {q : Char} {cs : List Char} (none : longestRun q 0 cs = 0) :
    q ∉ cs := by
  induction cs with
  | nil => exact List.not_mem_nil
  | cons c cs ih =>
    unfold longestRun at none
    split at none
    · have := le_longestRun q (0 + 1) cs
      omega
    · next other =>
      have later : longestRun q 0 cs = 0 := by omega
      simp [Ne.symm other, ih later]

/-- A quote that is not the first of three belongs to the text. -/
theorem literalBlock?_quote {cs : List Char} (few : ∀ rest, cs ≠ '\'' :: '\'' :: rest) :
    literalBlock? ('\'' :: cs) = (literalBlock? cs).map (push '\'') := by
  match cs, few with
  | [], _ => simp [literalBlock?, isPlain]
  | [c], _ => simp [literalBlock?, isPlain]
  | c :: d :: cs, few =>
    by_cases first : c = '\''
    · have second : d ≠ '\'' := fun same => few cs (by rw [first, same])
      simp [literalBlock?, isPlain, second]
    · simp [literalBlock?, isPlain, first]

/-- A text without control characters and without three single quotes in a row, `quotes` of which
have just been read. -/
theorem literalBlock?_append {cs : List Char} (rest : List Char) {quotes : Nat}
    (control : ∀ c ∈ cs, isControl c = false) (row : longestRun '\'' quotes cs ≤ 2) :
    literalBlock? (cs ++ '\'' :: '\'' :: '\'' :: '\n' :: rest) = some (cs, '\n' :: rest) := by
  induction cs generalizing quotes with
  | nil => simp [literalBlock?]
  | cons c cs ih =>
    have fits : ∀ d ∈ cs, isControl d = false := fun d mem => control d (List.mem_cons_of_mem c mem)
    by_cases quote : c = '\''
    · subst quote
      simp only [longestRun, if_true] at row
      have next := ih fits row
      match cs, next, row with
      | [], _, _ => simp [literalBlock?]
      | d :: ds, next, row =>
        by_cases second : d = '\''
        · subst second
          match ds, next, row with
          | [], _, _ => simp [literalBlock?]
          | e :: es, next, row =>
            have third : e ≠ '\'' := by
              rintro rfl
              simp only [longestRun, if_true] at row
              have := le_longestRun '\'' (quotes + 1 + 1 + 1) es
              omega
            rw [List.cons_append, literalBlock?_quote, next]
            · rfl
            · simp [third]
        · rw [List.cons_append, literalBlock?_quote, next]
          · rfl
          · simp [second]
    · simp only [longestRun, quote, if_false] at row
      have next := ih fits (Nat.le_trans (Nat.le_max_right _ _) row)
      by_cases line : c = '\n'
      · simp [literalBlock?, line, next, push]
      · have plain := isPlain_of_not_control (control c List.mem_cons_self) line
        have ret := not_return_of_not_control (control c List.mem_cons_self)
        simp [literalBlock?, quote, ret, plain, next, push]

/-! ### The choice of a form -/

/-- The line feed that opens a text of several lines is dropped again, and nothing else is. -/
theorem dropLineEnd_opening {cs body : List Char}
    (start : '\n' ∉ cs → ∃ d ds, body = d :: ds ∧ d ≠ '\n' ∧ d ≠ '\r') :
    dropLineEnd (opening cs ++ body) = body := by
  by_cases feed : '\n' ∈ cs
  · simp [opening, feed, dropLineEnd]
  · obtain ⟨d, ds, rfl, line, ret⟩ := start feed
    simp [opening, feed, dropLineEnd, line, ret]

theorem text?_basic (cs rest : List Char) :
    text? ('"' :: basicBody cs ++ '"' :: '\n' :: rest) = some (cs, '\n' :: rest) := by
  have single : text? ('"' :: basicBody cs ++ '"' :: '\n' :: rest) =
      basic? (basicBody cs ++ '"' :: '\n' :: rest) := by
    cases cs with
    | nil => simp [basicBody, text?, quoted?]
    | cons c cs =>
      by_cases quote : c = '"'
      · simp [basicBody, quote, text?, quoted?]
      · by_cases line : c = '\n'
        · simp [basicBody, line, text?, quoted?]
        · obtain ⟨d, ds, shape, other, -⟩ := head_escaped quote line
          simp [basicBody, quote, line, shape, text?, quoted?, other]
  rw [single, basic?_basicBody]

theorem text?_literal {cs : List Char} (some' : cs ≠ [])
    (fits : ∀ c ∈ cs, isPlain c = true ∧ c ≠ '\'') (rest : List Char) :
    text? ('\'' :: cs ++ '\'' :: '\n' :: rest) = some (cs, '\n' :: rest) := by
  obtain ⟨c, cs, rfl⟩ := List.exists_cons_of_ne_nil some'
  have single : text? ('\'' :: (c :: cs) ++ '\'' :: '\n' :: rest) =
      literal? (c :: cs ++ '\'' :: '\n' :: rest) := by
    simp [text?, quoted?, (fits c List.mem_cons_self).2]
  rw [single, literal?_append fits]

theorem text?_basicBlock (cs rest : List Char) :
    text? (['"', '"', '"'] ++ opening cs ++ blockBody 0 cs ++ ['"', '"', '"'] ++ '\n' :: rest) =
      some (cs, '\n' :: rest) := by
  have start : '\n' ∉ cs → ∃ d ds,
      blockBody 0 cs ++ '"' :: '"' :: '"' :: '\n' :: rest = d :: ds ∧ d ≠ '\n' ∧ d ≠ '\r' := by
    intro feed
    match cs, feed with
    | [], _ => exact ⟨'"', _, rfl, by decide⟩
    | c :: cs, feed =>
      by_cases quote : c = '"'
      · exact ⟨'"', _, by simp [blockBody, quote]; rfl, by decide⟩
      · have line : c ≠ '\n' := fun same => feed (same ▸ List.mem_cons_self)
        obtain ⟨d, ds, shape, -, apart⟩ := head_escaped quote line
        exact ⟨d, _, by simp [blockBody, quote, line, shape]; rfl, apart⟩
  have block := basicBlock?_blockBody cs rest 0 (Nat.zero_le 2)
  rw [← dropLineEnd_opening start] at block
  simpa [text?] using block

theorem text?_literalBlock {cs : List Char} (control : ∀ c ∈ cs, isControl c = false)
    (row : longestRun '\'' 0 cs ≤ 2) (rest : List Char) :
    text? (['\'', '\'', '\''] ++ opening cs ++ cs ++ ['\'', '\'', '\''] ++ '\n' :: rest) =
      some (cs, '\n' :: rest) := by
  have start : '\n' ∉ cs → ∃ d ds,
      cs ++ '\'' :: '\'' :: '\'' :: '\n' :: rest = d :: ds ∧ d ≠ '\n' ∧ d ≠ '\r' := by
    intro feed
    match cs, feed, control with
    | [], _, _ => exact ⟨'\'', _, rfl, by decide⟩
    | c :: cs, feed, control =>
      exact ⟨c, _, rfl, fun same => feed (same ▸ List.mem_cons_self),
        not_return_of_not_control (control c List.mem_cons_self)⟩
  have block := literalBlock?_append rest control row
  rw [← dropLineEnd_opening start] at block
  simpa [text?] using block

/-- Whatever the text, the form chosen for it gives it back, with what follows on the next line. -/
theorem text?_write (cs rest : List Char) :
    text? (write cs ++ '\n' :: rest) = some (cs, '\n' :: rest) := by
  unfold write
  split
  · simpa using text?_basic cs rest
  · next chosen =>
    obtain ⟨other, control, quote, line⟩ : cs ≠ [] ∧ (∀ c ∈ cs, isControl c = false) ∧
        longestRun '\'' 0 cs = 0 ∧ '\n' ∉ cs := by
      refine ⟨?_, ?_⟩
      · rintro rfl
        exact absurd chosen (by decide)
      · unfold form at chosen
        simp only at chosen
        split at chosen <;> try contradiction
        split at chosen
        · next plain => simpa [List.any_eq_false, and_assoc] using plain
        · split at chosen <;> try contradiction
          split at chosen <;> try contradiction
          split at chosen <;> contradiction
    have fits : ∀ c ∈ cs, isPlain c = true ∧ c ≠ '\'' := by
      intro c mem
      refine ⟨isPlain_of_not_control (control c mem) ?_, ?_⟩
      · rintro rfl
        exact line mem
      · rintro rfl
        exact not_mem_of_longestRun quote mem
    simpa using text?_literal other fits rest
  · simpa using text?_basicBlock cs rest
  · next chosen =>
    obtain ⟨control, row⟩ : (∀ c ∈ cs, isControl c = false) ∧ longestRun '\'' 0 cs ≤ 2 := by
      unfold form at chosen
      simp only at chosen
      split at chosen <;> try contradiction
      split at chosen <;> try contradiction
      split at chosen <;> try contradiction
      split at chosen
      · next plain => simpa [List.any_eq_false] using plain
      · split at chosen <;> contradiction
    simpa using text?_literalBlock control row rest

end GuardedStore.Toml
