import GuardedStore.Config.Document
import GuardedStore.Proofs.Document.Bounded
import GuardedStore.Proofs.Document.Lines

/-!
A configuration that is written out and read again is the same configuration.
-/
namespace GuardedStore

namespace Toml

open Text.Reader

/-! ### Decimal numbers -/

theorem isDigit_toDigits {n : Nat} {c : Char} (mem : c ∈ Nat.toDigits 10 n) :
    isDigit c = true ∧ isWordChar c = true := by
  have digit := Nat.isDigit_of_mem_toDigits (by decide) (by decide) mem
  constructor
  · simpa [Char.isDigit, isDigit, Char.le_def] using digit
  · simp [isWordChar, Char.isAlphanum, digit]

theorem ungroup?_digits {ds : List Char} (some' : ds ≠ []) (digits : ∀ c ∈ ds, isDigit c = true) :
    ungroup? isDigit ds = some ds := by
  induction ds with
  | nil => exact absurd rfl some'
  | cons c ds ih =>
    have first := digits c List.mem_cons_self
    match ds, ih with
    | [], _ => simp [ungroup?, first]
    | d :: ds, ih =>
      have second : d ≠ '_' := by
        rintro rfl
        exact absurd (digits '_' (by simp)) (by decide)
      have tail := ih (by simp) fun e mem => digits e (List.mem_cons_of_mem c mem)
      simp [ungroup?, first, second, tail]

/-- Only nought is written with a nought in front. -/
theorem eq_zero_of_head_toDigits {n : Nat} (head : (Nat.toDigits 10 n).head? = some '0') :
    n = 0 := by
  induction n using Nat.strongRecOn with
  | _ n ih =>
    by_cases small : n < 10
    · have only : ∀ k < 10, Nat.digitChar k = '0' → k = 0 := by decide
      rw [Nat.toDigits_of_lt_base small] at head
      exact only n small (Option.some.inj head)
    · have fewer : (Nat.toDigits 10 (n / 10)).head? = some '0' := by
        rw [Nat.toDigits_of_base_le (by decide) (by omega)] at head
        match same : Nat.toDigits 10 (n / 10), head with
        | [], _ => exact absurd same Nat.toDigits_ne_nil
        | d :: ds, head => exact head
      have := ih (n / 10) (by omega) fewer
      omega

theorem ofDigits_toDigits (n : Nat) : ofDigits 10 digit (Nat.toDigits 10 n) = n := by
  calc ofDigits 10 digit (Nat.toDigits 10 n)
      = Nat.ofDigitChars 10 (Nat.toDigits 10 n) 0 := by
        unfold ofDigits Nat.ofDigitChars
        congr
        funext read c
        rw [Nat.mul_comm]
        rfl
    _ = n := Nat.ofDigitChars_toDigits (by decide) (by decide)

theorem integer?_toDigits {n : Nat} (fits : fits64 n = true) :
    integer? (Nat.toDigits 10 n) = some (.integer n) := by
  have digits : ∀ c ∈ Nat.toDigits 10 n, isDigit c = true := fun c mem => (isDigit_toDigits mem).1
  have decimal : decimal? (Nat.toDigits 10 n) = some (Nat.toDigits 10 n) := by
    simp only [decimal?, ungroup?_digits Nat.toDigits_ne_nil digits, Option.bind_eq_bind,
      Option.bind_some]
    rw [if_neg]
    rintro ⟨long, zero⟩
    rw [eq_zero_of_head_toDigits zero] at long
    exact absurd long (by decide)
  have apart : ∀ mark : Char, isDigit mark = false → ∀ cs, Nat.toDigits 10 n ≠ '0' :: mark :: cs := by
    intro mark other cs same
    have := digits mark (by simp [same])
    simp [other] at this
  have unsigned : signed (Nat.toDigits 10 n) = (false, Nat.toDigits 10 n) := by
    unfold signed
    split
    · next cs same =>
      exact absurd (digits '-' (by simp [same])) (by decide)
    · next cs same =>
      exact absurd (digits '+' (by simp [same])) (by decide)
    · rfl
  unfold integer?
  split
  · next cs same => exact absurd same (apart 'x' (by decide) cs)
  · next cs same => exact absurd same (apart 'o' (by decide) cs)
  · next cs same => exact absurd same (apart 'b' (by decide) cs)
  · simp [unsigned, decimal, ofDigits_toDigits, fits]

theorem stands_natural {n : Nat} (fits : fits64 n = true) :
    Stands (Nat.toDigits 10 n) (.integer n) := by
  have digits : ∀ c ∈ Nat.toDigits 10 n, isDigit c = true := fun c mem => (isDigit_toDigits mem).1
  have words : (Nat.toDigits 10 n).all isWordChar = true :=
    List.all_eq_true.mpr fun c mem => (isDigit_toDigits mem).2
  have known : scalar? (Nat.toDigits 10 n) = some (.integer n) := by
    unfold scalar?
    rw [if_neg, if_neg, integer?_toDigits fits]
    · rfl
    · intro same
      exact absurd (digits 'f' (by simp [same])) (by decide)
    · intro same
      exact absurd (digits 't' (by simp [same])) (by decide)
  match shape : Nat.toDigits 10 n, words, known with
  | [], _, _ => exact absurd shape Nat.toDigits_ne_nil
  | c :: cs, words, known => exact stands_word c cs words known

/-- A document without a byte order mark is read as it stands. -/
theorem parse?_of_plain {s : String} (plain : ∀ cs, s.toList ≠ '\ufeff' :: cs) :
    parse? s = (whole? (lines (s.toList.length + 1)) s.toList).bind fun ls =>
      document? (sections ls).1 (sections ls).2 := by
  unfold parse?
  split
  · next cs same => exact absurd same (plain cs)
  · rfl

end Toml

namespace StoreConfig

open Toml (Node)

theorem stands_truth (b : Bool) : Toml.Stands (truth b).toList (.boolean b) := by
  cases b with
  | false => exact Toml.stands_word 'f' ['a', 'l', 's', 'e'] (by decide) rfl
  | true => exact Toml.stands_word 't' ['r', 'u', 'e'] (by decide) rfl

/-- The lines of a rendering. -/
def renderedLines (config : StoreConfig) : List Toml.Line :=
  [.pair ⟨[], "name", .string config.name⟩, .header false [] "aspects",
    .pair ⟨[], "locking", .boolean config.aspects.locking⟩,
    .pair ⟨[], "lock_timeout_ms", .integer config.aspects.lockTimeout.toNat⟩,
    .pair ⟨[], "audit", .boolean config.aspects.audit⟩]

variable {config : StoreConfig}

theorem toList_render {s : String} (rendered : config.render = .ok s) :
    s.toList = "name".toList ++ ' ' :: '=' :: ' ' :: (Toml.Writer.write config.name.toList ++
      '\n' :: '\n' :: ('[' :: "aspects".toList ++ ']' :: '\n' ::
      ("locking".toList ++ ' ' :: '=' :: ' ' :: ((truth config.aspects.locking).toList ++ '\n' ::
      ("lock_timeout_ms".toList ++ ' ' :: '=' :: ' ' ::
        (Nat.toDigits 10 config.aspects.lockTimeout.toNat ++ '\n' ::
      ("audit".toList ++ ' ' :: '=' :: ' ' ::
        ((truth config.aspects.audit).toList ++ '\n' :: [])))))))) := by
  unfold render at rendered
  split at rendered
  · cases rendered
    simp [String.toList_append, ToString.toString, Nat.repr]
  · cases rendered

theorem lines_render {s : String} (rendered : config.render = .ok s) (rounds : Nat) :
    Toml.lines (rounds + 6) s.toList = some (config.renderedLines, []) := by
  have fits : Toml.fits64 config.aspects.lockTimeout.toNat = true := by
    unfold render at rendered
    split at rendered
    · assumption
    · cases rendered
  rw [toList_render rendered,
    Toml.lines_pair (by decide) (Toml.stands_text config.name.toList),
    Toml.lines_line, Toml.lines_header (by decide),
    Toml.lines_pair (by decide) (stands_truth config.aspects.locking),
    Toml.lines_pair (by decide) (Toml.stands_natural fits),
    Toml.lines_pair (by decide) (stands_truth config.aspects.audit), Toml.lines_end]
  simp [renderedLines]

theorem fields_renderedLines :
    Toml.document? (Toml.sections config.renderedLines).1 (Toml.sections config.renderedLines).2 =
      some [("aspects", .table .header
        [("audit", .boolean config.aspects.audit),
          ("lock_timeout_ms", .integer config.aspects.lockTimeout.toNat),
          ("locking", .boolean config.aspects.locking)]), ("name", .string config.name)] := by
  rfl

/-- The document that a configuration is written as describes that configuration. -/
theorem ofDocument?_render {s : String} (rendered : config.render = .ok s) :
    ofDocument? s = some config := by
  have text := toList_render rendered
  have long : 5 ≤ s.toList.length := by
    rw [text]
    simp
  obtain ⟨rounds, length⟩ := Nat.exists_eq_add_of_le long
  have read : Toml.parse? s = some [("aspects", .table .header
        [("audit", .boolean config.aspects.audit),
          ("lock_timeout_ms", .integer config.aspects.lockTimeout.toNat),
          ("locking", .boolean config.aspects.locking)]), ("name", .string config.name)] := by
    have plain : ∀ cs, s.toList ≠ '\ufeff' :: cs := by
      intro cs same
      rw [text] at same
      cases same
    have whole : Text.Reader.whole? (Toml.lines (s.toList.length + 1)) s.toList =
        some config.renderedLines := by
      have all := lines_render rendered rounds
      rw [show s.toList.length + 1 = rounds + 6 by omega]
      simp [Text.Reader.whole?, all]
    rw [Toml.parse?_of_plain plain, whole]
    exact fields_renderedLines
  have aspects : AspectConfig.ofNode? (.table .header
      [("audit", .boolean config.aspects.audit),
        ("lock_timeout_ms", .integer config.aspects.lockTimeout.toNat),
        ("locking", .boolean config.aspects.locking)]) = some config.aspects := by
    simp [AspectConfig.ofNode?, Node.parts?, Toml.Fields.find?, List.lookup_cons, Toml.setting?,
      Node.boolean?, Node.natural?]
  simp [ofDocument?, read, Toml.Fields.find?, List.lookup_cons, Toml.setting?, Node.string?,
    aspects]

theorem parse_render {s : String} (valid : config.aspects.Valid) (rendered : config.render = .ok s) :
    parse s = .ok config := by
  have passed : config.aspects.validate = .ok () := if_pos valid
  simp only [parse, ofDocument?_render rendered, passed]
  rfl

theorem render_of_fits (fits : config.aspects.lockTimeout.toNat < 2 ^ 63) :
    ∃ s, config.render = .ok s := by
  unfold render
  rw [if_pos]
  · exact ⟨_, rfl⟩
  · have bounds : Int64.minValue.toInt = -2 ^ 63 ∧ Int64.maxValue.toInt = 2 ^ 63 - 1 := by decide
    simp only [Toml.fits64, bounds, Bool.and_eq_true, decide_eq_true_eq]
    omega

/-- Whatever a document says, its wait for a lock can be written out again. -/
theorem fits_of_ofNode? {node : Node} (bounded : node.Bounded) {aspects : AspectConfig}
    (read : AspectConfig.ofNode? node = some aspects) : aspects.lockTimeout.toNat < 2 ^ 63 := by
  unfold AspectConfig.ofNode? at read
  simp only [Option.bind_eq_bind, Option.bind_eq_some_iff] at read
  obtain ⟨parts, given, read⟩ := read
  have standard : ({} : AspectConfig).lockTimeout.toNat < 2 ^ 63 := by decide
  split at read
  · next locking timeout audit =>
    simp only [Option.bind_eq_some_iff] at read
    obtain ⟨locking', -, timeout', got, audit', -, same⟩ := read
    cases same
    cases timeout with
    | none =>
      cases got
      exact standard
    | some inner =>
      simp only [Toml.setting?, Option.map_eq_some_iff] at got
      obtain ⟨n, natural, rfl⟩ := got
      have among : some inner ∈ [locking, some inner, audit] := by simp
      have small := (bounded.parts? given among).natural? natural
      rw [UInt64.toNat_ofNat']
      omega
  · cases read

theorem fits_of_ofDocument? {s : String} (read : ofDocument? s = some config) :
    config.aspects.lockTimeout.toNat < 2 ^ 63 := by
  unfold ofDocument? at read
  simp only [Option.bind_eq_bind, Option.bind_eq_some_iff] at read
  have standard : ({} : StoreConfig).aspects.lockTimeout.toNat < 2 ^ 63 := by decide
  obtain ⟨fields, parsed, name, -, aspects, got, same⟩ := read
  cases same
  cases found : fields.find? "aspects" with
  | none =>
    rw [found] at got
    cases got
    exact standard
  | some node =>
    rw [found] at got
    exact fits_of_ofNode? ((Toml.parse?_bounded parsed).find? found) got

theorem of_parse {s : String} (read : parse s = .ok config) :
    ofDocument? s = some config ∧ config.aspects.Valid := by
  unfold parse at read
  split at read
  · cases read
  · next config' described =>
    by_cases valid : config'.aspects.Valid
    · rw [AspectConfig.validate, if_pos valid] at read
      cases read
      exact ⟨described, valid⟩
    · rw [AspectConfig.validate, if_neg valid] at read
      cases read

/-- Rendering a configuration and parsing the document gives it back: any whose protections are
valid and whose wait for a lock has sixty-three bits, under any name; in particular any that was
itself read from a document. -/
theorem render_roundTrip :
    (∀ config : StoreConfig, config.aspects.validate = .ok () →
        config.aspects.lockTimeout.toNat ≤ Int64.maxValue.toInt →
        ∃ s, config.render = .ok s ∧ parse s = .ok config) ∧
      ∀ (s : String) (config : StoreConfig), parse s = .ok config →
        ∃ t, config.render = .ok t ∧ parse t = .ok config := by
  constructor
  · intro config valid fits
    have upper : Int64.maxValue.toInt = 2 ^ 63 - 1 := by decide
    have holds : config.aspects.Valid := by
      unfold AspectConfig.validate at valid
      split at valid
      · assumption
      · cases valid
    have small : config.aspects.lockTimeout.toNat < 2 ^ 63 := by omega
    obtain ⟨s, rendered⟩ := render_of_fits small
    exact ⟨s, rendered, parse_render holds rendered⟩
  · intro s config read
    obtain ⟨described, valid⟩ := of_parse read
    obtain ⟨t, rendered⟩ := render_of_fits (fits_of_ofDocument? described)
    exact ⟨t, rendered, parse_render valid rendered⟩

/-- A name with both kinds of quotes, three in a row of each and one at either end, a backslash and
line ends of both kinds: no form holds it as it stands. -/
def awkward : StoreConfig :=
  { name := "\"'''\\\r\n\"\"\"\"\t\x00'\"" }

theorem render_roundTrip_awkward :
    ∃ s, awkward.render = .ok s ∧ parse s = .ok awkward ∧
      ∃ t, awkward.render = .ok t ∧ parse t = .ok awkward := by
  obtain ⟨s, rendered, read⟩ := render_roundTrip.1 awkward rfl (by decide)
  exact ⟨s, rendered, read, render_roundTrip.2 s awkward read⟩

end StoreConfig


end GuardedStore
