import GuardedStore.Proofs.Document.Readers
import GuardedStore.Toml.Document
import Mathlib.Algebra.Group.Nat.Defs

/-!
Every integer in a document that was read has sixty-four bits.

The bound is checked where an integer is read, and from there on integers are only moved about: into
lists and tables, and from one table into another when the sections are put together.
-/
namespace GuardedStore.Toml

open Text (Reader)
open Text.Reader

/-- All integers within have sixty-four bits. -/
inductive Node.Bounded : Node → Prop
  | string (s : String) : Bounded (.string s)
  | integer {n : Int} (fits : fits64 n = true) : Bounded (.integer n)
  | float : Bounded .float
  | boolean (b : Bool) : Bounded (.boolean b)
  | moment : Bounded .moment
  | array {items : List Node} (all : ∀ node ∈ items, Bounded node) : Bounded (.array items)
  | table {origin : Origin} {fields : Fields} (all : ∀ f ∈ fields, Bounded f.2) :
      Bounded (.table origin fields)
  | tables {elements : List Fields} (all : ∀ fields ∈ elements, ∀ f ∈ fields, Bounded f.2) :
      Bounded (.tables elements)

def Fields.Bounded (fields : Fields) : Prop :=
  ∀ f ∈ fields, f.2.Bounded

def Pair.Bounded (p : Pair) : Prop :=
  p.value.Bounded

def Section.Bounded (s : Section) : Prop :=
  ∀ p ∈ s.pairs, p.Bounded

/-! ### Tables -/

theorem Fields.bounded_nil : Fields.Bounded [] := by
  intro f mem
  cases mem

theorem Fields.Bounded.find? {fields : Fields} (bounded : fields.Bounded) {key : String}
    {node : Node} (found : fields.find? key = some node) : node.Bounded := by
  obtain ⟨before, after, rfl, -⟩ := List.lookup_eq_some_iff.mp found
  exact bounded (key, node) (by simp)

theorem Fields.Bounded.put {fields : Fields} (bounded : fields.Bounded) (key : String) {node : Node}
    (held : node.Bounded) : (fields.put key node).Bounded := by
  intro f mem
  rcases List.mem_cons.mp mem with rfl | mem
  · exact held
  · exact bounded f (List.mem_filter.mp mem).1

theorem Fields.Bounded.add? {fields fields' : Fields} (bounded : fields.Bounded) {key : String}
    {node : Node} (held : node.Bounded) (added : fields.add? key node = some fields') :
    fields'.Bounded := by
  unfold Fields.add? at added
  split at added
  · contradiction
  · cases added
    intro f mem
    rcases List.mem_cons.mp mem with rfl | mem
    · exact held
    · exact bounded f mem

/-- A change deep inside keeps the bound if it does so where it is made. -/
theorem updateAt_bounded {dotted : Bool} {change : Origin → Fields → Option Fields}
    (kept : ∀ origin fields fields', fields.Bounded → change origin fields = some fields' →
      fields'.Bounded)
    {path : List String} {origin : Origin} {fields fields' : Fields} (bounded : fields.Bounded)
    (changed : updateAt dotted change path origin fields = some fields') : fields'.Bounded := by
  induction path generalizing origin fields fields' with
  | nil => exact kept origin fields fields' bounded changed
  | cons key path ih =>
    unfold updateAt at changed
    split at changed
    · simp only [Option.map_eq_some_iff] at changed
      obtain ⟨child, inner, rfl⟩ := changed
      exact bounded.put key (.table (ih Fields.bounded_nil inner))
    · next child found =>
      split at changed
      · contradiction
      · simp only [Option.map_eq_some_iff] at changed
        obtain ⟨child', inner, rfl⟩ := changed
        cases bounded.find? found with
        | table held => exact bounded.put key (.table (ih held inner))
    · next last others found =>
      simp only [Option.map_eq_some_iff] at changed
      obtain ⟨last', inner, rfl⟩ := changed
      cases bounded.find? found with
      | tables held =>
        have first := ih (held last List.mem_cons_self) inner
        apply bounded.put key
        constructor
        intro fields mem
        rcases List.mem_cons.mp mem with rfl | mem
        · exact first
        · exact held fields (List.mem_cons_of_mem last mem)
    · contradiction

theorem Pair.addTo?_bounded {p : Pair} (held : p.Bounded) {origin : Origin} {fields fields' : Fields}
    (bounded : fields.Bounded) (added : p.addTo? origin fields = some fields') :
    fields'.Bounded := by
  apply updateAt_bounded _ bounded added
  intro last inner inner' kept changed
  split at changed
  · contradiction
  · exact kept.add? held changed

theorem Fields.addPairs?_bounded {pairs : List Pair} (held : ∀ p ∈ pairs, p.Bounded)
    {fields fields' : Fields} (bounded : fields.Bounded)
    (added : fields.addPairs? pairs = some fields') : fields'.Bounded := by
  unfold Fields.addPairs? at added
  induction pairs generalizing fields with
  | nil =>
    cases added
    exact bounded
  | cons p pairs ih =>
    simp only [List.foldlM_cons, Option.bind_eq_bind, Option.bind_eq_some_iff] at added
    obtain ⟨next, first, added⟩ := added
    exact ih (fun q mem => held q (List.mem_cons_of_mem p mem))
      (p.addTo?_bounded (held p List.mem_cons_self) bounded first) added

theorem Section.place?_bounded {s : Section} (held : s.Bounded) {parent parent' : Fields}
    (bounded : parent.Bounded) (placed : Section.addTo?.place? s parent = some parent') :
    parent'.Bounded := by
  unfold Section.addTo?.place? at placed
  split at placed
  · simp only [Option.bind_eq_bind, Option.bind_eq_some_iff] at placed
    obtain ⟨fields, made, placed⟩ := placed
    cases placed
    exact bounded.put s.key (.table (Fields.addPairs?_bounded held Fields.bounded_nil made))
  · next found =>
    simp only [Option.bind_eq_bind, Option.bind_eq_some_iff] at placed
    obtain ⟨fields, made, placed⟩ := placed
    cases placed
    cases bounded.find? found with
    | table inner => exact bounded.put s.key (.table (Fields.addPairs?_bounded held inner made))
  · simp only [Option.bind_eq_bind, Option.bind_eq_some_iff] at placed
    obtain ⟨fields, made, placed⟩ := placed
    cases placed
    apply bounded.put s.key
    constructor
    intro only mem
    rw [List.mem_singleton.mp mem]
    exact Fields.addPairs?_bounded held Fields.bounded_nil made
  · next elements found =>
    simp only [Option.bind_eq_bind, Option.bind_eq_some_iff] at placed
    obtain ⟨fields, made, placed⟩ := placed
    cases placed
    cases bounded.find? found with
    | tables inner =>
      apply bounded.put s.key
      constructor
      intro element mem
      rcases List.mem_cons.mp mem with rfl | mem
      · exact Fields.addPairs?_bounded held Fields.bounded_nil made
      · exact inner element mem
  · contradiction

theorem document?_bounded {pairs : List Pair} {parts : List Section}
    (held : (∀ p ∈ pairs, p.Bounded) ∧ ∀ s ∈ parts, s.Bounded) {fields : Fields}
    (made : document? pairs parts = some fields) : fields.Bounded := by
  unfold document? at made
  simp only [Option.bind_eq_bind, Option.bind_eq_some_iff] at made
  obtain ⟨root, start, made⟩ := made
  have bounded := Fields.addPairs?_bounded held.1 Fields.bounded_nil start
  have rest := held.2
  clear start held
  induction parts generalizing root with
  | nil =>
    cases made
    exact bounded
  | cons s parts ih =>
    simp only [List.foldlM_cons, Option.bind_eq_bind, Option.bind_eq_some_iff] at made
    obtain ⟨next, first, made⟩ := made
    have placed : next.Bounded :=
      updateAt_bounded
        (fun _ _ _ kept placed => Section.place?_bounded (rest s List.mem_cons_self) kept placed)
        bounded first
    exact ih next made placed fun t mem => rest t (List.mem_cons_of_mem s mem)

/-! ### Readers -/

theorem radix?_bounded {base : Nat} {cs : List Char} {node : Node}
    (read : radix? base cs = some node) : node.Bounded := by
  unfold radix? at read
  simp only [Option.bind_eq_bind, Option.bind_eq_some_iff] at read
  obtain ⟨ds, -, read⟩ := read
  split at read
  · next fits =>
    cases read
    exact .integer fits
  · contradiction

theorem integer?_bounded {cs : List Char} {node : Node} (read : integer? cs = some node) :
    node.Bounded := by
  unfold integer? at read
  split at read
  · exact radix?_bounded read
  · exact radix?_bounded read
  · exact radix?_bounded read
  · simp only [Option.bind_eq_bind, Option.bind_eq_some_iff] at read
    obtain ⟨ds, -, read⟩ := read
    split at read <;> split at read
    all_goals first
      | contradiction
      | next fits =>
        cases read
        exact .integer fits

theorem float?_eq {cs : List Char} {node : Node} (read : float? cs = some node) :
    node = .float := by
  unfold float? at read
  simp only [Option.bind_eq_bind, Option.pure_def] at read
  split at read
  · cases read
    rfl
  · simp only [Option.bind_eq_some_iff] at read
    obtain ⟨ds, -, tail, -, read⟩ := read
    split at read
    · contradiction
    · cases read
      rfl

theorem moment?_eq {cs : List Char} {node : Node} (read : moment? cs = some node) :
    node = .moment := by
  unfold moment? at read
  split at read
  · cases read
    rfl
  all_goals
    split at read
    · cases read
      rfl
    · contradiction

theorem scalar?_bounded {word : List Char} {node : Node} (read : scalar? word = some node) :
    node.Bounded := by
  unfold scalar? at read
  split at read
  · cases read
    exact .boolean true
  split at read
  · cases read
    exact .boolean false
  simp only [Option.or_eq_some_iff] at read
  rcases read with read | ⟨-, read | ⟨-, read⟩⟩
  · exact integer?_bounded read
  · rw [float?_eq read]
    exact .float
  · rw [moment?_eq read]
    exact .moment

theorem scalar_bounded : Yields scalar Node.Bounded := by
  constructor
  intro cs node rest read
  unfold scalar at read
  simp only at read
  split at read
  · split at read
    all_goals
      simp only [Option.map_eq_some_iff, Prod.mk.injEq] at read
      obtain ⟨found, got, rfl, -⟩ := read
      exact scalar?_bounded got
  · simp only [Option.map_eq_some_iff, Prod.mk.injEq] at read
    obtain ⟨found, got, rfl, -⟩ := read
    exact scalar?_bounded got

theorem atom_bounded : Yields atom Node.Bounded := by
  constructor
  intro cs node rest read
  unfold atom at read
  split at read
  · cases read
    exact .string _
  · exact scalar_bounded.answer read

theorem items_bounded {item : Reader Node} (held : Yields item Node.Bounded) (rounds : Nat) :
    Yields (items item rounds) fun nodes => ∀ node ∈ nodes, node.Bounded := by
  induction rounds with
  | zero => exact .refuse
  | succ rounds ih =>
    unfold items
    apply Yields.skip
    intro _
    apply Yields.skip
    intro closed
    apply Yields.ite
    · exact .pure (by simp)
    apply Yields.bind held
    intro first bounded
    apply Yields.skip
    intro _
    apply Yields.skip
    intro more
    apply Yields.ite
    · apply Yields.bind ih
      intro nodes all
      apply Yields.pure
      intro node mem
      rcases List.mem_cons.mp mem with rfl | mem
      · exact bounded
      · exact all node mem
    · apply Yields.skip
      intro _
      apply Yields.pure
      intro node mem
      rw [List.mem_singleton.mp mem]
      exact bounded

theorem pair_bounded {value : Reader Node} (held : Yields value Node.Bounded) :
    Yields (pair value) Pair.Bounded := by
  unfold pair
  apply Yields.skip
  intro ⟨path, key⟩
  apply Yields.skip
  intro _
  apply Yields.skip
  intro _
  apply Yields.skip
  intro _
  apply Yields.bind held
  intro node bounded
  exact .pure bounded

theorem inlinePairs_bounded {value : Reader Node} (held : Yields value Node.Bounded)
    (rounds : Nat) :
    Yields (inlinePairs value rounds) fun pairs => ∀ p ∈ pairs, p.Bounded := by
  induction rounds with
  | zero => exact .refuse
  | succ rounds ih =>
    unfold inlinePairs
    apply Yields.bind (pair_bounded held)
    intro first bounded
    apply Yields.skip
    intro _
    apply Yields.skip
    intro more
    apply Yields.ite
    · apply Yields.skip
      intro _
      apply Yields.bind ih
      intro pairs all
      apply Yields.pure
      intro p mem
      rcases List.mem_cons.mp mem with rfl | mem
      · exact bounded
      · exact all p mem
    · apply Yields.skip
      intro _
      apply Yields.pure
      intro p mem
      rw [List.mem_singleton.mp mem]
      exact bounded

theorem inlineTable_bounded {value : Reader Node} (held : Yields value Node.Bounded) :
    Yields (inlineTable value) Node.Bounded := by
  unfold inlineTable
  apply Yields.skip
  intro _
  apply Yields.skip
  intro closed
  apply Yields.ite
  · exact .pure (.table Fields.bounded_nil)
  apply Yields.skip
  intro n
  apply Yields.bind (inlinePairs_bounded held (n + 1))
  intro pairs all
  split
  · next node made =>
    apply Yields.pure
    unfold inline? at made
    simp only [Option.bind_eq_bind, Option.bind_eq_some_iff] at made
    obtain ⟨fields, added, made⟩ := made
    cases made
    exact .table (Fields.addPairs?_bounded all Fields.bounded_nil added)
  · exact .refuse

theorem value_bounded (depth : Nat) : Yields (value depth) Node.Bounded := by
  induction depth with
  | zero => exact atom_bounded
  | succ depth ih =>
    unfold value
    apply Yields.skip
    intro array
    apply Yields.ite
    · apply Yields.skip
      intro n
      apply Yields.bind (items_bounded ih (n + 1))
      intro nodes all
      exact .pure (.array all)
    · apply Yields.skip
      intro table
      apply Yields.ite
      · exact inlineTable_bounded ih
      · exact atom_bounded

def Line.Bounded : Line → Prop
  | .pair p => p.Bounded
  | .header _ _ _ => True

theorem header_bounded : Yields header Line.Bounded := by
  unfold header
  apply Yields.skip
  intro repeated
  apply Yields.skip
  intro _
  apply Yields.skip
  intro ⟨path, key⟩
  apply Yields.skip
  intro _
  apply Yields.skip
  intro _
  split
  · apply Yields.skip
    intro _
    exact .pure trivial
  · exact .pure trivial

theorem pairLine_bounded : Yields pairLine Line.Bounded := by
  unfold pairLine
  apply Yields.bind (pair_bounded (value_bounded _))
  intro p bounded
  exact .pure bounded

theorem lines_bounded (rounds : Nat) :
    Yields (lines rounds) fun ls => ∀ line ∈ ls, line.Bounded := by
  induction rounds with
  | zero => exact .refuse
  | succ rounds ih =>
    have after (first : Line) (bounded : first.Bounded) :
        Yields (do endOfLine; return first :: (← lines rounds))
          fun ls => ∀ line ∈ ls, line.Bounded := by
      apply Yields.skip
      intro _
      apply Yields.bind ih
      intro later all
      apply Yields.pure
      intro l mem
      rcases List.mem_cons.mp mem with rfl | mem
      · exact bounded
      · exact all l mem
    unfold lines
    apply Yields.skip
    intro _
    apply Yields.skip
    intro done
    apply Yields.ite
    · exact .pure (by simp)
    apply Yields.skip
    intro opened
    apply Yields.ite
    · exact .bind header_bounded after
    · exact .bind pairLine_bounded after

theorem sections_bounded {ls : List Line} (held : ∀ line ∈ ls, line.Bounded) :
    (∀ p ∈ (sections ls).1, p.Bounded) ∧ ∀ s ∈ (sections ls).2, s.Bounded := by
  induction ls with
  | nil => simp [sections]
  | cons line ls ih =>
    obtain ⟨pairs, parts⟩ := ih fun l mem => held l (List.mem_cons_of_mem line mem)
    cases line with
    | pair p =>
      have first : p.Bounded := held (.pair p) List.mem_cons_self
      constructor
      · intro q mem
        rcases List.mem_cons.mp mem with rfl | mem
        · exact first
        · exact pairs q mem
      · exact parts
    | header repeated path key =>
      constructor
      · intro p mem
        cases mem
      · intro s mem
        rcases List.mem_cons.mp mem with rfl | mem
        · exact pairs
        · exact parts s mem

theorem parse?_bounded {s : String} {fields : Fields} (read : parse? s = some fields) :
    fields.Bounded := by
  unfold parse? at read
  simp only [Option.bind_eq_bind, Option.bind_eq_some_iff] at read
  obtain ⟨ls, whole, made⟩ := read
  unfold whole? at whole
  split at whole
  · next got =>
    cases whole
    exact document?_bounded (sections_bounded ((lines_bounded _).answer got)) made
  · contradiction

/-- The parts of a record are bounded with the node they are taken from. -/
theorem Node.Bounded.parts? {node : Node} (bounded : node.Bounded) {names : List String}
    {parts : List (Option Node)} (given : node.parts? names = some parts) {part : Node}
    (mem : some part ∈ parts) : part.Bounded := by
  cases bounded with
  | table all =>
    cases given
    obtain ⟨name, -, found⟩ := List.mem_map.mp mem
    exact Fields.Bounded.find? all found
  | array all =>
    cases given
    obtain ⟨i, -, found⟩ := List.mem_map.mp mem
    exact all part (List.mem_of_getElem? found)
  | tables all =>
    cases given
    obtain ⟨i, -, found⟩ := List.mem_map.mp mem
    obtain ⟨fields, inner, rfl⟩ := List.mem_map.mp (List.mem_of_getElem? found)
    exact .table (all fields (List.mem_reverse.mp inner))
  | moment =>
    cases given
    obtain ⟨name, -, found⟩ := List.mem_map.mp mem
    cases found
  | _ => cases given

/-- A number found in a document that was read is below two to the sixty-third. -/
theorem Node.Bounded.natural? {node : Node} (bounded : node.Bounded) {n : Nat}
    (read : node.natural? = some n) : n < 2 ^ 63 := by
  cases bounded with
  | integer fits =>
    unfold Node.natural? at read
    simp only at read
    split at read
    · cases read
      have upper : Int64.maxValue.toInt = 2 ^ 63 - 1 := by decide
      simp only [fits64, Bool.and_eq_true, decide_eq_true_eq, upper] at fits
      omega
    · contradiction
  | _ => cases read

end GuardedStore.Toml
