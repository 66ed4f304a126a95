import GuardedStore.World.Basic

/-!
The record of one pass.

What a history says under one ticket is the record of that pass: the aspects that admitted it, the
one that refused it, whether a panic cut it short, the item it stored a value in, the aspects that
were told it was over, and how it ended. Passes nest in one another, so a record is scattered over
the history; `ofTicket` gathers it.
-/
namespace GuardedStore

/-- The ticket of the pass that a happening belongs to. -/
def Happening.ticket? : Happening → Option Nat
  | .began _ _ a | .admitted _ _ a _ | .abandoned _ _ a | .stored _ a | .told _ _ a _
  | .left a _ => some a.ticket
  | _ => none

/-- What happened under a ticket, latest first. -/
def ofTicket (ticket : Nat) (history : List Happening) : List Happening :=
  history.filter fun h => h.ticket? = some ticket

theorem ofTicket_append (t : Nat) (h h' : List Happening) :
    ofTicket t (h ++ h') = ofTicket t h ++ ofTicket t h' :=
  List.filter_append ..

theorem ofTicket_cons_self {t : Nat} {x : Happening} (hx : x.ticket? = some t)
    (h : List Happening) : ofTicket t (x :: h) = x :: ofTicket t h := by
  rw [ofTicket, List.filter_cons, if_pos (by simpa using hx)]
  rfl

theorem ofTicket_cons_of_ne {t : Nat} {x : Happening} (hx : x.ticket? ≠ some t)
    (h : List Happening) : ofTicket t (x :: h) = ofTicket t h := by
  rw [ofTicket, List.filter_cons, if_neg (by simpa using hx)]
  rfl

theorem mem_ofTicket {t : Nat} {x : Happening} {h : List Happening} :
    x ∈ ofTicket t h ↔ x ∈ h ∧ x.ticket? = some t := by
  simp [ofTicket]

/-- What belongs to no pass is on no record. -/
theorem ofTicket_of_aside {newer : List Happening} (hn : ∀ x ∈ newer, x.ticket? = none) (t : Nat)
    (h : List Happening) : ofTicket t (newer ++ h) = ofTicket t h := by
  rw [ofTicket_append, ofTicket, List.filter_eq_nil_iff.mpr, List.nil_append]
  intro x hx
  simp [hn x hx]

/-- The tickets of the passes that have begun, latest first. -/
def begunTickets (history : List Happening) : List Nat :=
  history.filterMap fun
    | .began _ _ a => some a.ticket
    | _ => none

theorem begunTickets_append (h h' : List Happening) :
    begunTickets (h ++ h') = begunTickets h ++ begunTickets h' :=
  List.filterMap_append ..

theorem begunTickets_cons {x : Happening} (hx : begunTickets [x] = []) (h : List Happening) :
    begunTickets (x :: h) = begunTickets h := by
  rw [← List.singleton_append, begunTickets_append, hx, List.nil_append]

theorem begunTickets_of_aside {newer : List Happening} (hn : ∀ x ∈ newer, x.ticket? = none)
    (h : List Happening) : begunTickets (newer ++ h) = begunTickets h := by
  rw [begunTickets_append, begunTickets, List.filterMap_eq_nil_iff.mpr, List.nil_append]
  intro x hx
  have := hn x hx
  cases x <;> first | rfl | cases this

/-- Who has not answered is missing from the answers. -/
theorem ne_of_shorter {xs chain : List Nat} {y : Nat} (h : xs ++ [y] <+: chain) : xs ≠ chain := by
  rintro rfl
  have := h.length_le
  simp only [List.length_append, List.length_singleton] at this
  omega

structure PassRecord where
  chain : List Nat
  phase : Phase
  access : Access
  /-- The aspects that admitted the pass, last one first. -/
  entered : List Nat := []
  refusedBy : Option Nat := none
  /-- Whether a panic came out of asking the next aspect. -/
  abandoned : Bool := false
  /-- The item that the value was stored in. -/
  stored : Option Nat := none
  /-- The aspects that were told, first one first. -/
  told : List Nat := []
  /-- Whether all of them were told. -/
  left : Option Bool := none

namespace PassRecord

def pass (r : PassRecord) : Pass :=
  { phase := r.phase, access := r.access, entered := r.entered, refusedBy := r.refusedBy }

def permitted (r : PassRecord) : Bool :=
  r.refusedBy.isNone

/-- Every aspect of the chain has answered, up to the first refusal. -/
def Whole (r : PassRecord) : Prop :=
  r.refusedBy = none → r.entered.reverse = r.chain

/-- The end of the pass has begun. -/
def Ending (r : PassRecord) : Prop :=
  r.told ≠ [] ∨ r.left ≠ none

/-- The record as it stands in the history, latest first. -/
def happenings (r : PassRecord) : List Happening :=
  r.left.toList.map (.left r.access) ++
    (r.told.reverse.map (.told · r.phase r.access r.permitted) ++
      (r.stored.toList.map (.stored · r.access) ++
        ((if r.abandoned then [.abandoned r.entered r.phase r.access] else []) ++
          (r.refusedBy.toList.map (.admitted · r.phase r.access false) ++
            (r.entered.map (.admitted · r.phase r.access true) ++
              [.began r.chain r.phase r.access])))))

/-- What the record of every pass is like, at any moment. -/
structure Lawful (r : PassRecord) : Prop where
  asked : r.entered.reverse ++ r.refusedBy.toList <+: r.chain
  abandoned : r.abandoned → r.refusedBy = none ∧ ∃ x, r.entered.reverse ++ [x] <+: r.chain
  stored : r.stored.isSome → r.phase = .write ∧ r.refusedBy = none ∧ r.entered.reverse = r.chain
  told : r.told <+: r.entered
  complete : r.left = some true → r.told = r.entered
  incomplete : r.left = some false → r.told ≠ []

/-- A pass that a panic cut short has not been answered by all. -/
theorem Lawful.unanswered {r : PassRecord} (hr : r.Lawful) (ha : r.abandoned) :
    r.refusedBy = none ∧ r.entered.reverse ≠ r.chain := by
  obtain ⟨hn, x, hx⟩ := hr.abandoned ha
  exact ⟨hn, ne_of_shorter hx⟩

theorem admitted_mem {r : PassRecord} {x : Nat} {phase : Phase} {a : Access} :
    .admitted x phase a true ∈ r.happenings ↔ x ∈ r.entered ∧ phase = r.phase ∧ a = r.access := by
  simp [happenings]
  grind

theorem refused_mem {r : PassRecord} {x : Nat} {phase : Phase} {a : Access} :
    .admitted x phase a false ∈ r.happenings ↔
      r.refusedBy = some x ∧ phase = r.phase ∧ a = r.access := by
  simp [happenings]
  grind

theorem told_mem {r : PassRecord} {x : Nat} {phase : Phase} {a : Access} {b : Bool} :
    .told x phase a b ∈ r.happenings ↔
      x ∈ r.told ∧ phase = r.phase ∧ a = r.access ∧ b = r.permitted := by
  simp [happenings]
  grind

theorem abandoned_mem {r : PassRecord} {xs : List Nat} {phase : Phase} {a : Access} :
    .abandoned xs phase a ∈ r.happenings ↔
      r.abandoned ∧ xs = r.entered ∧ phase = r.phase ∧ a = r.access := by
  cases h : r.abandoned <;> simp [happenings, h]

theorem stored_mem {r : PassRecord} {i : Nat} {a : Access} :
    .stored i a ∈ r.happenings ↔ r.stored = some i ∧ a = r.access := by
  simp [happenings]
  grind

theorem left_mem {r : PassRecord} {a : Access} {b : Bool} :
    .left a b ∈ r.happenings ↔ r.left = some b ∧ a = r.access := by
  simp [happenings]
  grind

theorem began_mem {r : PassRecord} {chain : List Nat} {phase : Phase} {a : Access} :
    .began chain phase a ∈ r.happenings ↔ chain = r.chain ∧ phase = r.phase ∧ a = r.access := by
  simp [happenings]

end PassRecord

end GuardedStore
