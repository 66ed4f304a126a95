import GuardedStore.Proofs.Run.Tally
import GuardedStore.World.Basic

/-!
What an audit is told, set against what became of the accesses to an item.

An audit that stands first in the chain of an item and nowhere else is told of every pass that the
accesses to the item make, and of nothing else. A pass is told of as permitted if it ends in a value
stored or shown, but also if a panic cut it short. The balance is what is told beyond that; it is
even whenever no access is under way.
-/
namespace GuardedStore

namespace Upshot

/-- The phase of the passes that may come to this. -/
def phase : Upshot → Phase
  | vetoed => .write
  | refused | superseded | returned _ => .read

/-- Whether the pass was permitted. -/
def permitted : Upshot → Bool
  | vetoed | refused => false
  | superseded | returned _ => true

def isReturned : Upshot → Bool
  | returned _ => true
  | _ => false

end Upshot

namespace Happening

/-- The aspect is told that a pass of the phase is over, and whether it was permitted. -/
def tells (x : Nat) (phase : Phase) (permitted : Bool) : Happening → Nat
  | told y ph _ b => if y = x ∧ ph = phase ∧ b = permitted then 1 else 0
  | _ => 0

/-- A pass that an access to the item made comes to an end that is permitted or not. -/
def ends (i : Nat) (phase : Phase) (permitted : Bool) : Happening → Nat
  | stored j _ => if j = i ∧ phase = .write ∧ permitted = true then 1 else 0
  | concluded j _ u => if j = i ∧ phase = u.phase ∧ permitted = u.permitted then 1 else 0
  | _ => 0

/-- A panic cuts a pass short that the aspect has admitted. -/
def abandons (x : Nat) (phase : Phase) (permitted : Bool) : Happening → Nat
  | abandoned xs ph _ => if x ∈ xs ∧ ph = phase ∧ permitted = true then 1 else 0
  | _ => 0

/-- What a happening adds to the balance. -/
def due (x i : Nat) (phase : Phase) (permitted : Bool) (y : Happening) : Int :=
  y.tells x phase permitted - y.ends i phase permitted - y.abandons x phase permitted

/-- Whether a happening concerns neither what aspects are told nor how accesses end. -/
def impartial : Happening → Bool
  | abandoned .. | stored .. | concluded .. | told .. | left .. => false
  | _ => true

/-- Whether a happening says what became of an access. -/
def ofAccess : Happening → Bool
  | stored .. | concluded .. => true
  | _ => false

theorem due_of_impartial {y : Happening} (hy : y.impartial) (x i : Nat) (phase : Phase)
    (permitted : Bool) : y.due x i phase permitted = 0 := by
  cases y <;> first | rfl | cases hy

theorem tells_of_impartial {y : Happening} (hy : y.impartial) (x : Nat) (phase : Phase)
    (permitted : Bool) : y.tells x phase permitted = 0 := by
  cases y <;> first | rfl | cases hy

end Happening

/-- How often an aspect was told beyond what ended and what was cut short. -/
def balance (x i : Nat) (phase : Phase) (permitted : Bool) (h : List Happening) : Int :=
  tally (Happening.tells x phase permitted) h - tally (Happening.ends i phase permitted) h -
    tally (Happening.abandons x phase permitted) h

variable {x i : Nat} {phase : Phase} {permitted : Bool}

theorem balance_cons (y : Happening) (h : List Happening) :
    balance x i phase permitted (y :: h) =
      y.due x i phase permitted + balance x i phase permitted h := by
  simp only [balance, tally_cons, Happening.due]
  omega

theorem balance_of_impartial {newer : List Happening} (hn : ∀ y ∈ newer, y.impartial)
    (h : List Happening) :
    balance x i phase permitted (newer ++ h) = balance x i phase permitted h := by
  induction newer with
  | nil => rfl
  | cons y newer ih =>
    rw [List.cons_append, balance_cons, Happening.due_of_impartial (hn y List.mem_cons_self),
      ih fun z hz => hn z (List.mem_cons_of_mem y hz), Int.zero_add]

/-- What an audit at this address counts, by what it was told. -/
def Audit.heard (x : Nat) (h : List Happening) : Audit where
  writes := tally (Happening.tells x .write true) h
  vetoedWrites := tally (Happening.tells x .write false) h
  reads := tally (Happening.tells x .read true) h
  refusedReads := tally (Happening.tells x .read false) h

theorem Audit.heard_told (x : Nat) (phase : Phase) (a : Access) (b : Bool) (h : List Happening) :
    heard x (.told x phase a b :: h) = (heard x h).count phase b := by
  cases phase <;> cases b <;> simp [heard, count, Happening.tells, Nat.add_comm]

/-- What the audit was not told it does not count. -/
theorem Audit.heard_cons {y : Happening} (hy : ∀ phase b, y.tells x phase b = 0)
    (h : List Happening) : heard x (y :: h) = heard x h := by
  simp only [heard, tally_cons, hy, Nat.zero_add]

theorem Audit.heard_append {newer : List Happening}
    (hn : ∀ y ∈ newer, ∀ phase b, y.tells x phase b = 0) (h : List Happening) :
    heard x (newer ++ h) = heard x h := by
  induction newer with
  | nil => rfl
  | cons y newer ih =>
    exact (heard_cons (hn y List.mem_cons_self) _).trans
      (ih fun z hz => hn z (List.mem_cons_of_mem y hz))

theorem Audit.heard_eq_empty {h : List Happening}
    (hn : ∀ phase a b, .told x phase a b ∉ h) : heard x h = {} := by
  have ht (phase : Phase) (b : Bool) : tally (Happening.tells x phase b) h = 0 := by
    refine tally_eq_zero fun y hy => ?_
    cases y with
    | told z ph a c =>
      refine if_neg ?_
      rintro ⟨rfl, -⟩
      exact hn ph a c hy
    | _ => rfl
  simp only [heard, ht]

end GuardedStore
