import GuardedStore.Proofs.Run.Heaps
import GuardedStore.Proofs.Run.Standing
import GuardedStore.Scenario.Run
import Mathlib.Data.Option.Basic

/-!
Bare runs: what a run comes to when no item has any aspects.

Everything is made bare by a function of its own. A bare step makes its items without aspects, in
the scripts it hands out as well. A bare world has the same items with empty chains, no aspects, and
a history that tells of passes through chains only that they began and that they were left. Whatever
else can be seen of a world is the same as before.
-/
namespace GuardedStore

mutual

/-- The step with every item it leads to made without aspects. -/
def Step.bare : Step → Step
  | .dependent name f g => .dependent name (Step.bareRun f) (Step.bareRun g)
  | .onExecute s label run => .onExecute s label (Step.bareRun run)
  | .create s key name type argument convert _ => .create s key name type argument convert .none
  | s => s

def Step.bareRun : Option (Nat → List Step) → Option (Nat → List Step)
  | some f => some fun n => Step.bareAll (f n)
  | none => none

def Step.bareAll : List Step → List Step
  | [] => []
  | s :: steps => s.bare :: Step.bareAll steps

end

def Script.bare (f : Script) : Script := fun n => (f n).map Step.bare

theorem Step.bareAll_eq (steps : List Step) : Step.bareAll steps = steps.map Step.bare := by
  induction steps with
  | nil => rfl
  | cons s steps ih => rw [Step.bareAll, ih, List.map_cons]

theorem Step.bareRun_eq (run : Option Script) : Step.bareRun run = run.map Script.bare := by
  cases run with
  | none => rfl
  | some f =>
    rw [Step.bareRun, Option.map_some]
    congr 1
    funext n
    exact Step.bareAll_eq (f n)

@[simp] theorem Step.kind_bare (s : Step) : s.bare.kind = s.kind := by
  cases s <;> rfl

def Routine.bare (r : Routine) : Routine :=
  { r with script := r.script.bare }

def Item.bare (i : Item) : Item :=
  { i with chain := [] }

/-- Of an item it is no longer told which aspects it has. -/
def Answer.bare : Answer → Answer
  | item info => item { info with aspects := [] }
  | a => a

/-- What is left of a happening when there are no aspects. -/
def Happening.bare? : Happening → Option Happening
  | made item contents => some (made item contents.bare)
  | began _ phase access => some (began [] phase access)
  | stepDone kind a => some (stepDone kind a.bare)
  | admitted .. | told .. | notice (.audited ..) => none
  | h => some h

namespace World

def bare (w : World) : World :=
  { w with
    items := w.items.map Item.bare
    aspects := {}
    routines := w.routines.map Routine.bare
    history := w.history.filterMap Happening.bare? }

variable (w : World)

theorem store_bare (r : Nat) : w.bare.store r = w.store r := rfl

theorem item_bare (r : Nat) : w.bare.item r = (w.item r).bare :=
  Heap.get_map rfl w.items r

theorem locate_bare (store : Nat) (key : Key) : w.bare.locate store key = w.locate store key := by
  unfold locate
  simp only [item_bare]
  rfl

theorem find?_bare (store : Nat) (type : ValueType) (name : String) :
    w.bare.find? store type name = w.find? store type name := by
  unfold find?
  simp only [item_bare]
  rfl

theorem itemsOf_bare (store : Nat) : w.bare.itemsOf store = (w.itemsOf store).map Item.bare := by
  unfold itemsOf
  rw [List.map_map]
  exact List.map_congr_left fun r _ => w.item_bare r

theorem bare_modifyItem (r : Nat) {f : Item → Item} (hf : ∀ i, (f i).bare = f i.bare) :
    (w.modifyItem r f).bare = w.bare.modifyItem r f := by
  unfold bare modifyItem
  rw [Heap.map_modify rfl hf]

/-- What bare worlds show of a happening is what their histories get. -/
theorem bare_mark (h : Happening) :
    (w.mark h).bare = { w.bare with history := h.bare?.toList ++ w.bare.history } := by
  unfold bare mark
  cases hb : h.bare? <;> simp [hb]

end World

/-- A report of what a bare run does. -/
def Scenario.Report.bare (r : Scenario.Report) : Scenario.Report :=
  ⟨r.answer.bare, r.happenings.filterMap Happening.bare?⟩

end GuardedStore
