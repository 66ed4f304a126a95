import GuardedStore.Proofs.Estate.Registry

/-!
The whole life of an arena.

An arena is filled, emptied and drained in any order. The deeds, which are the moves that took
effect, tell by themselves which ids were given out and what each of them leads to, and the arena
agrees with them: no id is given out twice, an id leads to its item from when it is given out until
the item is removed or drained, and to nothing ever after.
-/
namespace GuardedStore.Arena

variable {α : Type}

/-- What is done with an arena. An item is built for the id that it will have. -/
inductive Move (α : Type) where
  | insert (build : ItemId → α)
  | remove (id : ItemId)
  | drain

/-- A move that took effect. -/
inductive Deed (α : Type) where
  | inserted (id : ItemId) (x : α)
  | removed (id : ItemId)
  | drained

/-- How many insertions there are, those included that find no slot. -/
def Move.insertions : List (Move α) → Nat
  | [] => 0
  | .insert _ :: moves => insertions moves + 1
  | _ :: moves => insertions moves

theorem Move.insertions_append (moves later : List (Move α)) :
    insertions (moves ++ later) = insertions moves + insertions later := by
  induction moves with
  | nil => exact (Nat.zero_add _).symm
  | cons m moves ih =>
    cases m with
    | insert build =>
      rw [List.cons_append, insertions, insertions, ih]
      omega
    | remove id => exact ih
    | drain => exact ih

namespace Deed

/-- The ids that were given out, the last one first. -/
def issued : List (Deed α) → List ItemId
  | [] => []
  | .inserted id _ :: deeds => id :: issued deeds
  | _ :: deeds => issued deeds

/-- The item that was inserted under an id, unless it was removed or drained since. -/
def held (id : ItemId) : List (Deed α) → Option α
  | [] => none
  | .inserted id' x :: deeds => if id = id' then some x else held id deeds
  | .removed id' :: deeds => if id = id' then none else held id deeds
  | .drained :: _ => none

theorem issued_append (deeds older : List (Deed α)) :
    issued (deeds ++ older) = issued deeds ++ issued older := by
  induction deeds with
  | nil => rfl
  | cons d deeds ih =>
    cases d with
    | inserted id x => exact congrArg (id :: ·) ih
    | removed id => exact ih
    | drained => exact ih

/-- An id that leads to nothing does so until it is given out again. -/
theorem held_append {id : ItemId} {deeds older : List (Deed α)} (hid : id ∉ issued deeds)
    (h : held id older = none) : held id (deeds ++ older) = none := by
  induction deeds with
  | nil => exact h
  | cons d deeds ih =>
    cases d with
    | inserted id' x =>
      rw [List.cons_append, held, if_neg (List.ne_of_not_mem_cons hid)]
      exact ih (List.not_mem_of_not_mem_cons hid)
    | removed id' =>
      rw [List.cons_append, held, ih hid, ite_self]
    | drained => rfl

end Deed

open Move (insertions)
open Deed (issued issued_append held held_append)

/-- An arena and the deeds that made it what it is, the last one first. -/
structure Used (α : Type) where
  arena : Arena α := {}
  deeds : List (Deed α) := []

namespace Used

variable {u : Used α}

def move (u : Used α) : Move α → Used α
  | .insert build =>
    match u.arena.insert? build with
    | some (id, b) => ⟨b, .inserted id (build id) :: u.deeds⟩
    | none => u
  | .remove id =>
    match u.arena.remove? id with
    | some (_, b) => ⟨b, .removed id :: u.deeds⟩
    | none => u
  | .drain => ⟨u.arena.drain.2, .drained :: u.deeds⟩

def run (u : Used α) (moves : List (Move α)) : Used α :=
  moves.foldl move u

/-- What a move comes to: it takes effect, or it finds no slot or no item and changes nothing. -/
inductive Moves (u : Used α) : Move α → Used α → Prop where
  | inserted {build id b} : u.arena.reserve? = some (id, b) →
    Moves u (.insert build) ⟨b.fill id (build id), .inserted id (build id) :: u.deeds⟩
  | full {build} : u.arena.reserve? = none → Moves u (.insert build) u
  | removed {id x b} : u.arena.remove? id = some (x, b) →
    Moves u (.remove id) ⟨b, .removed id :: u.deeds⟩
  | missed {id} : u.arena.remove? id = none → Moves u (.remove id) u
  | drained : Moves u .drain ⟨u.arena.drain.2, .drained :: u.deeds⟩

theorem moves (u : Used α) (m : Move α) : u.Moves m (u.move m) := by
  cases m with
  | insert build =>
    rw [move, insert?]
    cases hr : u.arena.reserve? with
    | none => exact .full hr
    | some r => exact .inserted hr
  | remove id =>
    rw [move]
    cases hr : u.arena.remove? id with
    | none => exact .missed hr
    | some r => exact .removed hr
  | drain => exact .drained

/-- A deed is added to those before, unless nothing happened, and only an insertion gives out an
id. -/
theorem move_deeds (u : Used α) (m : Move α) : ∃ deeds, (u.move m).deeds = deeds ++ u.deeds ∧
    (issued deeds).length ≤ insertions [m] := by
  have h := u.moves m
  generalize u.move m = v at h
  cases h with
  | inserted _ => exact ⟨[_], rfl, Nat.le_refl _⟩
  | full _ => exact ⟨[], rfl, Nat.zero_le _⟩
  | removed _ => exact ⟨[_], rfl, Nat.le_refl _⟩
  | missed _ => exact ⟨[], rfl, Nat.le_refl _⟩
  | drained => exact ⟨[_], rfl, Nat.le_refl _⟩

theorem run_deeds (u : Used α) (moves : List (Move α)) :
    ∃ deeds, (u.run moves).deeds = deeds ++ u.deeds ∧
      (issued deeds).length ≤ insertions moves := by
  induction moves generalizing u with
  | nil => exact ⟨[], rfl, Nat.le_refl _⟩
  | cons m moves ih =>
    obtain ⟨first, hf, hm⟩ := u.move_deeds m
    obtain ⟨deeds, hd, hn⟩ := ih (u.move m)
    refine ⟨deeds ++ first, ?_, ?_⟩
    · rw [List.append_assoc, ← hf]
      exact hd
    · rw [issued_append, List.length_append, ← List.singleton_append, Move.insertions_append]
      omega

/-- The arena is in order, and agrees with its deeds. -/
structure Kept (u : Used α) : Prop where
  wellFormed : u.arena.WellFormed
  issues : u.arena.Issues (issued u.deeds)
  lookup : ∀ id, u.arena.get? id = held id u.deeds

theorem kept_new : ({} : Used α).Kept where
  wellFormed := wellFormed_empty
  issues := issues_empty
  lookup id := by rw [get?, slot_of_length_le (Nat.zero_le _), ite_self, held]

theorem Kept.move (h : u.Kept) (m : Move α) : (u.move m).Kept := by
  have hm := u.moves m
  generalize u.move m = v at hm
  cases hm with
  | full _ => exact h
  | missed _ => exact h
  | @inserted build id b hr =>
    refine ⟨h.wellFormed.fill hr _, h.issues.fill h.wellFormed hr _, fun id' => ?_⟩
    rw [h.wellFormed.get?_fill hr, held, h.lookup]
  | @removed id x b hr =>
    refine ⟨h.wellFormed.remove hr, h.issues.remove hr, fun id' => ?_⟩
    rw [(removes_of_remove? hr).get?, held, h.lookup]
  | drained =>
    exact ⟨h.wellFormed.drain, h.issues.drain, u.arena.get?_drain⟩

/-- By induction on the moves. -/
theorem Kept.run (h : u.Kept) (moves : List (Move α)) : (u.run moves).Kept := by
  induction moves generalizing u with
  | nil => exact h
  | cons m moves ih => exact ih (h.move m)

/-- What is asked of an arena at any time: that its vacant slots are known and its items counted,
that an id is given out once, and that lookups and moves do right by every id. -/
structure Answers (u : Used α) : Prop where
  /-- The free list names each vacant slot once and no other, and the items are counted. -/
  wellFormed : u.arena.WellFormed
  /-- Whatever index is taken from the free list is that of a slot there is. -/
  within : ∀ i ∈ u.arena.free, i.toNat < u.arena.slots.length
  distinct : (issued u.deeds).Nodup
  lookup : ∀ id, u.arena.get? id = held id u.deeds
  /-- As long as there is a generation for it, an item gets an id that nothing had before. -/
  inserts : (issued u.deeds).length < UInt32.size → ∀ build, ∃ id b,
    u.arena.insert? build = some (id, b) ∧ id ∉ issued u.deeds ∧
      ∀ id', b.get? id' = if id' = id then some (build id) else u.arena.get? id'
  /-- A removal gives what the id leads to, and fails if that is nothing. -/
  removal : ∀ id, (u.arena.remove? id).map Prod.fst = held id u.deeds
  removes : ∀ {id x b}, u.arena.remove? id = some (x, b) →
    ∀ id', b.get? id' = if id' = id then none else u.arena.get? id'
  /-- Draining gives the items of all ids that lead to one, in the order of their slots. -/
  drains : ∃ ids : List ItemId, (ids.map ItemId.index).Pairwise (· < ·) ∧
    (∀ id, id ∈ ids ↔ (held id u.deeds).isSome) ∧
    u.arena.drain.1.map some = ids.map (held · u.deeds)
  emptied : ∀ id, u.arena.drain.2.get? id = none

theorem Kept.removal (h : u.Kept) (id : ItemId) :
    (u.arena.remove? id).map Prod.fst = held id u.deeds := by
  rw [← h.lookup, remove?]
  cases u.arena.get? id <;> rfl

theorem Kept.inserts (h : u.Kept) (hn : (issued u.deeds).length < UInt32.size)
    (build : ItemId → α) : ∃ id b, u.arena.insert? build = some (id, b) ∧ id ∉ issued u.deeds ∧
      ∀ id', b.get? id' = if id' = id then some (build id) else u.arena.get? id' := by
  obtain ⟨id, b, hr, hid⟩ := h.issues.fresh h.wellFormed hn
  refine ⟨id, b.fill id (build id), ?_, hid, h.wellFormed.get?_fill hr (build id)⟩
  rw [insert?, hr, Option.map_some]

/-- The ids in question are those that the occupied slots have now. -/
theorem Kept.drains (h : u.Kept) : ∃ ids : List ItemId,
    (ids.map ItemId.index).Pairwise (· < ·) ∧ (∀ id, id ∈ ids ↔ (held id u.deeds).isSome) ∧
      u.arena.drain.1.map some = ids.map (held · u.deeds) := by
  have hb := h.wellFormed.bounded
  refine ⟨(occupied 0 u.arena.slots).map fun i => ⟨i, (u.arena.slot i).generation⟩, ?_,
    fun id => ?_, ?_⟩
  · rw [List.map_map]
    exact (List.map_id _).symm ▸ pairwise_occupied hb
  · rw [← h.lookup, Option.isSome_iff_exists, List.mem_map]
    constructor
    · rintro ⟨i, hi, rfl⟩
      obtain ⟨x, hx⟩ := (mem_occupied hb).mp hi
      exact ⟨x, get?_eq_some.mpr ⟨hx, rfl⟩⟩
    · rintro ⟨x, hx⟩
      obtain ⟨hx, hg⟩ := get?_eq_some.mp hx
      exact ⟨id.index, (mem_occupied hb).mpr ⟨x, hx⟩, by rw [hg]⟩
  · rw [List.map_map]
    refine (map_item_occupied hb).symm.trans (List.map_congr_left fun i _ => ?_)
    rw [Function.comp_apply, ← h.lookup, get?, if_pos rfl]

theorem Kept.answers (h : u.Kept) (hn : (issued u.deeds).length ≤ UInt32.size) : u.Answers where
  wellFormed := h.wellFormed
  within i hi := ((h.wellFormed.vacant i).mp hi).1
  distinct := h.issues.distinct hn
  lookup := h.lookup
  inserts := h.inserts
  removal := h.removal
  removes hr := (removes_of_remove? hr).get?
  drains := h.drains
  emptied := u.arena.get?_drain

end Used

/-- What an arena is after some moves from the beginning. -/
def after (moves : List (Move α)) : Used α :=
  ({} : Used α).run moves

theorem after_append (moves later : List (Move α)) :
    after (moves ++ later) = (after moves).run later :=
  List.foldl_append

theorem kept_after (moves : List (Move α)) : (after moves).Kept :=
  Used.kept_new.run moves

theorem length_issued_after (moves : List (Move α)) :
    (issued (after moves).deeds).length ≤ insertions moves := by
  obtain ⟨deeds, hd, hn⟩ := ({} : Used α).run_deeds moves
  rwa [after, hd, List.append_nil]

/-- As long as there are no more insertions than generations, an arena does all that is asked of it
at any time, and an id that was given out and leads to nothing leads to nothing ever after. -/
theorem after_answers (moves later : List (Move α))
    (hn : insertions (moves ++ later) ≤ UInt32.size) :
    (after moves).Answers ∧ ∀ id ∈ issued (after moves).deeds,
      (after moves).arena.get? id = none → (after (moves ++ later)).arena.get? id = none := by
  have hm : insertions moves ≤ UInt32.size := by
    rw [Move.insertions_append] at hn
    omega
  have few := Nat.le_trans (length_issued_after moves) hm
  refine ⟨(kept_after moves).answers few, fun id hid h => ?_⟩
  have hlater := kept_after (moves ++ later)
  have hdistinct := hlater.issues.distinct (Nat.le_trans (length_issued_after _) hn)
  obtain ⟨deeds, hd, -⟩ := (after moves).run_deeds later
  rw [after_append] at hdistinct hlater ⊢
  rw [(kept_after moves).lookup] at h
  rw [hd, issued_append] at hdistinct
  rw [hlater.lookup, hd]
  -- The id is not given out again, since that would be the second time.
  exact held_append (fun hid' => (List.nodup_append.mp hdistinct).2.2 id hid' id hid rfl) h

/-- Two items go in, the first is removed, and a third one takes its slot. Each item is a number,
with the id that it was built for. -/
def replaced : List (Move (Nat × ItemId)) :=
  [.insert (1, ·), .insert (2, ·), .remove ⟨0, 0⟩, .insert (3, ·)]

/-- Everything is drained, and a fourth item goes in. -/
def refilled : List (Move (Nat × ItemId)) :=
  [.drain, .insert (4, ·)]

/-- The id of the first item stays without an item, whatever has its slot. -/
theorem replaced_answers :
    insertions (replaced ++ refilled) ≤ UInt32.size ∧
    issued (after replaced).deeds = [⟨0, 1⟩, ⟨1, 0⟩, ⟨0, 0⟩] ∧ (after replaced).Answers ∧
    (after replaced).arena.get? ⟨0, 0⟩ = none ∧
    (after (replaced ++ refilled)).arena.get? ⟨0, 0⟩ = none ∧
    (after (replaced ++ refilled)).arena.get? ⟨1, 1⟩ = some (4, ⟨1, 1⟩) := by
  have hn : insertions (replaced ++ refilled) ≤ UInt32.size := by decide
  have hissued : issued (after replaced).deeds = [⟨0, 1⟩, ⟨1, 0⟩, ⟨0, 0⟩] := by decide
  have hgone : (after replaced).arena.get? ⟨0, 0⟩ = none := by decide
  obtain ⟨hanswers, hstale⟩ := after_answers replaced refilled hn
  have hid : ⟨0, 0⟩ ∈ issued (after replaced).deeds := by simp [hissued]
  exact ⟨hn, hissued, hanswers, hgone, hstale _ hid hgone, by decide⟩

end GuardedStore.Arena
