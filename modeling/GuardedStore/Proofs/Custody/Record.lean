import GuardedStore.Proofs.Run.Storekeeping

/-!
Who is held, and who is gone, as the history tells.

A delivery takes hold of those it hands an event to and lets go of them when it is over. A store
that was dropped meanwhile stays within reach of the deliveries that hold it, and of nobody else.
-/
namespace GuardedStore

/-- Who is held by the deliveries under way, as often as they are held. -/
def heldBy : List Happening → List Subscriber
  | [] => []
  | .handed _ _ subscribers :: older => heldBy older ++ subscribers
  | .released _ held :: _ => held
  | _ :: older => heldBy older

/-- The store was dropped. -/
def Gone (s : Nat) (history : List Happening) : Prop :=
  ∃ y ∈ history, y.drops s

instance (s : Nat) (history : List Happening) : Decidable (Gone s history) :=
  inferInstanceAs (Decidable (∃ y ∈ history, y.drops s))

namespace Happening

/-- Whether a happening shows that the store is within reach: it is handed an event, it is among
those who are still held when a delivery is over, or one of its model hooks is run. -/
def reaches (s : Nat) : Happening → Prop
  | .handed _ _ subscribers => .store s ∈ subscribers
  | .released _ held => .store s ∈ held
  | .ran t _ _ => t = s
  | _ => False

instance (s : Nat) (y : Happening) : Decidable (y.reaches s) := by
  unfold reaches
  split <;> infer_instance

/-- Whether a happening is about who is held, or a run of one of the store's model hooks. -/
def custodial (s : Nat) : Happening → Bool
  | .handed .. | .released .. => true
  | .ran t _ _ => t = s
  | _ => false

end Happening

/-- What is gone is within reach only while it is held. -/
def Custodial (s : Nat) (history : List Happening) : Prop :=
  ∀ y older, y :: older <:+ history → y.reaches s → Gone s older → .store s ∈ heldBy older

variable {s : Nat} {y : Happening} {h newer : List Happening}

theorem Gone.mono (hg : Gone s h) : Gone s (newer ++ h) :=
  hg.imp fun _ hy => hy.imp_left (List.mem_append_right _)

/-- Nobody says in the newer history that the store is gone. -/
theorem gone_append (hn : ∀ y ∈ newer, y.drops s = false) : Gone s (newer ++ h) ↔ Gone s h := by
  refine ⟨fun ⟨y, hy, hd⟩ => ?_, Gone.mono⟩
  rcases List.mem_append.mp hy with hy | hy
  · rw [hn y hy] at hd
    cases hd
  · exact ⟨y, hy, hd⟩

theorem gone_cons {y : Happening} (hy : y.drops s = false) : Gone s (y :: h) ↔ Gone s h := by
  have hn : ∀ z ∈ [y], z.drops s = false := by simpa using hy
  exact gone_append hn

theorem Happening.not_reaches (hy : y.custodial s = false) : ¬ y.reaches s := by
  cases y <;> simp_all [custodial, reaches]

theorem heldBy_cons (hy : y.custodial s = false) : heldBy (y :: h) = heldBy h := by
  cases y <;> first | rfl | cases hy

theorem heldBy_append (hn : ∀ y ∈ newer, y.custodial s = false) :
    heldBy (newer ++ h) = heldBy h := by
  induction newer with
  | nil => rfl
  | cons y newer ih =>
    rw [List.cons_append, heldBy_cons (hn y List.mem_cons_self)]
    exact ih fun y hy => hn y (List.mem_cons_of_mem _ hy)

theorem Custodial.cons (hc : Custodial s h)
    (hy : y.reaches s → Gone s h → .store s ∈ heldBy h) : Custodial s (y :: h) := by
  intro z older hs
  rcases List.suffix_cons_iff.mp hs with he | hs
  · cases he
    exact hy
  · exact hc z older hs

theorem Custodial.tail (hc : Custodial s (y :: h)) : Custodial s h :=
  fun z older hs => hc z older (hs.trans (List.suffix_cons y h))

theorem Custodial.append (hc : Custodial s h) (hn : ∀ y ∈ newer, y.custodial s = false) :
    Custodial s (newer ++ h) := by
  induction newer with
  | nil => exact hc
  | cons y newer ih =>
    have hy := Happening.not_reaches (hn y List.mem_cons_self)
    exact (ih fun y hy => hn y (List.mem_cons_of_mem _ hy)).cons fun h => absurd h hy

/-- What is gone and held by nobody stays out of reach. -/
theorem Custodial.unreached (hc : Custodial s (newer ++ h)) (hg : Gone s h)
    (hh : .store s ∉ heldBy h) :
    .store s ∉ heldBy (newer ++ h) ∧ ∀ y ∈ newer, ¬ y.reaches s := by
  induction newer with
  | nil => exact ⟨hh, by simp⟩
  | cons y newer ih =>
    rw [List.cons_append] at hc ⊢
    obtain ⟨hheld, hn⟩ := ih hc.tail
    have hy : ¬ y.reaches s := fun hr => hheld (hc y _ (List.suffix_refl _) hr hg.mono)
    refine ⟨?_, List.forall_mem_cons.mpr ⟨hy, hn⟩⟩
    cases y with
    | handed d e subscribers =>
      exact fun hm => (List.mem_append.mp hm).elim hheld hy
    | released d held => exact hy
    | _ => exact hheld

end GuardedStore
