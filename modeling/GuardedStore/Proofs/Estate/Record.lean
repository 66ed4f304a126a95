import GuardedStore.Proofs.Run.Storekeeping

/-!
What a history says of a store: where it was bound last, and which of its sources stand for what is
no more.
-/
namespace GuardedStore

/-- Where a store was bound last; `none` before it was built. -/
def binding (s : Nat) : List Happening → Option (Option Nat)
  | [] => none
  | .bound t a :: older => if t = s then some a else binding s older
  | _ :: older => binding s older

/-- Whether what a source stands for is no more: an item that was destroyed, and none was made with
the same id since, or anything of a store that was dropped. -/
def perished (source : Source) : List Happening → Bool
  | [] => false
  | .made _ i :: older => if i.source = source then false else perished source older
  | .notice (.itemDestroyed id item _) :: older =>
    if source = .item id item then true else perished source older
  | .notice (.storeDropped id _ _) :: older =>
    if source.owner = id then true else perished source older
  | _ :: older => perished source older

namespace Happening

/-- Whether a happening is about where a store is bound and what it has. -/
def settles (s : Nat) : Happening → Bool
  | .bound t _ => t = s
  | .made _ i => i.descriptor.store = .drawn s
  | .notice (.itemDestroyed id ..) | .notice (.storeDropped id ..) => id = .drawn s
  | _ => false

/-- Whether a happening is neither an event requested by an item or a store nor one handed out. -/
def silent : Happening → Bool
  | .requested (.item _) .. | .requested (.store _) .. | .handed .. => false
  | _ => true

end Happening

/-- Two histories say the same of where a store is bound and of what it has. -/
structure Agree (s : Nat) (h h' : List Happening) : Prop where
  binding : binding s h' = binding s h
  fate : ∀ {source}, source.owner = .drawn s → perished source h' = perished source h

theorem Agree.refl (s : Nat) (h : List Happening) : Agree s h h :=
  ⟨rfl, fun _ => rfl⟩

theorem agree_cons {s : Nat} {y : Happening} (hy : y.settles s = false) (h : List Happening) :
    Agree s h (y :: h) := by
  have hne {source : Source} {id : StoreId} (ho : source.owner = .drawn s)
      (h : decide (id = .drawn s) = false) : source.owner ≠ id :=
    fun he => of_decide_eq_false h (he.symm.trans ho)
  rcases y with _ | _ | _ | _ | _ | _ | _ | _ | _ | n | ⟨_, i⟩ | _ | _ | _ | _ | _ | _ | _ | _ | _ |
    _ | _ | _ | ⟨t, a⟩ <;> try exact ⟨rfl, fun _ => rfl⟩
  · cases n with
    | itemDestroyed id item name =>
      exact ⟨rfl, fun ho => if_neg fun he => hne ho hy (by rw [he]; rfl)⟩
    | storeDropped id name n => exact ⟨rfl, fun ho => if_neg (hne ho hy)⟩
    | _ => exact ⟨rfl, fun _ => rfl⟩
  · exact ⟨rfl, fun ho => if_neg fun he => hne ho hy (by rw [← he]; rfl)⟩
  · exact ⟨if_neg (of_decide_eq_false hy), fun _ => rfl⟩

theorem agree_append {s : Nat} {notes : List Happening}
    (hn : ∀ y ∈ notes, y.settles s = false) (h : List Happening) : Agree s h (notes ++ h) := by
  induction notes with
  | nil => exact .refl s h
  | cons y notes ih =>
    have hy := agree_cons (hn y List.mem_cons_self) (notes ++ h)
    replace ih := ih fun z hz => hn z (List.mem_cons_of_mem y hz)
    exact ⟨hy.binding.trans ih.binding, fun ho => (hy.fate ho).trans (ih.fate ho)⟩

theorem bound_of_binding {s : Nat} {a : Option Nat} {h : List Happening}
    (hb : binding s h = some a) : .bound s a ∈ h := by
  induction h with
  | nil => cases hb
  | cons y h ih =>
    by_cases hy : y.settles s = false
    · rw [(agree_cons hy h).binding] at hb
      exact List.mem_cons_of_mem y (ih hb)
    · cases y with
      | bound t b =>
        have ht : t = s := by simpa [Happening.settles] using hy
        rw [binding, if_pos ht] at hb
        cases hb
        exact ht ▸ List.mem_cons_self
      | _ => exact List.mem_cons_of_mem _ (ih hb)

theorem binding_of_bound {s : Nat} {a : Option Nat} {h : List Happening} (hb : .bound s a ∈ h) :
    ∃ b, binding s h = some b := by
  induction h with
  | nil => cases hb
  | cons y h ih =>
    rcases List.mem_cons.mp hb with rfl | hm
    · exact ⟨a, if_pos rfl⟩
    · cases y with
      | bound t b =>
        rw [binding]
        split
        · exact ⟨b, rfl⟩
        · exact ih hm
      | _ => exact ih hm

end GuardedStore
