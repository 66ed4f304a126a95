import GuardedStore.Proofs.Refusal.Law

/-!
What a default factory gives an item.

A configuration with locking makes a chain of new aspects: an audit, if it is asked for, and a lock
behind it. They are in nobody else's chain and were never visited, so the item has its lock to
itself, until somebody else calls on it.
-/
namespace GuardedStore

/-- Whom somebody other than an item calls on. -/
def Happening.visits : Happening → List Nat
  | visited chain => chain
  | _ => []

/-- How long a lock lets an access wait. -/
def Aspect.patience? {σ : Type} : Aspect σ → Option Patience
  | .lock l => some l.patience
  | _ => none

theorem Aspect.form_of_isAudit {σ : Type} {a : Aspect σ} (h : a.isAudit) : a.form = .audit {} := by
  cases a with
  | audit => rfl
  | _ => cases h

theorem Aspect.form_of_patience? {σ : Type} {a : Aspect σ} {p : Patience}
    (h : a.patience? = some p) : a.form = .lock { patience := p } := by
  cases a with
  | lock l => cases h; rfl
  | _ => cases h

theorem AspectConfig.map_form_aspects {σ : Type} (c : AspectConfig) :
    (c.aspects : List (Aspect σ)).map Aspect.form = c.aspects := by
  unfold aspects
  split <;> split <;> rfl

namespace World

/-- Nobody but the item calls on the aspects of its chain. -/
def Alone (w : World) (i : Nat) : Prop :=
  (∀ j < w.items.next, j ≠ i → ∀ y ∈ (w.item i).chain, y ∉ (w.item j).chain) ∧
    ∀ h ∈ w.history, ∀ y ∈ h.visits, y ∉ (w.item i).chain

instance (w : World) (i : Nat) : Decidable (w.Alone i) :=
  inferInstanceAs (Decidable (_ ∧ _))

/-- The item has the chain that a configuration with locking makes, and has it to itself. -/
structure Stocked (w : World) (i : Nat) : Prop where
  made : ∃ c : AspectConfig, c.locking ∧
    (w.item i).chain.map (fun y => (w.aspect y).form) = c.aspects
  alone : w.Alone i

variable {w : World} {i x : Nat}

theorem Unshared.has_visits (hw : w.Unshared x i) {h : Happening} (hm : h ∈ w.history) :
    w.Has h.visits := by
  cases h with
  | visited chain => exact hw.visited hm
  | _ => exact fun _ hy => absurd hy List.not_mem_nil

/-- The lock of the chain is its last aspect, and the item has it to itself. -/
theorem Stocked.sole (h : w.Stocked i) : ∃ audits x,
    (w.item i).chain = audits ++ [x] ∧ w.Fences audits x ∧ w.Sole x i := by
  obtain ⟨c, hl, hc⟩ := h.made
  rw [AspectConfig.aspects, if_pos hl, List.map_eq_append_iff] at hc
  obtain ⟨audits, last, hc, ha, hlast⟩ := hc
  obtain ⟨x, rfl, hx⟩ := List.map_eq_singleton_iff.mp hlast
  have hf : w.Fences audits x := {
    audits := fun y hy => by
      have hm := List.mem_map_of_mem (f := fun y => (w.aspect y).form) hy
      rw [ha] at hm
      rw [← Aspect.isAudit_form]
      split at hm
      · rw [List.mem_singleton.mp hm]
        rfl
      · cases hm
    lock := by
      have hform : (w.aspect x).form =
          (Aspect.lock { patience := .milliseconds c.lockTimeout }).form := hx
      obtain ⟨l, hl, hp⟩ := Aspect.form_lock_eq hform
      exact ⟨l, _, hl, hp⟩ }
  have hm : x ∈ (w.item i).chain := by simp [hc]
  exact ⟨audits, x, hc, hf, fun _ => ⟨audits, hc, hf⟩, fun hj hne => h.alone.1 _ hj hne x hm,
    fun hv hx => h.alone.2 _ hv x hx hm⟩

/-- An audit and a lock behind it are what a configuration makes. -/
theorem stocked_of_pair {y : Nat} {n : UInt64} (hc : (w.item i).chain = [y, x])
    (hy : (w.aspect y).isAudit) (hx : (w.aspect x).patience? = some (.milliseconds n))
    (ha : w.Alone i) : w.Stocked i where
  made := ⟨{ lockTimeout := n }, rfl, by
    simp [hc, AspectConfig.aspects, Aspect.form_of_isAudit hy, Aspect.form_of_patience? hx]⟩
  alone := ha

/-- What a configuration makes for an item that is made next is in nobody else's chain and was never
visited. -/
theorem stocked_withItem {c : AspectConfig} {chain : List Nat} {u : World} {item : Item}
    (hw : w.Sound) (hv : ∀ h ∈ w.history, w.Has h.visits) (hl : c.locking)
    (h : Performing.configured c w = (.done chain, u)) (hc : item.chain = chain) :
    (u.withItem item).Stocked w.items.next ∧
      ∀ j < w.items.next, w.Stocked j → (u.withItem item).Stocked j := by
  obtain ⟨u', hu, hr, hhistory, hsame, hmade⟩ := Engine.mapM_newAspect c.aspects w
  have hitems := hr.items
  obtain ⟨rfl, rfl⟩ : _ = chain ∧ u' = u := by simpa using hu.symm.trans h
  have hnext : u'.items.next = w.items.next := by rw [hitems]
  have hfresh : ∀ y ∈ item.chain, w.aspects.next ≤ y := fun y hy => by
    rw [hc, List.mem_range'_1] at hy
    exact hy.1
  have hitem (j : Nat) :
      (u'.withItem item).item j = if j = w.items.next then item else w.item j := by
    rw [item_withItem, hnext, World.item, World.item, hitems]
  have hvisits {h : Happening} (hm : h ∈ (u'.withItem item).history) :
      h.visits = [] ∨ h ∈ w.history := by
    rw [← hhistory]
    exact (List.mem_cons.mp hm).imp_left fun h => by rw [h]; rfl
  constructor
  · refine ⟨⟨c, hl, ?_⟩, fun j hj hne y hy hm => ?_, fun h hm y hy hmem => ?_⟩
    · have hforms := congrArg (List.map Aspect.form) hmade
      rw [List.map_map, AspectConfig.map_form_aspects] at hforms
      rw [hitem, if_pos rfl, hc]
      exact hforms
    · rw [hitem, if_pos rfl] at hy
      rw [hitem, if_neg hne] at hm
      exact Nat.not_le_of_lt (hw.chains hm) (hfresh y hy)
    · rw [hitem, if_pos rfl] at hmem
      rcases hvisits hm with hm | hm
      · simp [hm] at hy
      · exact Nat.not_le_of_lt (hv h hm y hy) (hfresh y hmem)
  · intro j hj hst
    have hjn : ¬ j = w.items.next := Nat.ne_of_lt hj
    obtain ⟨c, hl, hmap⟩ := hst.made
    refine ⟨⟨c, hl, ?_⟩, fun k hk hne y hy hm => ?_, fun h hm y hy => ?_⟩
    · rw [hitem, if_neg hjn, ← hmap]
      exact List.map_congr_left fun y hy => congrArg Aspect.form (hsame y (hw.chains hy))
    · rw [hitem, if_neg hjn] at hy
      rw [hitem] at hm
      split at hm
      · exact Nat.not_le_of_lt (hw.chains hy) (hfresh y hm)
      · next hkn =>
        have hk : k < w.items.next + 1 := hnext ▸ hk
        exact hst.alone.1 k (by omega) hne y hy hm
    · rw [hitem, if_neg hjn]
      rcases hvisits hm with hm | hm
      · simp [hm] at hy
      · exact hst.alone.2 h hm y hy

end World

end GuardedStore
