import GuardedStore.Proofs.Refusal.Chain
import GuardedStore.Proofs.Run.Calm

/-!
The law of a lock that one item has to itself.

If nobody but one item calls on a lock, then every pass through it is an access to the item. The law
is that each such access is over, or else it is inside the lock, so none is ever on its way that the
lock has not admitted. Whoever else comes and goes leaves the lock alone.
-/
namespace GuardedStore

namespace Happening

/-- Whether it is neither a part of a pass that calls on aspects nor about somebody who visits them.
-/
def remote : Happening → Bool
  | began .. | admitted .. | told .. | visited _ => false
  | _ => true

/-- No call on the aspect and no begin of a pass through it. -/
def Spares (x : Nat) : Happening → Prop
  | began chain .. => x ∉ chain
  | admitted y .. | told y .. => y ≠ x
  | _ => True

/-- A part of the pass through the chain with this access, as far as the aspect is concerned. -/
def Within (x : Nat) (chain : List Nat) (a : Access) : Happening → Prop
  | began c _ b => c = chain ∧ b = a
  | admitted y _ b _ | told y _ b _ => y = x → b = a
  | visited _ => False
  | _ => True

variable {x : Nat} {chain : List Nat} {a : Access} {y : Happening}

theorem spares_of_remote (h : y.remote) : y.Spares x := by
  cases y <;> trivial

theorem within_of_remote (h : y.remote) : y.Within x chain a := by
  cases y <;> trivial

theorem remote_of_ofAspect (h : y.ofAspect) : y.remote := by
  cases y <;> first | rfl | cases h

theorem remote_of_ofEnd (h : y.ofEnd) : y.remote := by
  cases y <;> first | rfl | cases h

end Happening

theorem Aspect.isAudit_form {σ : Type} (a : Aspect σ) : a.form.isAudit = a.isAudit := by
  cases a <;> rfl

namespace World

/-- Nobody but the item calls on the lock, which stands behind audits at the end of its chain. -/
structure Sole (w : World) (x i : Nat) : Prop where
  fences : i < w.items.next → ∃ audits, (w.item i).chain = audits ++ [x] ∧ w.Fences audits x
  alone : ∀ {j}, j < w.items.next → j ≠ i → x ∉ (w.item j).chain
  unvisited : ∀ {chain}, .visited chain ∈ w.history → x ∉ chain

/-- The passes through the lock are accesses to the item, and each is over or inside the lock. -/
structure Attended (w : World) (x i : Nat) : Prop where
  began {chain phase a} : .began chain phase a ∈ w.history → x ∈ chain →
    i < w.items.next ∧ chain = (w.item i).chain
  course {chain phase a} : .began chain phase a ∈ w.history → x ∈ chain →
    w.Over a.ticket ∨ w.Inside x a.ticket
  asked {phase a b} : .admitted x phase a b ∈ w.history → 1 ≤ a.ticket
  told {phase a b} : .told x phase a b ∈ w.history → a.ticket ≤ w.tickets

/-- What is known of the lock, of visits and of the passes held open. -/
structure Unshared (x i : Nat) (w : World) : Prop where
  sound : w.Sound
  visited : ∀ {chain}, .visited chain ∈ w.history → w.Has chain
  passages : ∀ {name p}, w.names.passages.find? name = some p →
    ∃ chain, .visited chain ∈ w.history ∧ ∀ y ∈ p.entered, y ∈ chain
  attended : w.Sole x i → w.Attended x i

end World

/-- The law of a lock and of the item that it belongs to. -/
def refusing (x i : Nat) : Law where
  inv := World.Unshared x i
  rel w _ w' := w.Grows w' ∧ w.SameForms w'
  refl _ := ⟨.refl _, .refl _⟩
  trans _ _ h _ h' := ⟨h.1.trans h'.1, h.2.trans h.1 h'.2⟩

namespace World

variable {x i : Nat} {w w' : World}

theorem Fences.of_sameForms {audits : List Nat} (h : w'.Fences audits x) (hf : w.SameForms w')
    (hlt : w.Has (audits ++ [x])) : w.Fences audits x where
  audits y hy := by
    have ha := h.audits y hy
    rwa [← Aspect.isAudit_form, hf y (hlt y (List.mem_append_left _ hy)), Aspect.isAudit_form] at ha
  lock := by
    obtain ⟨l, n, hl, hn⟩ := h.lock
    have hx := hf x (hlt x (by simp))
    rw [hl] at hx
    obtain ⟨k, hk, hp⟩ := Aspect.form_lock_eq hx.symm
    exact ⟨k, n, hk, hp.trans hn⟩

/-- A lock that one item has to itself it had to itself before. -/
theorem Sole.of_grows (h : w'.Sole x i) (hw : w.Sound) (hg : w.Grows w') (hf : w.SameForms w') :
    w.Sole x i where
  fences hi := by
    obtain ⟨audits, hc, hl⟩ := h.fences (Nat.lt_of_lt_of_le hi hg.items)
    rw [hg.chain hi] at hc
    exact ⟨audits, hc, hl.of_sameForms hf fun y hy => hw.chains (hc ▸ hy)⟩
  alone hj hne := hg.chain hj ▸ h.alone (Nat.lt_of_lt_of_le hj hg.items) hne
  unvisited hv := h.unvisited (hg.history.subset hv)

theorem Sole.of_holds (h : w'.Sole x i) {e : Ending} (hw : w.Unshared x i)
    (hk : (refusing x i).Holds w e w') : w.Sole x i :=
  h.of_grows hw.sound hk.2.1 hk.2.2

/-- Only whoever has the lock to himself is concerned with it. -/
theorem Sole.mem_chain (h : w.Sole x i) {j : Nat} (hj : j < w.items.next) (hne : j ≠ i) :
    ∀ y ∈ (w.item j).chain, y ≠ x := by
  rintro y hy rfl
  exact h.alone hj hne hy

/-- What has happened does not concern the lock, if the item has it to itself. -/
structure Bypasses (x i : Nat) (w w' : World) : Prop where
  grows : w.Grows w'
  sound : w'.Sound
  forms : w.SameForms w'
  passages : w'.names.passages = w.names.passages
  history : ∃ newer, w'.history = newer ++ w.history ∧ ∀ y ∈ newer,
    (w'.Sole x i → y.Spares x) ∧ ∀ chain, y = .visited chain → w'.Has chain

theorem Bypasses.attended (h : w.Bypasses x i w') (hs : w'.Sole x i) (hw : w.Attended x i) :
    w'.Attended x i := by
  obtain ⟨newer, hh, hn⟩ := h.history
  have old {y : Happening} (hm : y ∈ w'.history) (hy : ¬ y.Spares x) : y ∈ w.history := by
    rw [hh, List.mem_append] at hm
    exact hm.resolve_left fun hm => hy ((hn y hm).1 hs)
  constructor
  · intro chain phase a hb hx
    obtain ⟨hi, hc⟩ := hw.began (old hb (not_not_intro hx)) hx
    exact ⟨Nat.lt_of_lt_of_le hi h.grows.items, hc.trans (h.grows.chain hi).symm⟩
  · intro chain phase a hb hx
    refine (hw.course (old hb (not_not_intro hx)) hx).imp (·.mono h.grows) fun hi => ?_
    refine ⟨hh ▸ hi.1.mono, fun ⟨p, c, b, ht, hm⟩ => hi.2 ⟨p, c, b, ht, old hm ?_⟩⟩
    exact not_not_intro rfl
  · intro phase a b hm
    exact hw.asked (old hm (not_not_intro rfl))
  · intro phase a b hm
    exact Nat.le_trans (hw.told (old hm (not_not_intro rfl))) h.grows.tickets

theorem Bypasses.unshared (h : w.Bypasses x i w') (hw : w.Unshared x i) : w'.Unshared x i where
  sound := h.sound
  visited {chain} hv := by
    obtain ⟨newer, hh, hn⟩ := h.history
    rw [hh, List.mem_append] at hv
    rcases hv with hv | hv
    · exact (hn _ hv).2 chain rfl
    · exact (hw.visited hv).mono h.grows.aspects
  passages hp := by
    rw [h.passages] at hp
    obtain ⟨chain, hv, hc⟩ := hw.passages hp
    exact ⟨chain, h.grows.history.subset hv, hc⟩
  attended hs := h.attended hs (hw.attended (hs.of_grows hw.sound h.grows h.forms))

theorem Bypasses.holds (h : w.Bypasses x i w') (hw : w.Unshared x i) :
    (refusing x i).Holds w .done w' :=
  ⟨h.unshared hw, h.grows, h.forms⟩

theorem bypasses_of_remote (hg : w.Grows w') (hs : w'.Sound) (hf : w.SameForms w')
    (hp : w'.names.passages = w.names.passages)
    (hh : ∃ newer, (∀ y ∈ newer, y.remote) ∧ w'.history = newer ++ w.history) :
    w.Bypasses x i w' where
  grows := hg
  sound := hs
  forms := hf
  passages := hp
  history := by
    obtain ⟨newer, hn, hh⟩ := hh
    refine ⟨newer, hh, fun y hy => ⟨fun _ => Happening.spares_of_remote (hn y hy), ?_⟩⟩
    rintro chain rfl
    cases hn _ hy

theorem Quiet.bypasses (h : w.Quiet w') (hw : w.Sound) : w.Bypasses x i w' := by
  obtain ⟨asides, ha, hh⟩ := h.history
  refine bypasses_of_remote h.grows (h.sound hw) (sameForms_of_aspects h.aspects) (by rw [h.names])
    ⟨asides, fun y hy => ?_, hh⟩
  have := ha y hy
  cases y <;> first | rfl | cases this

theorem Idle.bypasses (h : w.Idle w') (hw : w.Sound) : w.Bypasses x i w' := by
  obtain ⟨notes, hn, hh⟩ := h.history
  refine bypasses_of_remote h.grows (h.sound hw) (sameForms_of_aspects h.aspects) h.passages
    ⟨notes, fun y hy => ?_, hh⟩
  have := hn y hy
  cases y <;> first | rfl | cases this

/-- One more mark that does not concern the lock. -/
theorem bypasses_mark {y : Happening} (hy : w.Sole x i → y.Spares x)
    (hv : ∀ chain, y = .visited chain → w.Has chain) (hw : w.Sound) :
    w.Bypasses x i (w.mark y) where
  grows := grows_mark y w
  sound := sound_mark y hw
  forms := sameForms_of_aspects rfl
  passages := rfl
  history := by
    refine ⟨[y], rfl, fun z hz => ?_⟩
    obtain rfl := List.mem_singleton.mp hz
    refine ⟨fun hs => hy ?_, hv⟩
    exact hs.of_grows hw (grows_mark z w) (sameForms_of_aspects rfl)

theorem bypasses_remote {y : Happening} (hy : y.remote) (hw : w.Sound) :
    w.Bypasses x i (w.mark y) :=
  bypasses_of_remote (grows_mark y w) (sound_mark y hw) (sameForms_of_aspects rfl) rfl
    ⟨[y], by simpa using hy, rfl⟩

/-- A pass through the item's chain has gone some way, and now it is over or inside the lock. -/
theorem Attended.walked {marks : List Happening} {a : Access} (hw : w.Attended x i)
    (hk : w.Walked marks w') (hi : i < w.items.next) (h1 : 1 ≤ a.ticket)
    (hle : a.ticket ≤ w'.tickets) (hm : ∀ y ∈ marks, y.Within x (w.item i).chain a)
    (ha : w'.Over a.ticket ∨ w'.Inside x a.ticket) : w'.Attended x i := by
  have cases {y : Happening} (hy : y ∈ w'.history) :
      y.Within x (w.item i).chain a ∨ y ∈ w.history := by
    rw [hk.history, List.mem_append] at hy
    exact hy.imp_left (hm y)
  constructor
  · intro chain phase b hb hx
    rw [hk.item, hk.items]
    rcases cases hb with ⟨rfl, -⟩ | hb
    · exact ⟨hi, rfl⟩
    · exact hw.began hb hx
  · intro chain phase b hb hx
    by_cases hab : b.ticket = a.ticket
    · rwa [hab]
    · rcases cases hb with ⟨-, rfl⟩ | hb
      · exact absurd rfl hab
      refine (hw.course hb hx).imp (·.mono hk.grows) fun hin => ?_
      refine ⟨hk.history ▸ hin.1.mono, fun ⟨p, c, d, ht, hc⟩ => ?_⟩
      rcases cases hc with hc | hc
      · rw [← ht, hc rfl] at hab
        exact hab rfl
      · exact hin.2 ⟨p, c, d, ht, hc⟩
  · intro phase b d hb
    rcases cases hb with hb | hb
    · rwa [hb rfl]
    · exact hw.asked hb
  · intro phase b d hb
    rcases cases hb with hb | hb
    · rwa [hb rfl]
    · exact Nat.le_trans (hw.told hb) hk.tickets

theorem Unshared.walked {marks : List Happening} {a : Access} (hw : w.Unshared x i)
    (hx : w.Sole x i) (hk : w.Walked marks w') (hi : i < w.items.next) (h1 : 1 ≤ a.ticket)
    (hle : a.ticket ≤ w'.tickets)
    (hm : ∀ y ∈ marks, y.ofGuards ∧ y.Within x (w.item i).chain a)
    (ha : w'.Over a.ticket ∨ w'.Inside x a.ticket) : (refusing x i).Holds w .done w' where
  left := {
    sound := (hk.guarding fun y hy => (hm y hy).1).sound hw.sound
    visited := fun hv => by
      rw [hk.history, List.mem_append] at hv
      exact (hw.visited (hv.resolve_left fun hv => (hm _ hv).2)).mono (Nat.le_of_eq hk.next.symm)
    passages := fun hp => by
      rw [hk.names] at hp
      obtain ⟨chain, hv, hc⟩ := hw.passages hp
      exact ⟨chain, hk.grows.history.subset hv, hc⟩
    attended := fun _ => (hw.attended hx).walked hk hi h1 hle (fun y hy => (hm y hy).2) ha }
  right := ⟨hk.grows, hk.forms⟩

/-- An access to the item was made at one go. -/
theorem Unshared.made {marks : List Happening} {a : Access} (hw : w.Unshared x i)
    (hx : w.Sole x i) (hk : w.Walked marks w') (hi : i < w.items.next)
    (hlt : w.tickets < w'.tickets) (ha : a.ticket = w.tickets + 1) (hl : .left a true ∈ marks)
    (hm : ∀ y ∈ marks, y.ofGuards ∧ y.Within x (w.item i).chain a) :
    (refusing x i).Holds w .done w' := by
  refine hw.walked hx hk hi ?_ ?_ hm (.inl ⟨a, true, rfl, hk.history ▸ List.mem_append_left _ hl⟩)
  · omega
  · omega

end World

theorem refusing_calm (x i : Nat) : (refusing x i).Calm where
  sound hw := World.Unshared.sound hw
  grows h := h.1
  quiet h hw := (h.bypasses (World.Unshared.sound hw)).holds hw
  stuck _ := ⟨.refl _, .refl _⟩
  rename hp hn _ hw := (World.bypasses_of_remote World.grows_rename
    (World.sound_rename hn (World.Unshared.sound hw)) (World.sameForms_of_aspects rfl) hp
    ⟨[], by simp, rfl⟩).holds hw
  newStore hid ha hd := Engine.keepsAt_of_eq rfl fun hw =>
    (World.bypasses_of_remote (World.grows_withStore _)
      (World.sound_withStore hid ha hd (World.Unshared.sound hw)) (World.sameForms_of_aspects rfl)
      rfl ⟨[], by simp, rfl⟩).holds hw
  newItem hs hid hc hd _ _ := Engine.keepsAt_of_eq rfl fun hw =>
    (World.bypasses_of_remote (World.grows_withItem _)
      (World.sound_withItem ⟨_, hs, hid⟩ hc hd (World.Unshared.sound hw))
      (World.sameForms_of_aspects rfl) rfl ⟨[_], by simp [Happening.remote], rfl⟩).holds hw

end GuardedStore
