import GuardedStore.Proofs.Ledger.Law
import GuardedStore.Proofs.Passes.Locks

/-!
Every run keeps the ledger: items are made with an empty one, and a stored value is the only entry.
-/
namespace GuardedStore

namespace World

variable {w : World}

/-- What is made anew has no entries yet. -/
theorem InStep.unknown (hw : w.InStep) :
    storedIn w.items.next w.history = [] ∧ requestedBy w.items.next w.history = [] := by
  have hf : ∀ y ∈ w.history, y.item? ≠ some w.items.next := fun y hy => hw.fresh (Nat.le_refl _) hy
  have hs := storedIn_of_other hf []
  have hr := requestedBy_of_other hf []
  rw [List.append_nil] at hs hr
  exact ⟨hs, hr⟩

/-- The ledger of a new item is empty. -/
theorem InStep.tallies_withItem {i : Item} (h0 : i.writes = 0) (hw : w.InStep) :
    (w.withItem i).Tallies w.items.next := by
  obtain ⟨hs, hr⟩ := hw.unknown
  have hit : (w.withItem i).item w.items.next = i := by rw [item_withItem, if_pos rfl]
  have hs' : storedIn w.items.next (w.withItem i).history = [] := by
    rw [withItem, storedIn_cons, hs]
    rfl
  constructor
  · rw [hit, h0, withItem, requestedBy_cons, hr]
    rfl
  · rw [hs', hit, h0]
    rfl
  · exact ⟨i, List.mem_cons_self⟩
  · intro x hx
    rw [hit, hs']
    rcases List.mem_cons.mp hx with he | hx
    · cases he
      rfl
    · exact absurd rfl (hw.fresh (Nat.le_refl _) hx)

theorem inStep_withItem {i : Item} (ho : ∃ s < w.stores.next, i.descriptor.store = .drawn s)
    (hc : w.Has i.chain) (hd : w.Offers i.affinity) (h0 : i.writes = 0) (hw : w.InStep) :
    (w.withItem i).InStep where
  sound := sound_withItem ho hc hd hw.sound
  tallies {j} hj := by
    rcases Nat.lt_succ_iff_lt_or_eq.mp hj with hlt | rfl
    · have hn : ∀ y ∈ [Happening.made w.items.next i], y.item? ≠ some j := by
        intro y hy
        rw [List.mem_singleton.mp hy]
        simpa [Happening.item?] using Nat.ne_of_gt hlt
      have hit : (w.withItem i).item j = w.item j := by
        rw [item_withItem, if_neg (Nat.ne_of_lt hlt)]
      exact (hw.tallies hlt).of_others hn rfl (by rw [hit]) (by rw [hit]) (by rw [hit])
    · exact hw.tallies_withItem h0
  fresh {j y} hj hy := by
    rcases List.mem_cons.mp hy with rfl | hy
    · simp only [Happening.item?, ne_eq, Option.some.injEq]
      exact Nat.ne_of_lt hj
    · exact hw.fresh (Nat.le_of_succ_le hj) hy
  issued := hw.issued_of_grows (grows_withItem i) [.made w.items.next i] (by simp) rfl
  handed := hw.handed_of_grows (grows_withItem i) [.made w.items.next i] (by simp) rfl
  guarded {j a} hm := by
    have hm : .stored j a ∈ w.history := by simpa [withItem] using hm
    have hj := hw.stored_lt hm
    rw [item_withItem, if_neg (Nat.ne_of_lt hj)]
    exact ⟨List.mem_cons_of_mem _ (hw.guarded hm).1, (hw.guarded hm).2⟩

section Issuing

variable {item : Nat} {a : Access}

/-- An entry is made in the cell, in the count and in the history at once. -/
theorem Tallies.issuing (h : w.Tallies item) : (w.issuing item a).Tallies item := by
  have hit : (w.issuing item a).item item = (w.item item).store a.value := by
    rw [item_issuing, if_pos rfl]
  have hs : storedIn item (w.issuing item a).history = storedIn item w.history ++ [a] := by
    rw [history_issuing]
    simp [storedIn_cons, Happening.storedIn?]
  have hr : requestedBy item (w.issuing item a).history =
      requestedBy item w.history ++ [⟨(w.item item).source, (w.item item).writes + 1⟩] := by
    rw [history_issuing]
    simp [requestedBy_cons, Happening.requestedBy?]
  constructor
  · rw [hr, h.requests, hit, Item.store, List.range'_1_concat, List.map_append, Nat.add_comm 1]
    rfl
  · rw [hs, hit, List.length_append, h.stored]
    rfl
  · obtain ⟨x, hx⟩ := h.made
    exact ⟨x, by simp [history_issuing, hx]⟩
  · intro x _
    rw [hs, hit, List.getLast?_concat]
    rfl

theorem not_about_issuing {j : Nat} (hj : j ≠ item) : ∀ y ∈ [Happening.requested (.item item)
      (w.item item).affinity ⟨(w.item item).source, (w.item item).writes + 1⟩,
    .notice (.writeStored (w.item item).descriptor ((w.item item).writes + 1)), .stored item a],
      y.item? ≠ some j := by
  simp [Happening.item?, Ne.symm hj]

/-- The trigger for the value comes right after it, and the ones before are where they were. -/
theorem InStep.issued_issuing (hi : item < w.items.next) (hw : w.InStep) :
    (w.issuing item a).Issued := by
  intro newer j b older h
  have hsrc {k : Nat} : ((w.issuing item a).item k).descriptor = (w.item k).descriptor := by
    rw [item_issuing]
    split
    · next hk => rw [hk]; rfl
    · rfl
  rw [Item.source, hsrc]
  rw [history_issuing] at h
  rcases newer with _ | ⟨y, _ | ⟨z, _ | ⟨x, newer⟩⟩⟩
  · simp at h
  · simp at h
  · simp only [List.cons_append, List.nil_append, List.cons.injEq, Happening.stored.injEq] at h
    obtain ⟨rfl, rfl, ⟨rfl, rfl⟩, rfl⟩ := h
    rw [(hw.tallies hi).stored]
    exact ⟨[], (w.item item).affinity, rfl⟩
  · simp only [List.cons_append, List.cons.injEq] at h
    obtain ⟨rfl, rfl, rfl, h⟩ := h
    obtain ⟨later, d, rfl⟩ := hw.issued newer j b older h
    exact ⟨_ :: _ :: _ :: later, d, rfl⟩

theorem inStep_issuing (hi : item < w.items.next)
    (hb : .began (w.item item).chain .write a ∈ w.history)
    (hd : a.descriptor = (w.item item).descriptor) (hw : w.InStep) :
    (w.issuing item a).InStep where
  sound := sound_issuing item a hw.sound
  tallies {j} hj := by
    by_cases hji : j = item
    · subst hji
      exact (hw.tallies hj).issuing
    · have hit : (w.issuing item a).item j = w.item j := by rw [item_issuing, if_neg hji]
      exact (hw.tallies hj).of_others (not_about_issuing hji) (history_issuing item a)
        (by rw [hit]) (by rw [hit]) (by rw [hit])
  fresh {j y} hj hy := by
    have hne : j ≠ item := Nat.ne_of_gt (Nat.lt_of_lt_of_le hi hj)
    rw [history_issuing] at hy
    rcases List.mem_append.mp (show y ∈ [_, _, _] ++ w.history from hy) with hy | hy
    · exact not_about_issuing hne y hy
    · exact hw.fresh hj hy
  issued := hw.issued_issuing hi
  handed := hw.handed_of_grows (grows_issuing item a) [_, _, _] (by simp) (history_issuing item a)
  guarded {j b} hm := by
    have hg := grows_issuing (w := w) item a
    rw [history_issuing] at hm
    simp only [List.mem_cons, reduceCtorEq, Happening.stored.injEq, false_or] at hm
    rcases hm with ⟨rfl, rfl⟩ | hm
    · rw [hg.chain hi, hg.descriptor hi]
      exact ⟨hg.history.subset hb, hd⟩
    · have hj := hw.stored_lt hm
      rw [hg.chain hj, hg.descriptor hj]
      exact ⟨hg.history.subset (hw.guarded hm).1, (hw.guarded hm).2⟩

end Issuing

/-- A read hands out the value of its snapshot. -/
theorem inStep_handing {u : World} {item n : Nat} {a : Access} {later asked : List Happening}
    (hg : w.Grows u) (hi : item < w.items.next)
    (hs : Snapshot item (w.item item).chain a n asked w.history)
    (hh : u.history = later ++ (asked ++ .began (w.item item).chain .read a :: w.history))
    (hu : u.InStep) : (u.mark (.concluded item a (.returned n))).InStep where
  sound := sound_mark _ hu.sound
  tallies {j} hj := by
    obtain ⟨hr, hs, ⟨x, hx⟩, hc⟩ := hu.tallies hj
    have hs' : storedIn j (u.mark (.concluded item a (.returned n))).history =
        storedIn j u.history :=
      (storedIn_cons ..).trans (List.append_nil _)
    refine ⟨?_, hs' ▸ hs, ⟨x, List.mem_cons_of_mem _ hx⟩, fun x hx => ?_⟩
    · exact ((requestedBy_cons ..).trans (List.append_nil _)).trans hr
    · rw [hs']
      exact hc x ((List.mem_cons.mp hx).resolve_left nofun)
  fresh {j y} hj hy := by
    rcases List.mem_cons.mp hy with rfl | hy
    · have : item < j := Nat.lt_of_lt_of_le (Nat.lt_of_lt_of_le hi hg.items) hj
      simpa [Happening.item?] using Nat.ne_of_lt this
    · exact hu.fresh hj hy
  issued := hu.issued_of_grows (grows_mark _ u) [_] (by simp) rfl
  handed := by
    intro newer j b m older h
    cases newer with
    | nil =>
      cases h
      refine ⟨later, asked, w.history, ?_⟩
      rw [show (u.mark (.concluded item a (.returned n))).item item = u.item item from rfl,
        hg.chain hi]
      exact ⟨hh, hs⟩
    | cons y newer => exact hu.handed newer j b m older (List.cons_eq_cons.mp h).2
  guarded hm := by
    obtain ⟨hb, hd⟩ := hu.guarded ((List.mem_cons.mp hm).resolve_left nofun)
    exact ⟨List.mem_cons_of_mem _ hb, hd⟩

end World

theorem ledger_calm : ledger.Calm where
  sound hw := hw.sound
  grows h := h
  quiet h hw := (h.unwritten hw.sound).holds hw
  stuck _ := .refl _
  newStore hid ha hd := Engine.keepsAt_of_eq rfl fun hw =>
    (World.unwritten_of_items (World.grows_withStore _)
      (World.sound_withStore hid ha hd hw.sound) rfl ⟨[], by simp, rfl⟩).holds hw
  rename _ hn _ hw :=
    (World.unwritten_of_items World.grows_rename (World.sound_rename hn hw.sound) rfl
      ⟨[], by simp, rfl⟩).holds hw
  newItem hs hid hc hd h0 _ := Engine.keepsAt_of_eq rfl fun hw =>
    ⟨World.inStep_withItem ⟨_, hs, hid⟩ hc hd h0 hw, World.grows_withItem _⟩

theorem ledger_plain : ledger.Plain where
  sound hw := hw.sound
  grows h := h
  guarding h hw := (h.unwritten hw.sound).holds hw
  stuck _ := .refl _

namespace Engine

variable {call : Nat → Engine Unit} (hc : ∀ r, (call r).Keeps ledger)

include hc

theorem storeValue_ledger {item : Nat} {a : Access} {w : World} (hi : item < w.items.next)
    (hb : .began (w.item item).chain .write a ∈ w.history)
    (hd : a.descriptor = (w.item item).descriptor) :
    (storeValue call item a).KeepsAt ledger w := by
  refine storeValue_keepsAt (fun hw => ?_) (forward_keeps ledger_calm.delivering hc _ _ _)
  exact ⟨World.inStep_issuing hi hb hd hw, World.grows_issuing item a⟩

theorem write_ledger {item : Nat} (value : Value) {w : World} (hi : item < w.items.next) :
    (write call item value).KeepsAt ledger w := by
  intro hw
  refine write_keepsAt ledger_plain hc value (fun pass v hp hv => ?_) hw
  obtain ⟨hb, hd, -⟩ := began_of_enter ledger_plain hc hw hp
  refine storeValue_ledger hc (Nat.lt_of_lt_of_le hi hv.2.items) ?_ ?_
  · rwa [hv.2.chain hi]
  · rw [hd, hv.2.descriptor hi]

/-- A read that was admitted hands out what it found. -/
theorem returned_ledger {β : Type} {item n : Nat} {access : Access} {p : Pass} {r : β}
    {w v : World} (hi : item < w.items.next) (hw : w.InStep)
    (he : enter call (w.item item).chain .read access w = (.done p, v))
    (ha : access.value = (w.item item).value) (hn : p.refusedBy = none) (hle : n ≤ readAttempts)
    (hc' : n < readAttempts → (v.item item).writes = (w.item item).writes) :
    (leave call p >>= fun _ => record (.concluded item p.access (.returned n)) >>= fun _ =>
      pure r).KeepsAt ledger v := by
  obtain ⟨asked, hv, hs⟩ := asked_of_enter ledger_plain hc hw he hn
  have hwv := (enter_keeps ledger_plain hc _ _ _ w).holds hw he
  have hsnap : Snapshot item (w.item item).chain p.access n asked w.history := {
    found := by
      obtain ⟨i, hm⟩ := (hw.tallies hi).made
      exact ⟨i, hm, by rw [value_of_enter he, ha, (hw.tallies hi).cell i hm]⟩
    admitted := hs
    passes := hle
    current := fun hlt => by
      have hv' := (hwv.1.tallies (Nat.lt_of_lt_of_le hi hwv.2.items)).stored
      rw [hc' hlt, ← (hw.tallies hi).stored, hv, storedIn_append, storedIn_cons,
        List.length_append, List.length_append] at hv'
      exact List.length_eq_zero_iff.mp (by omega) }
  refine (leave_keeps ledger_plain hc p v).bind fun _ u _ hvu => ?_
  refine KeepsAt.bind (keepsAt_modify fun hu => ?_) fun _ z _ _ => keeps_pure r z
  obtain ⟨later, hl⟩ := hvu.2.history
  exact ⟨World.inStep_handing (hwv.2.trans hvu.2) hi hsnap (hl.symm.trans (by rw [hv])) hu,
    World.grows_mark _ u⟩

theorem readWithin_ledger {item : Nat} (retries : Nat) : ∀ {w : World}, item < w.items.next →
    (readWithin call item retries).KeepsAt ledger w := by
  have none_of_vetoedBy {p : Pass} {v : World} (h : v.vetoedBy p = none) : p.refusedBy = none :=
    Option.map_eq_none_iff.mp h
  induction retries with
  | zero =>
    intro w hi hw
    unfold readWithin
    refine keepsAt_get_bind ((enter_keeps ledger_plain hc _ _ _ w).bind fun p v he _ =>
      keepsAt_get_bind ?_) hw
    split
    · exact (leave_keeps ledger_plain hc p).bind (fun _ => (mark_keeps ledger_plain rfl).bind
        fun _ => (mark_keeps ledger_plain rfl).bind fun _ => keeps_pure _) v
    · next h =>
      exact returned_ledger hc hi hw he rfl (none_of_vetoedBy h) (Nat.le_refl _)
        fun hlt => absurd hlt (Nat.lt_irrefl _)
  | succ retries ih =>
    intro w hi hw
    unfold readWithin
    refine keepsAt_get_bind ((enter_keeps ledger_plain hc _ _ _ w).bind fun p v he hv =>
      keepsAt_get_bind ?_) hw
    split
    · exact (leave_keeps ledger_plain hc p).bind (fun _ => (mark_keeps ledger_plain rfl).bind
        fun _ => (mark_keeps ledger_plain rfl).bind fun _ => keeps_pure _) v
    · next h =>
      dsimp only
      split
      · refine (mark_keeps ledger_plain rfl v).bind fun _ u _ hu =>
          (mark_keeps ledger_plain rfl u).bind fun _ z _ hz =>
            (leave_keeps ledger_plain hc p z).bind fun _ x _ hx => ih ?_
        exact Nat.lt_of_lt_of_le hi (((hv.2.trans hu.2).trans hz.2).trans hx.2).items
      · next hn =>
        exact returned_ledger hc hi hw he rfl (none_of_vetoedBy h) (Nat.sub_le ..)
          fun _ => Decidable.not_not.mp hn

end Engine

theorem panic_keeps_ledger (text : String) : (Engine.panic text).Keeps ledger := by
  intro w hw
  unfold Engine.panic
  split
  · exact ⟨hw, .refl _⟩
  · have h := World.unwritten_of_items (World.grows_raise text) (World.sound_raise text hw.sound) rfl
      ⟨[.raised text], by simp [Happening.item?], rfl⟩
    exact ⟨(h.holds hw).1, h.grows⟩

theorem ledger_admits {call : Nat → Engine Unit} (hc : ∀ r, (call r).Keeps ledger) :
    Engine.Admits call ledger fun w i => i < w.items.next :=
  ledger_calm.admits hc
    (fun h hw => (h.unwritten (World.InStep.sound hw)).holds hw)
    panic_keeps_ledger
    (fun _ _ => Engine.keepsAt_of_eq rfl fun hw =>
      (World.unwritten_of_items (World.grows_withAspect _)
        (World.sound_withAspect _ (World.InStep.sound hw)) rfl ⟨[], by simp, rfl⟩).holds hw)
    (fun hm _ => Engine.keepsAt_of_eq rfl fun hw =>
      (World.unwritten_of_items (World.grows_withDomain _)
        (World.sound_withDomain hm (World.InStep.sound hw)) rfl ⟨[], by simp, rfl⟩).holds hw)
    (fun v hi => Engine.write_ledger hc v hi)
    (fun hi => Engine.readWithin_ledger hc _ hi)
    (Performing.enter_plain ledger_plain hc) (Performing.exit_plain ledger_plain hc)
    (Performing.chainWait_plain ledger_plain hc fun muted w => Engine.keepsAt_modify
      (ledger_calm.quiet (w.quiet_bookkeeping w.held w.modelDepth w.triggerDepth muted)))
    (fun _ _ _ _ => Engine.visit_ask_keeps ledger_plain hc _ _ _ _)
    (fun _ _ _ _ _ => Engine.visit_tell_keeps ledger_plain hc _ _ _ _ _)

namespace Scenario

theorem inStep_unwinding {w : World} (hw : w.InStep) :
    ({ w with unwinding := false } : World).InStep := by
  have h : w.Unwritten { w with unwinding := false } := World.unwritten_of_items
    { World.Grows.refl w with } (World.sound_unwinding false hw.sound) rfl ⟨[], by simp, rfl⟩
  exact h.inStep hw

theorem inStep_empty : World.InStep {} where
  sound := World.sound_empty
  tallies h := absurd h (Nat.not_lt_zero _)
  fresh _ h := by cases h
  issued newer item a older h := by simp at h
  handed newer i a n older h := by simp at h
  guarded h := by cases h

theorem callOpenUntil_keeps_ledger (opens halt : World → Bool) (depth : Nat) :
    ∀ r, (callOpenUntil opens halt depth r).Keeps ledger :=
  callOpenUntil_keeps (fun _ hc => ledger_admits hc) opens ledger_calm.delivering.opens halt depth

theorem reachedOpen_inStep (opens halt : World → Bool) (depth : Nat) (steps : List Step) :
    (reachedOpen opens halt depth {} steps).InStep :=
  reachedOpen_inv (fun _ hc => ledger_admits hc) opens ledger_calm.delivering.opens
    (fun _ => inStep_unwinding) halt depth steps inStep_empty

theorem reached_inStep (halt : World → Bool) (depth : Nat) (steps : List Step) :
    (reached halt depth {} steps).InStep :=
  reachedOpen_never halt depth ▸ reachedOpen_inStep (fun _ => false) halt depth steps

/-- A step takes nothing back of what happened before. -/
theorem step_grows (depth : Nat) (s : Step) {w : World} (hw : w.InStep) :
    (step depth s w).2.InStep ∧ w.history <:+ (step depth s w).2.history := by
  have hc := callUntil_keeps (fun _ hc => ledger_admits hc) (fun _ => false) depth
  rw [callUntil_never] at hc
  have hk := Performing.answer_keeps (ledger_admits hc) s w
  unfold step
  rcases ho : Performing.answer (callWithin depth) s w with ⟨a | text | _, v⟩ <;>
    obtain ⟨hv, hg⟩ := hk.holds hw ho
  · exact ⟨hv, hg.history⟩
  · exact ⟨inStep_unwinding hv, hg.history⟩
  · exact ⟨hv, hg.history⟩

end Scenario

namespace PassRecord

/-- A pass stores its value before anyone is told that it is over. -/
theorem told_not_mem_of_stored {r : PassRecord} {newer older : List Happening} {i x : Nat}
    {a b : Access} {phase : Phase} {c : Bool}
    (h : r.happenings = newer ++ .stored i a :: older) : .told x phase b c ∉ older := by
  unfold happenings at h
  rw [← List.append_assoc] at h
  intro hm
  rcases List.append_eq_append_iff.mp h with ⟨k, -, hk⟩ | ⟨k, hl, hk⟩
  · have ht : .told x phase b c ∈ k ++ .stored i a :: older :=
      List.mem_append_right _ (List.mem_cons_of_mem _ hm)
    rw [← hk] at ht
    simp at ht
  · cases k with
    | nil =>
      have ht : .told x phase b c ∈ .stored i a :: older := List.mem_cons_of_mem _ hm
      rw [hk] at ht
      simp at ht
    | cons y k =>
      obtain ⟨rfl, -⟩ := List.cons_eq_cons.mp hk
      have hs : .stored i a ∈ newer ++ .stored i a :: k := by simp
      rw [← hl] at hs
      simp at hs

theorem count_map_of_ne {α : Type} {f : α → Happening} {y : Happening} (h : ∀ a, f a ≠ y)
    (l : List α) : (l.map f).count y = 0 :=
  List.count_eq_zero.mpr fun hm => by
    obtain ⟨a, -, ha⟩ := List.mem_map.mp hm
    exact h a ha

theorem count_stored {r : PassRecord} {i : Nat} (h : r.stored = some i) :
    r.happenings.count (.stored i r.access) = 1 := by
  cases hab : r.abandoned <;> simp [happenings, h, hab, List.count_append, count_map_of_ne]

end PassRecord

namespace World

variable {w : World}

/-- What the ledger says of one item. -/
structure Accounts (w : World) (item : Nat) : Prop where
  /-- The triggers requested carry the numbers from one to the count of writes, in order. -/
  requests : requestedBy item w.history =
    (List.range' 1 (w.item item).writes).map fun n => ⟨(w.item item).source, n⟩
  /-- The cell holds the value stored last, which is the one that makes up the count, or the value
  that the item was made with. -/
  cell : (storedIn item w.history).length = (w.item item).writes ∧
    ∃ i, .made item i ∈ w.history ∧
      (w.item item).value = ((storedIn item w.history).getLast?.map (·.value)).getD i.value
  /-- The trigger for a value is requested when the value was stored, and before any aspect is told
  that the write is over. -/
  issued : ∀ newer a older, w.history = newer ++ .stored item a :: older →
    (∃ later domain, newer = later ++
      [.requested (.item item) domain ⟨(w.item item).source, (storedIn item older).length + 1⟩,
        .notice (.writeStored (w.item item).descriptor ((storedIn item older).length + 1))]) ∧
    ∀ x phase b permitted, b.ticket = a.ticket → .told x phase b permitted ∉ older
  /-- A value is stored once, under a write that every aspect of the item admitted. -/
  guarded : ∀ a, .stored item a ∈ w.history →
    .began (w.item item).chain .write a ∈ w.history ∧
    (∀ x ∈ (w.item item).chain, .admitted x .write a true ∈ w.history) ∧
    w.history.count (.stored item a) = 1 ∧
    ∀ j b, .stored j b ∈ w.history → b.ticket = a.ticket → j = item ∧ b = a

theorem Shows.sublist {r : PassRecord} (hr : w.Shows r) {newer older : List Happening}
    {y : Happening} (h : w.history = newer ++ y :: older)
    (hy : y.ticket? = some r.access.ticket) :
    r.happenings = ofTicket r.access.ticket newer ++ y :: ofTicket r.access.ticket older := by
  rw [← hr.record, h, ofTicket_append, ofTicket_cons_self hy]

/-- The record of the pass that a value was stored under. -/
theorem shown_stored (hl : w.InStep) (ho : w.Orderly) {item : Nat} {a : Access}
    (h : .stored item a ∈ w.history) :
    ∃ r, w.Shows r ∧ a = r.access ∧ r.stored = some item ∧ r.chain = (w.item item).chain := by
  obtain ⟨hb, -⟩ := hl.guarded h
  obtain ⟨r, hr, hc, -, rfl⟩ := ho.shown_began hb
  exact ⟨r, hr, rfl, (PassRecord.stored_mem.mp ((hr.mem rfl).mp h)).1, hc.symm⟩

theorem accounts_of_inStep (hl : w.InStep) (ho : w.Orderly) {item : Nat}
    (hi : item < w.items.next) : w.Accounts item where
  requests := (hl.tallies hi).requests
  cell := by
    obtain ⟨i, hm⟩ := (hl.tallies hi).made
    exact ⟨(hl.tallies hi).stored, i, hm, (hl.tallies hi).cell i hm⟩
  issued newer a older h := by
    refine ⟨hl.issued newer item a older h, fun x phase b permitted hb hm => ?_⟩
    obtain ⟨r, hr, rfl, -⟩ := shown_stored hl ho (h ▸ List.mem_append_right _ List.mem_cons_self)
    have hs := hr.sublist h rfl
    exact PassRecord.told_not_mem_of_stored hs (mem_ofTicket.mpr ⟨hm, congrArg some hb⟩)
  guarded a h := by
    obtain ⟨r, hr, rfl, hs, hc⟩ := shown_stored hl ho h
    obtain ⟨hp, -, hall⟩ := hr.lawful.stored (by rw [hs]; rfl)
    refine ⟨(hl.guarded h).1, fun x hx => ?_, ?_, fun j b hb ht => ?_⟩
    · rw [← hp, hr.mem rfl]
      rw [← hc, ← hall, List.mem_reverse] at hx
      exact PassRecord.admitted_mem.mpr ⟨hx, rfl, rfl⟩
    · rw [← PassRecord.count_stored hs, ← hr.record]
      exact (List.count_filter (by simp [Happening.ticket?])).symm
    · have hm := PassRecord.stored_mem.mp ((hr.mem (by rw [Happening.ticket?, ht])).mp hb)
      exact ⟨Option.some.inj (hm.1.symm.trans hs), hm.2⟩

/-- A read, a write that was refused, one that some aspect of its chain did not admit for another
reason, and one that was cut short by a panic out of asking an aspect store nothing. -/
theorem not_stored_of_began (ho : w.Orderly) {chain : List Nat} {phase : Phase} {a : Access}
    (hb : .began chain phase a ∈ w.history)
    (h : phase = .read ∨ (∃ x, .admitted x phase a false ∈ w.history) ∨
      (∃ x ∈ chain, .admitted x phase a true ∉ w.history) ∨
        ∃ xs, .abandoned xs phase a ∈ w.history) {j : Nat} {b : Access}
    (ht : b.ticket = a.ticket) : .stored j b ∉ w.history := by
  intro hm
  obtain ⟨r, hr, rfl, rfl, rfl⟩ := ho.shown_began hb
  have hs := (PassRecord.stored_mem.mp ((hr.mem (by rw [Happening.ticket?, ht])).mp hm)).1
  obtain ⟨hp, hn, hall⟩ := hr.lawful.stored (by rw [hs]; rfl)
  rcases h with h | ⟨x, hx⟩ | ⟨x, hx, hnot⟩ | ⟨xs, hx⟩
  · rw [h] at hp
    cases hp
  · have hx := (PassRecord.refused_mem.mp ((hr.mem rfl).mp hx)).1
    rw [hn] at hx
    cases hx
  · rw [← hall, List.mem_reverse] at hx
    exact hnot ((hr.mem rfl).mpr (PassRecord.admitted_mem.mpr ⟨hx, rfl, rfl⟩))
  · have ha := (PassRecord.abandoned_mem.mp ((hr.mem rfl).mp hx)).1
    exact (hr.lawful.unanswered ha).2 hall

end World

namespace Scenario

/-- At every moment of every run, open or not, the ledger of every item is in order, and reads, and
writes that were not admitted by every aspect or that a panic cut short while they were asked, have
no entry in any ledger. -/
theorem reached_accounts (opens halt : World → Bool) (depth : Nat) (steps : List Step) :
    ∀ w, reachedOpen opens halt depth {} steps = w →
      (∀ item < w.items.next, w.Accounts item) ∧
      ∀ chain phase a, .began chain phase a ∈ w.history →
        (phase = .read ∨ (∃ x, .admitted x phase a false ∈ w.history) ∨
          (∃ x ∈ chain, .admitted x phase a true ∉ w.history) ∨
            ∃ xs, .abandoned xs phase a ∈ w.history) →
        ∀ j b, b.ticket = a.ticket → .stored j b ∉ w.history := by
  rintro w rfl
  have hl := reachedOpen_inStep opens halt depth steps
  have ho := reachedOpen_orderly opens halt depth steps
  exact ⟨fun _ hi => World.accounts_of_inStep hl ho hi, fun _ _ _ hb h _ _ ht =>
    World.not_stored_of_began ho hb h ht⟩

/-- The second write of an item is refused, and a write is made while the item is read. From within
the delivery of its trigger the domain has the item written again, and so it has from within the
delivery of that one. -/
def nestedWrites : List Step :=
  [.domain "d" "d" (.immediate (some (Script.window 2 (some 2) [.write "k" none (.int 4)]))),
    .store "s" (.builder [.affinity (some "d")]),
    .create "s" "k" "n" .int64 (.int 0) none (.custom false false (.links [.fresh (.probe {
      name := "p"
      writes := [true, false, true]
      script := fun h => if h = .beforeRead then
        some (Script.window 0 (some 1) [.write "k" none (.int 3)]) else none })])),
    .write "k" none (.int 1),
    .write "k" none (.int 2),
    .read "k" none]

/-- The access of the refused write. -/
def refusedAccess : Access where
  descriptor := { store := .drawn 0, id := ⟨0, 0⟩, name := "n", type := .int64 }
  value := .int64 1
  ticket := 2

theorem nestedWrites_accounts :
    let w := reachedOpen (fun _ => true) (fun _ => false) maxDepth {} nestedWrites
    w.Accounts 0 ∧ (w.item 0).writes = 5 ∧ .stored 0 refusedAccess ∉ w.history := by
  intro w
  have h := reached_accounts (fun _ => true) (fun _ => false) maxDepth nestedWrites w rfl
  refine ⟨h.1 0 (by decide +kernel), by decide +kernel, ?_⟩
  exact h.2 [0] .write refusedAccess (by decide +kernel) (.inr (.inl ⟨0, by decide +kernel⟩)) 0 _ rfl

end Scenario

end GuardedStore
