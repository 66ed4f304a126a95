import GuardedStore.Proofs.Apart.Alike

/-!
A computation that does in a world what another does in a world alike on a side.

What the one finishes, the other finishes as well, with a result and in a world that correspond.
Meanwhile only what is the side's is changed, and what comes to stand for one another is new in both
worlds. The one may work with other addresses than the other, but with those that stand for them.
-/
namespace GuardedStore

variable {c : Side} {lone : Bool} {t s r : Twins} {u' u v' v w' w : World}

/-- How two worlds that are alike go on to worlds that are alike. -/
structure World.Onward (c : Side) (lone : Bool) (t : Twins) (u' u : World) (s : Twins)
    (v' v : World) : Prop where
  twins : t ≤ s
  items : Renews t.items s.items u'.items.next u.items.next
  aspects : Renews t.aspects s.aspects u'.aspects.next u.aspects.next
  routines : Renews t.routines s.routines u'.routines.next u.routines.next
  left : u'.items.next ≤ v'.items.next ∧ u'.aspects.next ≤ v'.aspects.next ∧
    u'.routines.next ≤ v'.routines.next
  right : u.Confined c (t.aside u) v
  alike : v'.Alike c lone s v

theorem renews_refl {x : Nat → Nat → Prop} {n m : Nat} : Renews x x n m :=
  fun _ _ h => .inl h

/-- What is stood for by nothing stays so. -/
theorem Renews.aside {x y : Nat → Nat → Prop} {n m m' j : Nat} (h : Renews x y n m) (hm : m ≤ m')
    (hj : j < m ∧ ∀ i, ¬ x i j) : j < m' ∧ ∀ i, ¬ y i j := by
  refine ⟨Nat.lt_of_lt_of_le hj.1 hm, fun i hy => ?_⟩
  rcases h i j hy with hx | ⟨-, hle⟩
  · exact hj.2 i hx
  · exact absurd hj.1 (Nat.not_lt.mpr hle)

namespace World.Onward

theorem refl (h : u'.Alike c lone t u) : Onward c lone t u' u t u' u where
  twins := t.le_refl
  items := renews_refl
  aspects := renews_refl
  routines := renews_refl
  left := ⟨Nat.le_refl _, Nat.le_refl _, Nat.le_refl _⟩
  right := .refl c _ u
  alike := h

theorem trans (h : Onward c lone t u' u s v' v) (h' : Onward c lone s v' v r w' w) :
    Onward c lone t u' u r w' w where
  twins := Twins.le_trans h.twins h'.twins
  items := h.items.trans h'.items h.left.1 h.right.grows.1
  aspects := h.aspects.trans h'.aspects h.left.2.1 h.right.grows.2.1
  routines := h.routines.trans h'.routines h.left.2.2 h.right.grows.2.2.1
  left := ⟨Nat.le_trans h.left.1 h'.left.1, Nat.le_trans h.left.2.1 h'.left.2.1,
    Nat.le_trans h.left.2.2 h'.left.2.2⟩
  right := h.right.trans (h'.right.anti (h.items.aside h.right.grows.1)
    (h.aspects.aside h.right.grows.2.1) (h.routines.aside h.right.grows.2.2.1))
  alike := h'.alike

end World.Onward

namespace Twins

/-- Nothing is said of the results. -/
def Any {α β : Type} : Twins → α → β → Prop := fun _ _ _ => True

/-- The results are the same. -/
def Same {α : Type} : Twins → α → α → Prop := fun _ a b => a = b

end Twins

namespace Engine

variable {α β γ δ : Type} {m' : Engine α} {m : Engine β} {Q : Twins → α → β → Prop}
  {R : Twins → γ → δ → Prop}

/-- What `m` finishes in the one world, `m'` finishes in the other, and the worlds are alike again.
-/
def TracksAt (c : Side) (lone : Bool) (t : Twins) (u' u : World) (m' : Engine α) (m : Engine β)
    (Q : Twins → α → β → Prop) : Prop :=
  u'.Alike c lone t u → ∀ b v, m u = (.done b, v) →
    ∃ r a v', m' u' = (.done a, v') ∧ World.Onward c lone t u' u r v' v ∧ Q r a b

/-- The one computation does what the other does in all worlds that are alike. -/
def Tracks (c : Side) (lone : Bool) (t : Twins) (m' : Engine α) (m : Engine β)
    (Q : Twins → α → β → Prop) : Prop :=
  ∀ s u' u, t ≤ s → TracksAt c lone s u' u m' m Q

theorem Tracks.mono (h : Tracks c lone t m' m Q) (hle : t ≤ s) : Tracks c lone s m' m Q :=
  fun r u' u hr => h r u' u (Twins.le_trans hle hr)

theorem Tracks.at (h : Tracks c lone t m' m Q) : TracksAt c lone t u' u m' m Q :=
  h t u' u t.le_refl

theorem tracks_pure {a : α} {b : β} (h : ∀ s, t ≤ s → Q s a b) :
    Tracks c lone t (pure a) (pure b) Q := by
  intro s u' u hs hu b v hm
  cases hm
  exact ⟨s, a, u', rfl, .refl hu, h s hs⟩

theorem tracks_unit : Tracks c lone t (pure ()) (pure ()) Twins.Any :=
  tracks_pure fun _ _ => trivial

theorem TracksAt.bind {f' : α → Engine γ} {f : β → Engine δ} (hm : TracksAt c lone t u' u m' m Q)
    (hf : ∀ s a b v' v, World.Onward c lone t u' u s v' v → Q s a b →
      TracksAt c lone s v' v (f' a) (f b) R) :
    TracksAt c lone t u' u (m' >>= f') (m >>= f) R := by
  intro hu b v hr
  rw [bind_apply] at hr
  rcases hb : m u with ⟨x | _ | _, z⟩ <;> rw [hb] at hr
  · obtain ⟨q, y, z', hy, hz, hQ⟩ := hm hu x z hb
    obtain ⟨r, a, v', ha, hv, hR⟩ := hf q y x z' z hz hQ hz.alike b v hr
    exact ⟨r, a, v', by rw [bind_apply, hy]; exact ha, hz.trans hv, hR⟩
  · cases hr
  · cases hr

theorem Tracks.bind {f' : α → Engine γ} {f : β → Engine δ} (hm : Tracks c lone t m' m Q)
    (hf : ∀ s a b, t ≤ s → Q s a b → Tracks c lone s (f' a) (f b) R) :
    Tracks c lone t (m' >>= f') (m >>= f) R :=
  fun s u' u hs => (hm s u' u hs).bind fun r a b _ _ hv hQ =>
    (hf r a b (Twins.le_trans hs hv.twins) hQ).at

/-- What follows something of which only the effect matters. -/
theorem Tracks.seq {f' : α → Engine γ} {f : β → Engine δ} (hm : Tracks c lone t m' m Q)
    (hf : ∀ a b, Tracks c lone t (f' a) (f b) R) : Tracks c lone t (m' >>= f') (m >>= f) R :=
  hm.bind fun _ a b hs _ => (hf a b).mono hs

theorem tracksAt_get_bind {f' : World → Engine γ} {f : World → Engine δ}
    (h : u'.Alike c lone t u → TracksAt c lone t u' u (f' u') (f u) R) :
    TracksAt c lone t u' u (get >>= f') (get >>= f) R :=
  fun hu => h hu hu

theorem tracks_get_bind {f' : World → Engine γ} {f : World → Engine δ}
    (h : ∀ s u' u, t ≤ s → World.Alike c lone s u' u → Tracks c lone s (f' u') (f u) R) :
    Tracks c lone t (get >>= f') (get >>= f) R :=
  fun s u' u hs => tracksAt_get_bind fun hu => (h s u' u hs hu).at

theorem tracks_modify {f' f : World → World}
    (h : ∀ s u' u, t ≤ s → World.Alike c lone s u' u →
      World.Onward c lone s u' u s (f' u') (f u)) :
    Tracks c lone t (modify f') (modify f) Twins.Any := by
  intro s u' u hs hu b v hr
  cases hr
  exact ⟨s, (), f' u', rfl, h s u' u hs hu, trivial⟩

theorem tracks_wait : Tracks c lone t m' (wait : Engine β) Q := by
  intro s u' u _ _ b v hr
  cases hr

/-- Nothing follows a wait without end. -/
theorem tracks_wait_bind {m' : Engine γ} {f : β → Engine δ} :
    Tracks c lone t m' (wait >>= f) R := by
  intro s u' u _ _ b v hr
  cases hr

theorem tracks_panic {m' : Engine α} {text : String} {Q : Twins → α → Unit → Prop} :
    Tracks c lone t m' (panic text) Q := by
  intro s u' u _ hu b v hr
  unfold panic at hr
  rw [hu.calm.2] at hr
  cases hr

theorem Tracks.ensure {k' k : Engine Unit} (hm : Tracks c lone t m' m Q)
    (hQ : ∀ {s r a b}, s ≤ r → Q s a b → Q r a b) (hk : Tracks c lone t k' k Twins.Any) :
    Tracks c lone t (ensure m' k') (ensure m k) Q := by
  intro s u' u hs hu b v hr
  unfold Engine.ensure at hr
  rcases hb : m u with ⟨x | _ | _, z⟩ <;> rw [hb] at hr
  · obtain ⟨q, y, z', hy, hz, hx⟩ := hm s u' u hs hu x z hb
    have last : Tracks c lone q (k' >>= fun _ => pure y) (k >>= fun _ => pure x) Q :=
      (hk.mono (Twins.le_trans hs hz.twins)).bind fun r _ _ hle _ =>
        tracks_pure fun _ hle' => hQ (Twins.le_trans hle hle') hx
    obtain ⟨r, a, v', ha, hv, hb⟩ := last q z' z q.le_refl hz.alike b v hr
    exact ⟨r, a, v', by unfold Engine.ensure; rw [hy]; exact ha, hz.trans hv, hb⟩
  · dsimp only at hr
    split at hr <;> cases hr
  · cases hr

theorem Tracks.onUnwind {k' k : Engine Unit} (hm : Tracks c lone t m' m Q) :
    Tracks c lone t (onUnwind m' k') (onUnwind m k) Q := by
  intro s u' u hs hu b v hr
  unfold Engine.onUnwind at hr
  rcases hb : m u with ⟨x | _ | _, z⟩ <;> rw [hb] at hr
  · cases hr
    obtain ⟨q, y, z', hy, hz⟩ := hm s u' u hs hu b v hb
    exact ⟨q, y, z', by unfold Engine.onUnwind; rw [hy], hz⟩
  · dsimp only at hr
    split at hr <;> cases hr
  · cases hr

/-- A computation that ends in a change of the world; whatever led to the worlds it starts in, both
go on together if this change makes it so. -/
theorem Tracks.ensure_modify {k' k : World → World} (hm : Tracks c lone t m' m Q)
    (hw : w'.Alike c lone t w)
    (leave : ∀ r v' v, World.Onward c lone t w' w r v' v →
      World.Onward c lone t u' u r (k' v') (k v)) {b : β}
    (hr : Engine.ensure m (modify k) w = (.done b, v)) :
    ∃ r a v', Engine.ensure m' (modify k') w' = (.done a, v') ∧
      World.Onward c lone t u' u r v' v ∧ Q r a b := by
  unfold Engine.ensure at hr
  rcases hb : m w with ⟨x | _ | _, z⟩ <;> rw [hb] at hr
  · cases hr
    obtain ⟨q, y, z', hy, hz, hb⟩ := hm.at hw b z hb
    exact ⟨q, y, k' z', by unfold Engine.ensure; rw [hy]; rfl, leave q z' z hz, hb⟩
  · cases hr
  · cases hr

/-- What is changed for a while and put back as it was. -/
theorem Tracks.around {e' e k' k : World → World}
    (enter : u'.Alike c lone t u → World.Alike c lone t (e' u') (e u))
    (hm : Tracks c lone t m' m Q)
    (leave : ∀ r v' v, u'.Alike c lone t u → World.Onward c lone t (e' u') (e u) r v' v →
      World.Onward c lone t u' u r (k' v') (k v)) :
    TracksAt c lone t u' u (modify e' >>= fun _ => Engine.ensure m' (modify k'))
      (modify e >>= fun _ => Engine.ensure m (modify k)) Q :=
  fun hu _ _ hr => hm.ensure_modify (enter hu) (fun r v' v => leave r v' v hu) hr

theorem tracks_forM {A : α → β → Prop} {f' : α → Engine Unit} {f : β → Engine Unit}
    (hf : ∀ a b, A a b → Tracks c lone t (f' a) (f b) Twins.Any)
    {l' : List α} {l : List β} (hl : List.Forall₂ A l' l) :
    Tracks c lone t (l'.forM f') (l.forM f) Twins.Any := by
  induction hl with
  | nil => exact tracks_unit
  | cons ha hl ih => exact (hf _ _ ha).seq fun _ _ => ih

theorem tracks_mapM {A : α → β → Prop} {B : Twins → γ → δ → Prop} {f' : α → Engine γ}
    {f : β → Engine δ} (hB : ∀ {s r a b}, s ≤ r → B s a b → B r a b)
    (hf : ∀ a b, A a b → Tracks c lone t (f' a) (f b) B)
    {l' : List α} {l : List β} (hl : List.Forall₂ A l' l) :
    Tracks c lone t (l'.mapM f') (l.mapM f) fun s => List.Forall₂ (B s) := by
  induction hl with
  | nil => exact tracks_pure fun _ _ => .nil
  | cons ha hl ih =>
    rw [List.mapM_cons, List.mapM_cons]
    refine (hf _ _ ha).bind fun s x y hs hxy => (ih.mono hs).bind fun r xs ys hr hxys => ?_
    exact tracks_pure fun q hq => .cons (hB (Twins.le_trans hr hq) hxy) (hxys.imp fun _ _ => hB hq)

end Engine

/-! ### What is written -/

namespace World

/-- A change of the one world and of the other by which no address is handed out. -/
theorem Alike.onward (h : v'.Alike c lone t v) (left : v'.items.next = u'.items.next ∧
      v'.aspects.next = u'.aspects.next ∧ v'.routines.next = u'.routines.next)
    (right : u.Confined c (t.aside u) v) : Onward c lone t u' u t v' v where
  twins := t.le_refl
  items := renews_refl
  aspects := renews_refl
  routines := renews_refl
  left := ⟨Nat.le_of_eq left.1.symm, Nat.le_of_eq left.2.1.symm, Nat.le_of_eq left.2.2.symm⟩
  right := right
  alike := h

variable (h : u'.Alike c lone t u)

include h

theorem Alike.modifyStore {n : Nat} (hn : c.stores n) {f' f : Store → Store}
    (hf : (f' (u'.store n)).Twin t (f (u.store n))) (hid : (f (u.store n)).id = (u.store n).id) :
    Onward c lone t u' u t (u'.modifyStore n f') (u.modifyStore n f) := by
  refine Alike.onward { h with stores := ?_, ids := ?_ } ⟨rfl, rfl, rfl⟩
    { Confined.refl c _ u with stores := ?_ }
  · intro s hs
    rw [store_modifyStore, store_modifyStore]
    split
    · exact hf
    · exact h.stores hs
  · intro s hs
    rw [store_modifyStore]
    split
    · next he => rw [hid, he, h.ids hn]
    · exact h.ids hs
  · intro s hs
    rw [store_modifyStore, if_neg]
    rintro rfl
    simp [hn] at hs

theorem Alike.modifyItem {i j : Nat} (hij : t.items i j) {f' f : Item → Item}
    (hf : (f' (u'.item i)).Twin t c (f (u.item j))) :
    Onward c lone t u' u t (u'.modifyItem i f') (u.modifyItem j f) := by
  refine Alike.onward { h with items := ?_ } ⟨rfl, rfl, rfl⟩
    { Confined.refl c _ u with items := ?_ }
  · intro k l hkl
    rw [item_modifyItem, item_modifyItem]
    have hiff := h.itemLinks.iff hkl hij
    split
    · next he => rw [if_pos (hiff.mp he)]; exact hf
    · next he => rw [if_neg (mt hiff.mpr he)]; exact h.items hkl
  · intro l hl
    rw [item_modifyItem, if_neg]
    rintro rfl
    exact hl.2 i hij

theorem Alike.setAspect {i j : Nat} (hij : t.aspects i j) {a' a : Aspect Nat} (ha : a'.Twin t a) :
    Onward c lone t u' u t (u'.setAspect i a') (u.setAspect j a) := by
  refine Alike.onward { h with aspects := ?_ } ⟨rfl, rfl, rfl⟩
    { Confined.refl c _ u with aspects := ?_ }
  · intro k l hkl
    rw [aspect_setAspect, aspect_setAspect]
    have hiff := h.aspectLinks.iff hkl hij
    split
    · next he => rw [if_pos (hiff.mp he)]; exact ha
    · next he => rw [if_neg (mt hiff.mpr he)]; exact h.aspects hkl
  · intro l hl
    rw [aspect_setAspect, if_neg]
    rintro rfl
    exact hl.2 i hij

theorem Alike.setRoutine {i j : Nat} (hij : t.routines i j) {r' r : Routine} (hr : r'.Twin c r) :
    Onward c lone t u' u t { u' with routines := u'.routines.set i r' }
      { u with routines := u.routines.set j r } := by
  refine Alike.onward { h with routines := ?_ } ⟨rfl, rfl, rfl⟩
    { Confined.refl c _ u with routines := ?_ }
  · intro k l hkl
    rw [Heap.get_set, Heap.get_set]
    have hiff := h.routineLinks.iff hkl hij
    split
    · next he => rw [if_pos (hiff.mp he)]; exact hr
    · next he => rw [if_neg (mt hiff.mpr he)]; exact h.routines hkl
  · intro l hl
    rw [Heap.get_set, if_neg]
    rintro rfl
    exact hl.2 i hij

theorem Alike.changeDomain (d : Nat) {f' f : Domain → Domain}
    (hf : (f' (u'.domain d)).Twin c (f (u.domain d)))
    (hq : lone → (f' (u'.domain d)).queue = (f (u.domain d)).queue.filter (c.fires ·.source)) :
    World.Alike c lone t (u'.modifyDomain d f') (u.modifyDomain d f) := by
  refine { h with domains := ?_, queues := ?_ }
  · intro e
    rw [domain_modifyDomain, domain_modifyDomain]
    split
    · exact hf
    · exact h.domains e
  · intro hl e
    rw [domain_modifyDomain, domain_modifyDomain]
    split
    · exact hq hl
    · exact h.queues hl e

theorem Alike.modifyDomain (d : Nat) {f' f : Domain → Domain}
    (hf : (f' (u'.domain d)).Twin c (f (u.domain d)))
    (hq : lone → (f' (u'.domain d)).queue = (f (u.domain d)).queue.filter (c.fires ·.source))
    (hs : (u.domain d).Confined c (f (u.domain d))) :
    Onward c lone t u' u t (u'.modifyDomain d f') (u.modifyDomain d f) := by
  refine Alike.onward (h.changeDomain d hf hq) ⟨rfl, rfl, rfl⟩
    { Confined.refl c _ u with domains := ?_ }
  intro e
  rw [domain_modifyDomain]
  split
  · next he => exact he ▸ hs
  · exact .refl c _

theorem Alike.rename {f' f : Names → Names} (hf : (f' u'.names).Twin t c (f u.names))
    (hs : u.names.Confined c (f u.names)) :
    Onward c lone t u' u t { u' with names := f' u'.names } { u with names := f u.names } :=
  Alike.onward { h with names := hf } ⟨rfl, rfl, rfl⟩ { Confined.refl c _ u with names := hs }

/-- Something other than the run of a hook is put on record. -/
theorem Alike.note {x y : Happening} (hx : x.Mute) (hy : y.Mute) :
    Onward c lone t u' u t { u' with history := x :: u'.history }
      { u with history := y :: u.history } := by
  refine Alike.onward { h with runs := ?_ } ⟨rfl, rfl, rfl⟩ { Confined.refl c _ u with runs := ?_ }
  · intro s hs
    show runsOf s (x :: u'.history) = runsOf s (y :: u.history)
    rw [runsOf_of_mute hx, runsOf_of_mute hy, h.runs hs]
  · intro s _
    exact runsOf_of_mute hy s u.history

/-- The run of a hook is put on record. -/
theorem Alike.noteRun {n triggers : Nat} (hn : c.stores n) {k' k : ModelHook}
    (hk : k'.label = k.label) :
    Onward c lone t u' u t { u' with history := .ran n k' triggers :: u'.history }
      { u with history := .ran n k triggers :: u.history } := by
  refine Alike.onward { h with runs := ?_ } ⟨rfl, rfl, rfl⟩ { Confined.refl c _ u with runs := ?_ }
  · intro s hs
    show runsOf s (.ran n k' triggers :: u'.history) = runsOf s (.ran n k triggers :: u.history)
    rw [runsOf_cons, runsOf_cons, h.runs hs]
    congr 1
    unfold Happening.ran?
    split <;> simp_all
  · intro s hs
    show runsOf s (.ran n k triggers :: u.history) = runsOf s u.history
    have hne : ¬ n = s := by
      rintro rfl
      simp [hn] at hs
    rw [runsOf_cons]
    unfold Happening.ran?
    simp [hne]

end World

namespace Engine

theorem tracks_record {x y : Happening} (hx : x.Mute) (hy : y.Mute) :
    Tracks c lone t (record x) (record y) Twins.Any :=
  tracks_modify fun _ _ _ _ hu => hu.note hx hy

theorem tracks_report {x y : Happening} (hx : x.Mute) (hy : y.Mute) :
    Tracks c lone t (report x) (report y) Twins.Any := by
  intro s u' u hs hu b v hr
  unfold report at hr ⊢
  rw [hu.muted]
  cases hm : u.muted <;> rw [hm] at hr
  · exact tracks_record hx hy s u' u hs hu b v hr
  · cases hr
    exact ⟨s, (), u', rfl, .refl hu, trivial⟩

theorem tracks_notice {n' n : Notice} :
    Tracks c lone t (notice n') (notice n) Twins.Any :=
  tracks_record (fun _ => rfl) fun _ => rfl

theorem tracks_modifyStore {n : Nat} (hn : c.stores n) {f' f : Store → Store}
    (hf : ∀ s x' x, t ≤ s → x'.Twin s x → (f' x').Twin s (f x)) (hid : ∀ x, (f x).id = x.id) :
    Tracks c lone t (modify (World.modifyStore n f')) (modify (World.modifyStore n f)) Twins.Any :=
  tracks_modify fun s _ _ hs hu => hu.modifyStore hn (hf s _ _ hs (hu.stores hn)) (hid _)

theorem tracks_modifySignal {n : Nat} (hn : c.stores n) {f' f : Signal → Signal}
    (hf : ∀ s x' x, t ≤ s → x'.Twin s x → (f' x').Twin s (f x)) :
    Tracks c lone t (modify (World.modifySignal n f')) (modify (World.modifySignal n f))
      Twins.Any :=
  tracks_modifyStore hn
    (fun s x' x hs hx => { hx with signal := hf s x'.signal x.signal hs hx.signal }) fun _ => rfl

theorem tracks_modifyItem {i j : Nat} (hij : t.items i j) {f' f : Item → Item}
    (hf : ∀ s x' x, t ≤ s → x'.Twin s c x → (f' x').Twin s c (f x)) :
    Tracks c lone t (modify (World.modifyItem i f')) (modify (World.modifyItem j f)) Twins.Any :=
  tracks_modify fun s _ _ hs hu => hu.modifyItem (hs.1 hij) (hf s _ _ hs (hu.items (hs.1 hij)))

theorem tracks_setAspect {i j : Nat} (hij : t.aspects i j) {a' a : Aspect Nat} (ha : a'.Twin t a) :
    Tracks c lone t (setAspect i a') (setAspect j a) Twins.Any :=
  tracks_modify fun _ _ _ hs hu => hu.setAspect (hs.2.1 hij) (ha.mono hs)

end Engine

/-! ### What is made -/

namespace Twins

variable (t) (i j : Nat)

def withItem : Twins := { t with items := fun k l => t.items k l ∨ k = i ∧ l = j }

def withAspect : Twins := { t with aspects := fun k l => t.aspects k l ∨ k = i ∧ l = j }

def withRoutine : Twins := { t with routines := fun k l => t.routines k l ∨ k = i ∧ l = j }

def withTicket : Twins := { t with tickets := fun k l => t.tickets k l ∨ k = i ∧ l = j }

theorem le_withItem : t ≤ t.withItem i j := ⟨.inl, id, id, id⟩

theorem le_withAspect : t ≤ t.withAspect i j := ⟨id, .inl, id, id⟩

theorem le_withRoutine : t ≤ t.withRoutine i j := ⟨id, id, .inl, id⟩

theorem le_withTicket : t ≤ t.withTicket i j := ⟨id, id, id, .inl⟩

end Twins

/-- What lies at the addresses handed out before is as it was. -/
theorem Heap.get_push_of_lt {α : Type} [Inhabited α] (h : Heap α) (a : α) {i : Nat}
    (hi : i < h.next) : (h.push a).get i = h.get i := by
  rw [Heap.get_push, if_neg (Nat.ne_of_lt hi)]

theorem Heap.get_push_self {α : Type} [Inhabited α] (h : Heap α) (a : α) :
    (h.push a).get h.next = a := by
  rw [Heap.get_push, if_pos rfl]

namespace World

variable (h : u'.Alike c lone t u)

include h

/-- More comes to stand for one another, and nothing but items, aspects, routines and the count of
the passes has changed. -/
theorem Alike.widen (hle : t ≤ s) {items' items : Heap Item} {aspects' aspects : Heap (Aspect Nat)}
    {routines' routines : Heap Routine} {tickets' tickets : Nat}
    (itemLinks : Links s.items items'.next items.next)
    (aspectLinks : Links s.aspects aspects'.next aspects.next)
    (routineLinks : Links s.routines routines'.next routines.next)
    (ticketLinks : Links s.tickets (tickets' + 1) (tickets + 1))
    (itemTwins : ∀ {i j}, s.items i j → (items'.get i).Twin s c (items.get j))
    (aspectTwins : ∀ {i j}, s.aspects i j → (aspects'.get i).Twin s (aspects.get j))
    (routineTwins : ∀ {i j}, s.routines i j → (routines'.get i).Twin c (routines.get j)) :
    World.Alike c lone s
      { u' with items := items', aspects := aspects', routines := routines', tickets := tickets' }
      { u with items, aspects, routines, tickets } where
  itemLinks := itemLinks
  aspectLinks := aspectLinks
  routineLinks := routineLinks
  ticketLinks := ticketLinks
  items := itemTwins
  aspects := aspectTwins
  routines := routineTwins
  stores hs := (h.stores hs).mono hle
  ids := h.ids
  domains := h.domains
  queues := h.queues
  names := h.names.mono hle
  held := h.held
  depths := h.depths
  muted := h.muted
  calm := h.calm
  runs := h.runs

theorem Alike.pushItem {x' x : Item} (hx : x'.Twin t c x) :
    Onward c lone t u' u (t.withItem u'.items.next u.items.next)
      { u' with items := u'.items.push x' } { u with items := u.items.push x } where
  twins := t.le_withItem _ _
  items := renews_push
  aspects := renews_refl
  routines := renews_refl
  left := ⟨Nat.le_succ _, Nat.le_refl _, Nat.le_refl _⟩
  right := { Confined.refl c _ u with
    grows := ⟨Nat.le_succ _, Nat.le_refl _, Nat.le_refl _, Nat.le_refl _⟩
    items := fun hj => Heap.get_push_of_lt _ _ hj.1 }
  alike := by
    refine h.widen (t.le_withItem _ _) h.itemLinks.push h.aspectLinks h.routineLinks
      h.ticketLinks ?_ (fun ha => (h.aspects ha).mono (t.le_withItem _ _)) h.routines
    rintro i j (hij | ⟨rfl, rfl⟩)
    · have hlt := h.itemLinks.lt hij
      rw [Heap.get_push_of_lt _ _ hlt.1, Heap.get_push_of_lt _ _ hlt.2]
      exact (h.items hij).mono (t.le_withItem _ _)
    · rw [Heap.get_push_self, Heap.get_push_self]
      exact hx.mono (t.le_withItem _ _)

theorem Alike.pushAspect {x' x : Aspect Nat} (hx : x'.Twin t x) :
    Onward c lone t u' u (t.withAspect u'.aspects.next u.aspects.next)
      { u' with aspects := u'.aspects.push x' } { u with aspects := u.aspects.push x } where
  twins := t.le_withAspect _ _
  items := renews_refl
  aspects := renews_push
  routines := renews_refl
  left := ⟨Nat.le_refl _, Nat.le_succ _, Nat.le_refl _⟩
  right := { Confined.refl c _ u with
    grows := ⟨Nat.le_refl _, Nat.le_succ _, Nat.le_refl _, Nat.le_refl _⟩
    aspects := fun hj => Heap.get_push_of_lt _ _ hj.1 }
  alike := by
    refine h.widen (t.le_withAspect _ _) h.itemLinks h.aspectLinks.push h.routineLinks h.ticketLinks
      (fun hi => (h.items hi).mono (t.le_withAspect _ _)) ?_ h.routines
    rintro i j (hij | ⟨rfl, rfl⟩)
    · have hlt := h.aspectLinks.lt hij
      rw [Heap.get_push_of_lt _ _ hlt.1, Heap.get_push_of_lt _ _ hlt.2]
      exact (h.aspects hij).mono (t.le_withAspect _ _)
    · rw [Heap.get_push_self, Heap.get_push_self]
      exact hx.mono (t.le_withAspect _ _)

theorem Alike.pushRoutine {x' x : Routine} (hx : x'.Twin c x) :
    Onward c lone t u' u (t.withRoutine u'.routines.next u.routines.next)
      { u' with routines := u'.routines.push x' } { u with routines := u.routines.push x } where
  twins := t.le_withRoutine _ _
  items := renews_refl
  aspects := renews_refl
  routines := renews_push
  left := ⟨Nat.le_refl _, Nat.le_refl _, Nat.le_succ _⟩
  right := { Confined.refl c _ u with
    grows := ⟨Nat.le_refl _, Nat.le_refl _, Nat.le_succ _, Nat.le_refl _⟩
    routines := fun hj => Heap.get_push_of_lt _ _ hj.1 }
  alike := by
    refine h.widen (t.le_withRoutine _ _) h.itemLinks h.aspectLinks h.routineLinks.push
      h.ticketLinks (fun hi => (h.items hi).mono (t.le_withRoutine _ _))
      (fun ha => (h.aspects ha).mono (t.le_withRoutine _ _)) ?_
    rintro i j (hij | ⟨rfl, rfl⟩)
    · have hlt := h.routineLinks.lt hij
      rw [Heap.get_push_of_lt _ _ hlt.1, Heap.get_push_of_lt _ _ hlt.2]
      exact h.routines hij
    · rw [Heap.get_push_self, Heap.get_push_self]
      exact hx

theorem Alike.nextTicket :
    Onward c lone t u' u (t.withTicket (u'.tickets + 1) (u.tickets + 1))
      { u' with tickets := u'.tickets + 1 } { u with tickets := u.tickets + 1 } where
  twins := t.le_withTicket _ _
  items := renews_refl
  aspects := renews_refl
  routines := renews_refl
  left := ⟨Nat.le_refl _, Nat.le_refl _, Nat.le_refl _⟩
  right := { Confined.refl c _ u with
    grows := ⟨Nat.le_refl _, Nat.le_refl _, Nat.le_refl _, Nat.le_succ _⟩ }
  alike :=
    h.widen (t.le_withTicket _ _) h.itemLinks h.aspectLinks h.routineLinks h.ticketLinks.push
      (fun hi => (h.items hi).mono (t.le_withTicket _ _))
      (fun ha => (h.aspects ha).mono (t.le_withTicket _ _)) h.routines

end World

namespace Engine

theorem tracks_newItem {x' x : Item} (hx : x'.Twin t c x) :
    Tracks c lone t (newItem x') (newItem x) Twins.items := by
  intro s u' u hs hu b v hr
  cases hr
  have hv := hu.pushItem (hx.mono hs)
  exact ⟨_, _, _, rfl, hv.trans (hv.alike.note (fun _ => rfl) fun _ => rfl), .inr ⟨rfl, rfl⟩⟩

theorem tracks_newAspect {x' x : Aspect Nat} (hx : x'.Twin t x) :
    Tracks c lone t (newAspect x') (newAspect x) Twins.aspects := by
  intro s u' u hs hu b v hr
  cases hr
  exact ⟨_, _, _, rfl, hu.pushAspect (hx.mono hs), .inr ⟨rfl, rfl⟩⟩

theorem tracks_newRoutine {f : Script} (hf : f.KeepsTo c) :
    Tracks c lone t (newRoutine f) (newRoutine f) Twins.routines := by
  intro s u' u _ hu b v hr
  cases hr
  exact ⟨_, _, _, rfl, hu.pushRoutine ⟨rfl, rfl, hf⟩, .inr ⟨rfl, rfl⟩⟩

theorem tracks_newTicket : Tracks c lone t newTicket newTicket Twins.tickets := by
  intro s u' u _ hu b v hr
  cases hr
  exact ⟨_, _, _, rfl, hu.nextTicket, .inr ⟨rfl, rfl⟩⟩

/-- A routine of the side asks for the same steps in both worlds. -/
theorem tracks_callRoutine {i j : Nat} (hij : t.routines i j) :
    Tracks c lone t (callRoutine i) (callRoutine j)
      fun _ steps' steps => steps' = steps ∧ ∀ x ∈ steps, x.KeepsTo c := by
  intro s u' u hs hu b v hr
  cases hr
  have hr := hu.routines (hs.2.2.1 hij)
  have called : Routine.Twin c { u'.routines.get i with calls := (u'.routines.get i).calls + 1 }
      { u.routines.get j with calls := (u.routines.get j).calls + 1 } :=
    ⟨hr.script, congrArg (· + 1) hr.calls, hr.keepsTo⟩
  refine ⟨s, _, _, rfl, hu.setRoutine (hs.2.2.1 hij) called, ?_, hr.keepsTo _⟩
  rw [hr.script, hr.calls]

end Engine

end GuardedStore
