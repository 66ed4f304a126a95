import GuardedStore.Proofs.Estate.Steps

/-!
The law of those who follow a source.

Whoever is subscribed to a source and is not the store that the source belongs to follows it.
Followers come when somebody subscribes them. They go, all of them at once, when somebody removes
the subscriptions of the source, when what the source stands for is no more, and when its store
leaves the domain that they follow it in.
-/
namespace GuardedStore

/-- Whether the source belongs to the subscriber. -/
def Subscriber.owns (source : Source) : Subscriber → Bool
  | .store s => source.owner = .drawn s
  | .dependent _ => false

/-- Those who are not the store that the source belongs to. -/
def followers (source : Source) (subscribers : List Subscriber) : List Subscriber :=
  subscribers.filter fun x => !x.owns source

/-- Who follows a source in a domain, in order of subscription. -/
def Domain.followers (d : Domain) (source : Source) : List Subscriber :=
  GuardedStore.followers source (d.subscribers source)

@[simp] theorem followers_nil (source : Source) : followers source [] = [] := rfl

/-- A store that is subscribed to a source of its own does not follow it. -/
theorem followers_concat_store {source : Source} {s : Nat} (ho : source.owner = .drawn s)
    (subscribers : List Subscriber) :
    followers source (subscribers ++ [.store s]) = followers source subscribers := by
  simp [followers, Subscriber.owns, ho]

/-- How often something has happened that is told by what happened before, too. -/
def occasions (p : List Happening → Happening → Bool) : List Happening → Nat
  | [] => 0
  | y :: older => occasions p older + if p older y then 1 else 0

theorem occasions_le {p : List Happening → Happening → Bool} {h h' : List Happening}
    (hs : h <:+ h') : occasions p h ≤ occasions p h' := by
  obtain ⟨newer, rfl⟩ := hs
  induction newer with
  | nil => exact Nat.le_refl _
  | cons y newer ih => exact Nat.le_trans ih (Nat.le_add_right _ _)

namespace Happening

/-- Whether a store that was bound to a domain is bound to another. -/
def departs (s d : Nat) (older : List Happening) : Happening → Bool
  | bound t _ => t = s ∧ binding s older = some (some d)
  | _ => false

/-- Whether it makes a difference to who follows a source in a domain. -/
def stirs (d : Nat) (source : Source) (older : List Happening) : Happening → Bool
  | subscribed a src | unsubscribed a src => a = some d ∧ src = source
  | notice (.itemDestroyed id item _) => source = .item id item
  | notice (.storeDropped id ..) => source = .store id
  | bound s _ => source.owner = .drawn s ∧ binding s older = some (some d)
  | _ => false

/-- Whether a store is bound somewhere. -/
def binds : Happening → Bool
  | bound .. => true
  | _ => false

end Happening

/-- How often a store has left a domain. -/
def departures (s d : Nat) : List Happening → Nat :=
  occasions (Happening.departs s d)

/-- How often something has made a difference to who follows a source in a domain. -/
def stirrings (d : Nat) (source : Source) : List Happening → Nat :=
  occasions (Happening.stirs d source)

/-- How often somebody other than a store has been subscribed to a source in a domain. -/
def enlistments (d : Nat) (source : Source) (h : List Happening) : Nat :=
  h.count (.subscribed (some d) source)

theorem stirrings_le (d : Nat) (source : Source) {h h' : List Happening} (hs : h <:+ h') :
    stirrings d source h ≤ stirrings d source h' :=
  occasions_le hs

theorem enlistments_le (d : Nat) (source : Source) {h h' : List Happening} (hs : h <:+ h') :
    enlistments d source h ≤ enlistments d source h' :=
  hs.sublist.count_le _

theorem binding_append {s : Nat} {newer : List Happening} (hn : ∀ y ∈ newer, y.binds = false)
    (h : List Happening) : binding s (newer ++ h) = binding s h := by
  induction newer with
  | nil => rfl
  | cons y newer ih =>
    rw [List.forall_mem_cons] at hn
    cases y with
    | bound t a => cases hn.1
    | _ => exact ih hn.2

namespace World

variable {u v w w' : World} {s d : Nat} {source : Source}

/-- As long as nothing makes a difference to who follows a source the same do, and as long as nobody
is subscribed only those do who did. -/
structure Follows (w w' : World) : Prop where
  kept : ∀ {d source}, d < w.domains.next →
    stirrings d source w'.history = stirrings d source w.history →
      (w'.domain d).followers source = (w.domain d).followers source
  gained : ∀ {d source}, d < w.domains.next →
    enlistments d source w'.history = enlistments d source w.history →
      ((w'.domain d).followers source).Sublist ((w.domain d).followers source)

theorem follows_of_same
    (h : ∀ {d source}, d < w.domains.next →
      (w'.domain d).followers source = (w.domain d).followers source) : w.Follows w' :=
  ⟨fun hd _ => h hd, fun hd _ => h hd ▸ List.Sublist.refl _⟩

theorem Follows.trans (hg : u.Grows v) (hg' : v.Grows w) (h : u.Follows v) (h' : v.Follows w) :
    u.Follows w where
  kept {d source} hd he := by
    have h₁ := stirrings_le d source hg.history
    have h₂ := stirrings_le d source hg'.history
    exact (h'.kept (Nat.lt_of_lt_of_le hd hg.domains) (by omega)).trans (h.kept hd (by omega))
  gained {d source} hd he := by
    have h₁ := enlistments_le d source hg.history
    have h₂ := enlistments_le d source hg'.history
    exact (h'.gained (Nat.lt_of_lt_of_le hd hg.domains) (by omega)).trans (h.gained hd (by omega))

/-- It is told where each store is bound. -/
def Told (w : World) : Prop :=
  ∀ s < w.stores.next, binding s w.history = some (w.store s).affinity

end World

def fanout : Law where
  inv w := w.Sound ∧ w.Told
  rel w _ w' := w.Grows w' ∧ w.Follows w'
  refl _ := ⟨.refl _, World.follows_of_same fun _ => rfl⟩
  trans _ _ h _ h' := ⟨h.1.trans h'.1, h.2.trans h.1 h'.1 h'.2⟩

namespace World

variable {w w' : World} {s t : Nat}

/-- Neither who follows a source has changed nor where a store is bound. -/
structure Unstirred (w w' : World) : Prop where
  sound : w.Sound → w'.Sound
  grows : w.Grows w'
  stores : w'.stores.next = w.stores.next
  affinity : ∀ s, (w'.store s).affinity = (w.store s).affinity
  followers : ∀ {d source}, d < w.domains.next →
    (w'.domain d).followers source = (w.domain d).followers source
  history : ∃ newer, (∀ y ∈ newer, y.binds = false) ∧ w'.history = newer ++ w.history

theorem Unstirred.told (h : w.Unstirred w') (hw : w.Told) : w'.Told := by
  intro s hs
  rw [h.stores] at hs
  obtain ⟨newer, hn, hh⟩ := h.history
  rw [hh, binding_append hn, h.affinity, hw s hs]

theorem Unstirred.holds (h : w.Unstirred w') (hw : fanout.inv w) : fanout.Holds w .done w' :=
  ⟨⟨h.sound hw.1, h.told hw.2⟩, h.grows, follows_of_same h.followers⟩

/-- Neither a domain nor a store has changed. -/
theorem unstirred_of_same (hs : w.Sound → w'.Sound) (hg : w.Grows w') (hst : w'.stores = w.stores)
    (hd : w'.domains = w.domains)
    (hh : ∃ newer, (∀ y ∈ newer, y.binds = false) ∧ w'.history = newer ++ w.history) :
    w.Unstirred w' :=
  ⟨hs, hg, by rw [hst], fun s => by rw [store, store, hst], fun _ => by rw [domain, domain, hd], hh⟩

theorem unstirred_mark {y : Happening} (hy : y.binds = false) : w.Unstirred (w.mark y) :=
  unstirred_of_same (sound_mark y) (grows_mark y w) rfl rfl ⟨[y], by simpa using hy, rfl⟩

theorem binds_of_ofGuards {y : Happening} (hy : y.ofGuards) : y.binds = false := by
  cases y <;> first | rfl | cases hy

theorem binds_of_inTrace {y : Happening} (hy : y.inTrace) : y.binds = false := by
  cases y <;> first | rfl | cases hy

theorem binds_of_ofSignals {T : Nat → Prop} {y : Happening} (hy : y.ofSignals T) :
    y.binds = false := by
  cases y <;> first | rfl | cases hy

theorem Guarding.unstirred (h : w.Guarding w') : w.Unstirred w' := by
  obtain ⟨marks, hm, hh⟩ := h.history
  exact unstirred_of_same h.sound h.grows h.stores h.domains
    ⟨marks, fun y hy => binds_of_ofGuards (hm y hy), hh⟩

theorem Idle.unstirred (h : w.Idle w') : w.Unstirred w' := by
  obtain ⟨notes, hn, hh⟩ := h.history
  exact unstirred_of_same h.sound h.grows h.stores h.domains
    ⟨notes, fun y hy => binds_of_inTrace (hn y hy), hh⟩

/-- What is quiet leaves the followers of a source alone unless it changes who is subscribed. -/
theorem Quiet.unstirred (h : w.Quiet w') (ha : ∀ s, (w'.store s).affinity = (w.store s).affinity)
    (hf : ∀ d source, (w'.domain d).subscribers source = (w.domain d).subscribers source)
    (hh : ∃ newer, (∀ y ∈ newer, y.binds = false) ∧ w'.history = newer ++ w.history) :
    w.Unstirred w' :=
  ⟨h.sound, h.grows, h.stores, ha, fun _ => by rw [Domain.followers, hf, Domain.followers], hh⟩

theorem Signalling.unstirred {T : Nat → Prop} (h : w.Signalling T w') : w.Unstirred w' := by
  obtain ⟨notes, hn, hh⟩ := h.notes
  exact h.toQuiet.unstirred (fun s => (h.house s).affinity) h.table
    ⟨notes, fun y hy => binds_of_ofSignals (hn y hy), hh⟩

theorem unstirred_sameTable {r : Nat} {f : Domain → Domain} (h : ∀ d : Domain, d.SameTable (f d)) :
    w.Unstirred (w.modifyDomain r f) := by
  refine (w.quiet_sameTable r h).unstirred (fun _ => rfl) (fun d source => ?_) ⟨[], by simp, rfl⟩
  rw [domain_modifyDomain]
  split
  · next hd => rw [(h _).subscribers, hd]
  · rfl

/-- What a store sees to leaves the followers of its sources alone unless it changes who is
subscribed to these. -/
theorem Tending.unstirred (h : w.Tending s w') (hf : ∀ {d source}, source.owner = .drawn s →
    (w'.domain d).followers source = (w.domain d).followers source) : w.Unstirred w' := by
  refine ⟨h.sound, h.grows, h.stores, fun t => ?_, fun {d source} _ => ?_, ?_⟩
  · by_cases ht : t = s
    · rw [ht, h.affinity]
    · rw [h.elsewhere t ht]
  · by_cases ho : source.owner = .drawn s
    · exact hf ho
    · rw [Domain.followers, h.table d source ho, Domain.followers]
  · obtain ⟨notices, -, hh⟩ := h.notices
    exact ⟨notices.map .notice, by simp [Happening.binds], hh⟩

end World

open World

variable {w : World}

theorem fanout_stuck (_ : fanout.inv w) : fanout.rel w .stuck w :=
  ⟨.refl w, follows_of_same fun _ => rfl⟩

theorem fanout_plain : fanout.Plain where
  sound hw := hw.1
  grows h := h.1
  guarding h := h.unstirred.holds
  stuck := fanout_stuck

theorem fanout_delivering : fanout.Delivering where
  signalling h := h.unstirred.holds
  stuck := fanout_stuck
  table h := (unstirred_sameTable h).holds
  taken _ _ := (unstirred_mark rfl).holds
  handing _ _ := (unstirred_mark rfl).holds
  takeHold subs := ((quiet_takeHold subs _).unstirred (fun _ => rfl) (fun _ _ => rfl)
    ⟨[], by simp, rfl⟩).holds
  letGo held _ := ((quiet_letGo _ held _).unstirred (fun _ => rfl) (fun _ _ => rfl)
    ⟨[_], by simp [Happening.binds], rfl⟩).holds
  outside _ _ := (unstirred_mark rfl).holds
  byStore _ _ := (unstirred_mark rfl).holds

theorem fanout_panic (text : String) : (Engine.panic text).Keeps fanout := by
  intro w hw
  unfold Engine.panic
  split
  · exact ⟨hw, fanout.refl hw⟩
  · exact (unstirred_of_same (sound_raise text) (grows_raise text) rfl rfl
      ⟨[_], by simp [Happening.binds], rfl⟩ : w.Unstirred (w.raise text)).holds hw

theorem fanout_basics : Engine.Basics fanout where
  sound hw := hw.1
  grows h := h.1
  stuck := fanout_stuck
  idle h := h.unstirred.holds
  panic := fanout_panic
  newAspect _ _ := (unstirred_of_same (sound_withAspect _) (grows_withAspect _) rfl rfl
    ⟨[], by simp, rfl⟩).holds

theorem fanout_renames : fanout.Renames := fun _ hn _ =>
  (unstirred_of_same (sound_rename hn) grows_rename rfl rfl ⟨[], by simp, rfl⟩).holds

end GuardedStore
