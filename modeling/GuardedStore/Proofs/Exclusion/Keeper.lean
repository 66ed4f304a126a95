import GuardedStore.Proofs.Exclusion.Holding

/-!
Who keeps a lock.

A lock remembers a ticket only. The history knows the whole access that the lock was given to, and
also those without a pass, which all have the ticket 0. The law of keepers says that a lock always
has the ticket of its keeper: the access that it admitted last, unless it was told since that an
access with that ticket is over.
-/
namespace GuardedStore

/-- The access that a lock admitted and was not yet told of by its ticket. -/
def keeper (x : Nat) : List Happening → Option Access
  | [] => none
  | .admitted y _ a true :: older => if y = x then some a else keeper x older
  | .told y _ a _ :: older =>
    if y = x ∧ (keeper x older).map Access.ticket = some a.ticket then none else keeper x older
  | _ :: older => keeper x older

/-- Whether it is neither an aspect's answer nor that an aspect is told. -/
def Happening.keepless : Happening → Bool
  | admitted .. | told .. => false
  | _ => true

theorem keeper_cons_of_keepless {y : Happening} (hy : y.keepless) (x : Nat)
    (h : List Happening) : keeper x (y :: h) = keeper x h := by
  cases y with
  | admitted | told => cases hy
  | _ => rfl

theorem keeper_append_of_keepless {newer : List Happening} (hn : ∀ y ∈ newer, y.keepless)
    (x : Nat) (h : List Happening) : keeper x (newer ++ h) = keeper x h := by
  induction newer with
  | nil => rfl
  | cons y newer ih =>
    rw [List.cons_append, keeper_cons_of_keepless (hn y List.mem_cons_self)]
    exact ih fun z hz => hn z (List.mem_cons_of_mem y hz)

theorem keeper_admitted (x y : Nat) (phase : Phase) (a : Access) (b : Bool) (h : List Happening) :
    keeper x (.admitted y phase a b :: h) = if y = x ∧ b then some a else keeper x h := by
  cases b <;> simp [keeper]

theorem keeper_told (x y : Nat) (phase : Phase) (a : Access) (b : Bool) (h : List Happening) :
    keeper x (.told y phase a b :: h) =
      if y = x ∧ (keeper x h).map Access.ticket = some a.ticket then none else keeper x h :=
  rfl

/-- The keeper was admitted, and was not told of afterwards. -/
theorem admitted_of_keeper {x : Nat} {a : Access} : ∀ {h : List Happening},
    keeper x h = some a → ∃ phase, .admitted x phase a true ∈ h := by
  intro h
  induction h with
  | nil => exact nofun
  | cons y h ih =>
    intro hk
    have old (hk : keeper x h = some a) : ∃ phase, .admitted x phase a true ∈ y :: h :=
      (ih hk).imp fun _ hm => List.mem_cons_of_mem y hm
    cases y with
    | admitted z phase c b =>
      rw [keeper_admitted] at hk
      split at hk
      · next hz =>
        obtain ⟨rfl, rfl⟩ := hz
        cases hk
        exact ⟨phase, List.mem_cons_self⟩
      · exact old hk
    | told z phase c b =>
      rw [keeper_told] at hk
      split at hk
      · cases hk
      · exact old hk
    | _ => exact old hk

namespace World

/-- Every lock has the ticket of its keeper. -/
structure Kept (w : World) : Prop where
  sound : w.Sound
  asked {x phase a b} : .admitted x phase a b ∈ w.history → x < w.aspects.next
  kept {x l} : w.aspect x = .lock l → l.holder = (keeper x w.history).map Access.ticket

/-- What was there before is a lock if it was one, and whoever kept a lock keeps it, unless the lock
was told meanwhile of an access with the same ticket. -/
structure KeepsLocks (w w' : World) : Prop where
  grows : w.Grows w'
  same : ∀ x < w.aspects.next, (w'.aspect x).isLock = (w.aspect x).isLock
  keeps {x a} : (w.aspect x).isLock → keeper x w.history = some a →
    keeper x w'.history = some a ∨
      ∃ newer, w'.history = newer ++ w.history ∧ Heard x a.ticket newer

/-- No lock changes hands, and no aspect answers or is told. -/
structure SparesLocks (w w' : World) : Prop where
  grows : w.Grows w'
  sound : w'.Sound
  same : ∀ x < w.aspects.next, (w'.aspect x).isLock = (w.aspect x).isLock
  locks {x l} : w'.aspect x = .lock l →
    (∃ l₀, w.aspect x = .lock l₀ ∧ l₀.holder = l.holder) ∨ l.holder = none ∧ w.aspects.next ≤ x
  history : ∃ newer, (∀ y ∈ newer, y.keepless) ∧ w'.history = newer ++ w.history

variable {u v w w' : World}

/-- A keeper is a lock's that is there. -/
theorem Kept.lt_of_keeper (hw : w.Kept) {x : Nat} {a : Access}
    (hk : keeper x w.history = some a) : x < w.aspects.next := by
  obtain ⟨phase, hm⟩ := admitted_of_keeper hk
  exact hw.asked hm

theorem KeepsLocks.refl (w : World) : w.KeepsLocks w where
  grows := .refl w
  same _ _ := rfl
  keeps _ hk := .inl hk

theorem KeepsLocks.trans (hu : u.Kept) (h : u.KeepsLocks v) (h' : v.KeepsLocks w) :
    u.KeepsLocks w where
  grows := h.grows.trans h'.grows
  same x hx := (h'.same x (Nat.lt_of_lt_of_le hx h.grows.aspects)).trans (h.same x hx)
  keeps {x a} hl hk := by
    rcases h.keeps hl hk with hv | ⟨newer, hn, ht⟩
    · have hl' : (v.aspect x).isLock := by rw [h.same x (hu.lt_of_keeper hk), hl]
      refine (h'.keeps hl' hv).imp_right fun ⟨newest, hm, ht⟩ => ?_
      obtain ⟨newer, hn⟩ := h.grows.history
      obtain ⟨phase, c, b, hc, ht⟩ := ht
      exact ⟨newest ++ newer, by rw [hm, ← hn, List.append_assoc], phase, c, b, hc, by simp [ht]⟩
    · obtain ⟨newest, hm⟩ := h'.grows.history
      obtain ⟨phase, c, b, hc, ht⟩ := ht
      exact .inr ⟨newest ++ newer, by rw [← hm, hn, List.append_assoc], phase, c, b, hc,
        by simp [ht]⟩

end World

/-- The law of keepers. -/
def keepers : Law where
  inv := World.Kept
  rel w _ w' := w.KeepsLocks w'
  refl _ := .refl _
  trans hu _ h _ h' := h.trans hu h'

namespace World

variable {w w' : World}

/-- An aspect that is not there yet has admitted nobody. -/
theorem Kept.keeper_unknown (hw : w.Kept) {x : Nat} (hx : w.aspects.next ≤ x) :
    keeper x w.history = none := by
  cases hk : keeper x w.history with
  | none => rfl
  | some a => exact absurd (hw.lt_of_keeper hk) (Nat.not_lt_of_le hx)

theorem SparesLocks.kept (h : w.SparesLocks w') (hw : w.Kept) : w'.Kept := by
  obtain ⟨newer, hn, hh⟩ := h.history
  constructor
  · exact h.sound
  · intro x phase a b hm
    rw [hh, List.mem_append] at hm
    rcases hm with hm | hm
    · cases hn _ hm
    · exact Nat.lt_of_lt_of_le (hw.asked hm) h.grows.aspects
  · intro x l hl
    rw [hh, keeper_append_of_keepless hn]
    rcases h.locks hl with ⟨l₀, hl₀, hf⟩ | ⟨hf, hx⟩
    · exact hf ▸ hw.kept hl₀
    · rw [hf, hw.keeper_unknown hx]
      rfl

theorem SparesLocks.holds (h : w.SparesLocks w') (hw : w.Kept) : keepers.Holds w .done w' := by
  refine ⟨h.kept hw, h.grows, h.same, fun {x a} _ hk => .inl ?_⟩
  obtain ⟨newer, hn, hh⟩ := h.history
  rw [hh, keeper_append_of_keepless hn, hk]

theorem Beside.sparesLocks (h : w.Beside w') : w.SparesLocks w' where
  grows := h.grows
  sound := h.sound
  same _ := h.isLock
  locks := h.locks
  history := by
    obtain ⟨newer, hn, hh⟩ := h.history
    refine ⟨newer, fun y hy => ?_, hh⟩
    have := hn y hy
    cases y <;> first | rfl | cases this

theorem sparesLocks_of_aspects (hg : w.Grows w') (hs : w'.Sound) (ha : w'.aspects = w.aspects)
    (hh : ∃ newer, (∀ y ∈ newer, y.keepless) ∧ w'.history = newer ++ w.history) :
    w.SparesLocks w' where
  grows := hg
  sound := hs
  same x _ := by rw [aspect, ha, aspect]
  locks {x l} hl := .inl ⟨l, by rwa [aspect, ha] at hl, rfl⟩
  history := hh

theorem sparesLocks_mark {y : Happening} (hy : y.keepless) (hw : w.Sound) :
    w.SparesLocks (w.mark y) :=
  sparesLocks_of_aspects (grows_mark y w) (sound_mark y hw) rfl ⟨[y], by simpa using hy, rfl⟩

/-- An aspect answers, or is told, and no lock has another keeper. -/
theorem kept_mark {y : Happening}
    (hy : ∀ {z l}, w.aspect z = .lock l → keeper z (y :: w.history) = keeper z w.history)
    (ha : ∀ z phase a b, y = .admitted z phase a b → z < w.aspects.next) (hw : w.Kept) :
    keepers.Holds w .done (w.mark y) where
  left := {
    sound := sound_mark y hw.sound
    asked := fun {z phase a b} hm => by
      rcases List.mem_cons.mp hm with h | hm
      · exact ha z phase a b h.symm
      · exact hw.asked hm
    kept := fun hz => (hw.kept hz).trans (congrArg _ (hy hz).symm) }
  right := {
    grows := grows_mark y w
    same := fun _ _ => rfl
    keeps := fun {x a} hl hk => by
      cases hx : w.aspect x with
      | lock l => exact .inl ((hy hx).trans hk)
      | _ => rw [hx] at hl; cases hl }

/-- A lock is given to somebody, or given back. -/
theorem kept_markAspect {x : Nat} {l k : Lock} {y : Happening} (hx : w.aspect x = .lock l)
    (hk : k.holder = (keeper x (y :: w.history)).map Access.ticket)
    (hy : ∀ {z} h, z ≠ x → keeper z (y :: h) = keeper z h)
    (ha : ∀ z phase a b, y = .admitted z phase a b → z < w.aspects.next)
    (ht : ∀ a, keeper x w.history = some a → Heard x a.ticket [y]) (hw : w.Kept) :
    keepers.Holds w .done (w.markAspect x (.lock k) y) where
  left := {
    sound := sound_mark _ (sound_setAspect _ _ hw.sound)
    asked := fun {z phase a b} hm => by
      rcases List.mem_cons.mp hm with h | hm
      · exact ha z phase a b h.symm
      · exact hw.asked hm
    kept := fun {z m} hz => by
      rw [aspect_markAspect] at hz
      split at hz
      · next hzx =>
        cases hz
        exact hzx ▸ hk
      · next hzx => exact (hw.kept hz).trans (congrArg _ (hy w.history hzx).symm) }
  right := {
    grows := grows_markAspect ..
    same := fun z _ => by
      rw [aspect_markAspect]
      split
      · next hzx => rw [hzx, hx]; rfl
      · rfl
    keeps := fun {z a} _ hz => by
      by_cases hzx : z = x
      · exact .inr ⟨[y], rfl, hzx ▸ ht a (hzx ▸ hz)⟩
      · exact .inl ((hy w.history hzx).trans hz) }

end World

theorem keepers_calm : keepers.Calm where
  sound hw := hw.sound
  grows h := h.grows
  quiet h hw := (h.beside hw.sound).sparesLocks.holds hw
  stuck _ := .refl _
  rename hp hn _ hw := (World.beside_rename hp hn hw.sound).sparesLocks.holds hw
  newStore hid ha hd := Engine.keepsAt_of_eq rfl fun hw =>
    (World.beside_withStore hid ha hd hw.sound).sparesLocks.holds hw
  newItem hs hid hc hd _ _ := Engine.keepsAt_of_eq rfl fun hw =>
    (World.beside_withItem ⟨_, hs, hid⟩ hc hd hw.sound).sparesLocks.holds hw

/-- Aspects other than locks do as they like. -/
theorem keepers_reforms : keepers.Reforms fun w x => ∀ l, w.aspect x ≠ .lock l where
  stuck _ := .refl _
  reform {w x a} hx ha hw := by
    have hb : a.isLock = false := by
      cases a with
      | lock l =>
        obtain ⟨k, hk, -⟩ := Aspect.form_lock_eq ha.symm
        exact absurd hk (hx k)
      | _ => rfl
    have hd : (w.aspect x).isLock = false := by
      cases hd : w.aspect x with
      | lock l => exact absurd hd (hx l)
      | _ => rfl
    refine (World.beside_setAspect (hb.trans hd.symm) ?_ hw.sound).sparesLocks.holds hw
    rintro l rfl
    cases hb
  note {w h} hh hw := by
    refine (World.sparesLocks_mark ?_ hw.sound).holds hw
    cases h <;> first | rfl | cases hh

namespace Engine

variable {call : Nat → Engine Unit} {w : World} {x : Nat} {l : Lock}

/-- Whoever asks a held lock of unlimited patience waits. -/
theorem ask_waits {t : Nat} (hl : w.aspect x = .lock l) (hf : l.holder = some t)
    (hp : l.patience = .unlimited) (phase : Phase) (a : Access) :
    ask call x phase a w = (.stuck, w) := by
  unfold ask answer
  rw [bind_apply, bind_apply]
  dsimp only [get]
  rw [hl]
  simp only [Lock.acquire, hf, hp]
  rfl

/-- A lock is opened by an access with its holder's ticket. -/
theorem tell_held {a : Access} (hl : w.aspect x = .lock l) (hf : l.holder = some a.ticket)
    (phase : Phase) (permitted : Bool) : tell call x phase a permitted w =
      (.done (), w.markAspect x (.lock { l with holder := none }) (.told x phase a permitted)) := by
  have h : settle call x phase a permitted (w.mark (.told x phase a permitted)) =
      (.done (), (w.mark (.told x phase a permitted)).setAspect x
        (.lock { l with holder := none })) := by
    unfold settle
    rw [bind_apply]
    dsimp only [get]
    rw [show (w.mark (.told x phase a permitted)).aspect x = .lock l from hl]
    simp only [Lock.release?, hf, if_true]
    rfl
  exact h

/-- No other access opens it. -/
theorem tell_other {a : Access} (hl : w.aspect x = .lock l) (hf : l.holder ≠ some a.ticket)
    (phase : Phase) (permitted : Bool) : tell call x phase a permitted w =
      (.done (), (w.mark (.told x phase a permitted)).mark
        (.notice (.releaseIgnored a.descriptor a.ticket))) := by
  have h : settle call x phase a permitted (w.mark (.told x phase a permitted)) =
      (.done (), (w.mark (.told x phase a permitted)).mark
        (.notice (.releaseIgnored a.descriptor a.ticket))) := by
    unfold settle
    rw [bind_apply]
    dsimp only [get]
    rw [show (w.mark (.told x phase a permitted)).aspect x = .lock l from hl]
    simp only [Lock.release?, if_neg hf]
    rfl
  exact h

theorem ask_lock_keepers (hx : x < w.aspects.next) (hl : w.aspect x = .lock l) (phase : Phase)
    (a : Access) : (ask call x phase a).KeepsAt keepers w := by
  cases hf : l.holder with
  | none =>
    refine keepsAt_of_eq (ask_free hl hf phase a) fun hw => ?_
    refine World.kept_markAspect hl ?_ (fun h hz => ?_) ?_ (fun c hk => ?_) hw
    · rw [keeper_admitted, if_pos ⟨rfl, rfl⟩]
      rfl
    · rw [keeper_admitted, if_neg fun hzx => hz hzx.1.symm]
    · rintro z p c d ⟨⟩
      exact hx
    · rw [hw.kept hl, hk] at hf
      cases hf
  | some t =>
    cases hp : l.patience with
    | unlimited =>
      exact keepsAt_of_eq (ask_waits hl hf hp phase a) fun hw => ⟨hw, keepers_calm.stuck hw⟩
    | milliseconds n =>
      refine keepsAt_of_eq (ask_held hl hf hp phase a) fun hw => ?_
      have hs := (World.beside_setAspect (x := x) (a := .lock { l with timeouts := l.timeouts + 1 })
        (by rw [hl]; rfl) (fun _ h => ⟨l, hl, by cases h; rfl⟩) hw.sound).sparesLocks.holds hw
      have hn := (World.sparesLocks_mark (y := .notice (.lockTimedOut a.descriptor phase
        l.patience.inMilliseconds)) rfl hs.1.sound).holds hs.1
      have hsn := hs.done_trans hw hn
      refine hsn.done_trans hw (World.kept_mark (fun _ => ?_) ?_ hn.1)
      · rw [keeper_admitted, if_neg (by simp)]
      · rintro z p c d ⟨⟩
        exact hx

theorem tell_lock_keepers (hl : w.aspect x = .lock l) (phase : Phase) (a : Access)
    (permitted : Bool) : (tell call x phase a permitted).KeepsAt keepers w := by
  by_cases hf : l.holder = some a.ticket
  · refine keepsAt_of_eq (tell_held hl hf phase permitted) fun hw => ?_
    refine World.kept_markAspect hl ?_ (fun h hz => ?_) (fun _ _ _ _ h => by cases h)
      (fun c hk => ?_) hw
    · rw [keeper_told, if_pos ⟨rfl, (hw.kept hl).symm.trans hf⟩]
      rfl
    · rw [keeper_told, if_neg fun hzx => hz hzx.1.symm]
    · rw [hw.kept hl, hk] at hf
      exact ⟨phase, a, permitted, (Option.some.inj hf).symm, List.mem_singleton.mpr rfl⟩
  · refine keepsAt_of_eq (tell_other hl hf phase permitted) fun hw => ?_
    have ht := World.kept_mark (y := .told x phase a permitted) (fun {z k} hz => by
      rw [keeper_told, if_neg]
      rintro ⟨rfl, hk⟩
      cases hl.symm.trans hz
      exact hf ((hw.kept hl).trans hk)) (fun _ _ _ _ h => by cases h) hw
    exact ht.done_trans hw ((World.sparesLocks_mark rfl ht.1.sound).holds ht.1)

variable (hc : ∀ r, (call r).Keeps keepers)

include hc

theorem ask_keepers (hx : x < w.aspects.next) (phase : Phase) (a : Access) :
    (ask call x phase a).KeepsAt keepers w := by
  by_cases hl : ∃ l, w.aspect x = .lock l
  · obtain ⟨l, hl⟩ := hl
    exact ask_lock_keepers hx hl phase a
  · rw [not_exists] at hl
    intro hw
    refine ((answer_reforms keepers_reforms hc hl phase a).bind fun b u _ hu => ?_) hw
    refine (keepsAt_modify fun hu' => World.kept_mark (fun {z k} hz => ?_) ?_ hu').bind
      fun _ v _ _ => keeps_pure b v
    · rw [keeper_admitted, if_neg]
      rintro ⟨rfl, -⟩
      -- whoever was no lock before is none now
      have hs := hu.2.same x hx
      rw [show u.aspect x = .lock k from hz] at hs
      cases hd : w.aspect x with
      | lock l => exact hl l hd
      | _ => rw [hd] at hs; cases hs
    · rintro z p c d ⟨⟩
      exact Nat.lt_of_lt_of_le hx hu.2.grows.aspects

theorem tell_keepers (phase : Phase) (a : Access) (permitted : Bool) :
    (tell call x phase a permitted).KeepsAt keepers w := by
  by_cases hl : ∃ l, w.aspect x = .lock l
  · obtain ⟨l, hl⟩ := hl
    exact tell_lock_keepers hl phase a permitted
  · rw [not_exists] at hl
    have hm : (record (.told x phase a permitted)).KeepsAt keepers w := by
      refine keepsAt_modify (World.kept_mark (fun {z k} hz => ?_) fun _ _ _ _ h => by cases h)
      rw [keeper_told, if_neg]
      rintro ⟨rfl, -⟩
      exact hl k hz
    refine hm.bind fun _ u h _ => ?_
    cases h
    exact settle_reforms (w := w.mark (.told x phase a permitted)) keepers_reforms hc hl phase a
      permitted

theorem keepers_guides : Guides call keepers fun w x => x < w.aspects.next where
  sound hw := hw.sound
  grows h := h.grows
  stuck := keepers_calm.stuck
  still hx _ h := Nat.lt_of_lt_of_le hx h.2.grows.aspects
  ask phase access hx := ask_keepers hc hx phase access
  tell phase access permitted _ := tell_keepers hc phase access permitted
  begin chain phase access _ hw := (World.sparesLocks_of_aspects
    (World.grows_begin chain phase access _) (World.sound_begin chain phase access hw.sound) rfl
    ⟨[_], by simp [Happening.keepless], rfl⟩).holds hw
  mark {w h} hh hw := by
    refine (World.sparesLocks_mark ?_ hw.sound).holds hw
    cases h <;> first | rfl | cases hh
  visited _ _ hw := (World.sparesLocks_mark rfl hw.sound).holds hw
  visit _ hch _ hx := hch _ hx
  held hw hp hx := hw.sound.names.passages hp hx
  passing hf hw := (World.sparesLocks_of_aspects World.grows_passing (World.sound_passing
    (fun hq => by
      rcases hf hq with hq | hq
      · exact fun a ha => hw.sound.names.passages hq ha
      · exact hq.1) hw.sound) rfl ⟨[], by simp, rfl⟩).holds hw

theorem write_keepers {item : Nat} (value : Value) : (write call item value).Keeps keepers := by
  intro w hw
  refine write_guided (keepers_guides hc) value (fun x hx => hw.sound.chains hx)
    (fun p v _ _ => storeValue_keepsAt (fun hv => ?_)
      (forward_keeps keepers_calm.delivering hc _ _ _)) hw
  refine (World.sparesLocks_of_aspects (World.grows_issuing item _)
    (World.sound_issuing item _ hv.sound) rfl ⟨[_, _, _], ?_, World.history_issuing ..⟩).holds hv
  simp [Happening.keepless]

theorem read_keepers {item : Nat} : (read call item).Keeps keepers :=
  fun _ => readWithin_guided (keepers_guides hc) _
    (fun _ _ _ => keepsAt_modify fun hw => (World.sparesLocks_mark rfl hw.sound).holds hw)
    fun _ hv _ hx => hv.1.sound.chains hx

end Engine

theorem panic_keeps_keepers (text : String) : (Engine.panic text).Keeps keepers := by
  intro w hw
  unfold Engine.panic
  split
  · exact ⟨hw, .refl _⟩
  · exact (World.beside_raise text hw.sound).sparesLocks.holds hw

theorem keepers_admits {call : Nat → Engine Unit} (hc : ∀ r, (call r).Keeps keepers) :
    Engine.Admits call keepers fun w i => i < w.items.next :=
  keepers_calm.guided hc (Engine.keepers_guides hc)
    (fun h hw => (h.beside hw.sound).sparesLocks.holds hw) panic_keeps_keepers
    (fun ha _ => Engine.keepsAt_of_eq rfl fun hw =>
      (World.beside_withAspect ha hw.sound).sparesLocks.holds hw)
    (fun hm _ => Engine.keepsAt_of_eq rfl fun hw =>
      (World.beside_withDomain hm hw.sound).sparesLocks.holds hw)
    (fun v _ _ => Engine.write_keepers hc v _) (fun _ => Engine.read_keepers hc _)
    fun _ _ _ _ => World.builds_any _ _ _ _

end GuardedStore
