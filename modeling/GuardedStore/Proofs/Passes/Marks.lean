import GuardedStore.Proofs.Passes.Aside

/-!
One more entry on the record of a pass, and what becomes of a lock along with it.
-/
namespace GuardedStore

theorem took_cons {x t : Nat} {y : Happening} {h : List Happening} :
    Took x t (y :: h) ↔ (∃ phase a, a.ticket = t ∧ y = .admitted x phase a true) ∨ Took x t h := by
  unfold Took
  simp only [List.mem_cons]
  grind

theorem heard_cons {x t : Nat} {y : Happening} {h : List Happening} :
    Heard x t (y :: h) ↔ (∃ phase a b, a.ticket = t ∧ y = .told x phase a b) ∨ Heard x t h := by
  unfold Heard
  simp only [List.mem_cons]
  grind

namespace World

/-- The history has one more entry, and custody is as it should be. -/
structure Marks (y : Happening) (w w' : World) : Prop where
  grows : w.Grows w'
  sound : w'.Sound
  tickets : w'.tickets = w.tickets
  passages : w'.names.passages = w.names.passages
  isLock : ∀ {x}, x < w.aspects.next → (w'.aspect x).isLock = (w.aspect x).isLock
  history : w'.history = y :: w.history
  begun : begunTickets [y] = []
  asked : ∀ {x phase a b}, y = .admitted x phase a b → x < w'.aspects.next
  custody : w'.Custody
  taken : w'.Taken

theorem Marks.open_iff {y : Happening} {w w' : World} (h : w.Marks y w') (t : Nat) :
    w'.Open t ↔ w.Open t := by
  unfold Open
  rw [h.passages]

/-- Other passes are not concerned. -/
theorem Marks.shows_of_ne {y : Happening} {w w' : World} (h : w.Marks y w') {r : PassRecord}
    (hr : w.Shows r) (hy : y.ticket? ≠ some r.access.ticket) : w'.Shows r where
  lawful := hr.lawful
  pos := hr.pos
  begun := h.tickets ▸ hr.begun
  record := by rw [h.history, ofTicket_cons_of_ne hy, hr.record]
  whole := hr.whole
  panicked ha := h.grows.panicked (hr.panicked ha)

theorem Marks.shows {y : Happening} {w w' : World} (h : w.Marks y w') {r r' : PassRecord}
    (hr : w.Shows r) (hl : r'.Lawful) (ha : r'.access = r.access)
    (hy : y.ticket? = some r.access.ticket) (hh : r'.happenings = y :: r.happenings)
    (hwh : r'.Ending → r'.Whole ∨ r'.abandoned) (hp : r'.abandoned → Panicked w.history) :
    w'.Shows r' where
  lawful := hl
  pos := ha ▸ hr.pos
  begun := by rw [ha, h.tickets]; exact hr.begun
  record := by rw [ha, h.history, ofTicket_cons_self hy, hr.record, hh]
  whole := hwh
  panicked ha := h.grows.panicked (hp ha)

theorem Marks.proceeds {y : Happening} {w w' : World} (h : w.Marks y w') {own : Nat}
    (hy : ∀ t, 1 ≤ t → y.ticket? = some t → t = own) : w.Proceeds own .done w' where
  grows := h.grows
  isLock := h.isLock
  frame h1 _ ho hn := by
    refine ⟨?_, fun hn' => hn ((h.open_iff _).mp hn')⟩
    rw [h.history, ofTicket_cons_of_ne fun hyt => ho (hy _ h1 hyt)]
  closed _ t h1 ht _ hc := by
    rcases hc with hc | hc | hc
    · rw [h.tickets] at ht
      omega
    · exact .inl ((h.open_iff t).mpr hc)
    · exact .inr (hc.mono h.grows)
  raised h := by cases h

/-- A pass that is not open has one more entry on its record. -/
theorem Marks.orderly {y : Happening} {w w' : World} (h : w.Marks y w') (hw : w.Orderly)
    {r r' : PassRecord} (hr : w.Shows r) (ho : ¬ w.Open r.access.ticket) (hl : r'.Lawful)
    (ha : r'.access = r.access) (hy : y.ticket? = some r.access.ticket)
    (hh : r'.happenings = y :: r.happenings) (hwh : r'.Ending → r'.Whole ∨ r'.abandoned)
    (hp : r'.abandoned → Panicked w.history)
    (he : ∀ a, y = .left a false → ∃ later aspect phase b text earlier,
      w.history = later ++ .told aspect phase a b :: earlier ∧ .raised text ∈ later) :
    w'.Orderly where
  sound := h.sound
  records {t} h1 ht := by
    by_cases hrt : t = r.access.ticket
    · exact ⟨r', by rw [ha, hrt], h.shows hr hl ha hy hh hwh hp⟩
    · obtain ⟨q, hqt, hq⟩ := hw.records h1 (h.tickets ▸ ht)
      exact ⟨q, hqt, h.shows_of_ne hq (by rw [hy, hqt]; simpa using Ne.symm hrt)⟩
  fresh {t} ht := by
    have hne : y.ticket? ≠ some t := by
      have := hr.begun
      rw [h.tickets] at ht
      rw [hy]
      simp only [ne_eq, Option.some.injEq]
      omega
    rw [h.history, ofTicket_cons_of_ne hne]
    exact hw.fresh (h.tickets ▸ ht)
  begun := by rw [h.history, begunTickets_cons h.begun, hw.begun, h.tickets]
  outside hx := by
    have hne : y.ticket? ≠ some 0 := by
      have := hr.pos
      rw [hy]
      simp only [ne_eq, Option.some.injEq]
      omega
    rw [h.history, ofTicket_cons_of_ne hne] at hx
    exact hw.outside hx
  waiting {name p} hp := by
    rw [h.passages] at hp
    obtain ⟨q, hq, hqp, hrest⟩ := hw.waiting hp
    refine ⟨q, h.shows_of_ne hq fun hyt => ho ⟨name, p, hp, ?_⟩, hqp, hrest⟩
    rw [hy] at hyt
    rw [← hqp]
    exact (Option.some.inj hyt).symm
  distinct hp hp' := by
    rw [h.passages] at hp hp'
    exact hw.distinct hp hp'
  asked {x phase a b} hm := by
    rw [h.history] at hm
    rcases List.mem_cons.mp hm with hm | hm
    · exact h.asked hm.symm
    · exact Nat.lt_of_lt_of_le (hw.asked hm) h.grows.aspects
  custody := h.custody
  taken := h.taken
  excused := h.history ▸ hw.excused.cons he

/-- A hook is called outside any pass. -/
theorem Marks.orderly_outside {y : Happening} {w w' : World} (h : w.Marks y w') (hw : w.Orderly)
    (hy : y.ticket? = some 0) (hk : (∃ aspect phase a b, y = .admitted aspect phase a b) ∨
      ∃ aspect phase a b, y = .told aspect phase a b) : w'.Orderly where
  sound := h.sound
  records h1 ht := by
    obtain ⟨q, hqt, hq⟩ := hw.records h1 (h.tickets ▸ ht)
    exact ⟨q, hqt, h.shows_of_ne hq (by rw [hy, hqt, ne_eq, Option.some.injEq]; omega)⟩
  fresh {t} ht := by
    rw [h.history, ofTicket_cons_of_ne (by rw [hy, ne_eq, Option.some.injEq]; omega)]
    exact hw.fresh (h.tickets ▸ ht)
  begun := by rw [h.history, begunTickets_cons h.begun, hw.begun, h.tickets]
  outside hx := by
    rw [h.history, ofTicket_cons_self hy] at hx
    rcases List.mem_cons.mp hx with rfl | hx
    · exact hk
    · exact hw.outside hx
  waiting {name p} hp := by
    rw [h.passages] at hp
    obtain ⟨q, hq, hrest⟩ := hw.waiting hp
    have := hq.pos
    exact ⟨q, h.shows_of_ne hq (by rw [hy, ne_eq, Option.some.injEq]; omega), hrest⟩
  distinct hp hp' := by
    rw [h.passages] at hp hp'
    exact hw.distinct hp hp'
  asked {x phase a b} hm := by
    rw [h.history] at hm
    rcases List.mem_cons.mp hm with hm | hm
    · exact h.asked hm.symm
    · exact Nat.lt_of_lt_of_le (hw.asked hm) h.grows.aspects
  custody := h.custody
  taken := h.taken
  excused := by
    refine h.history ▸ hw.excused.cons ?_
    rintro a rfl
    rcases hk with ⟨_, _, _, _, hk⟩ | ⟨_, _, _, _, hk⟩ <;> cases hk

/-- An entry that tells of no lock's being taken or given back. -/
theorem marks_mark {y : Happening} {w : World} (hw : w.Orderly)
    (hb : begunTickets [y] = [])
    (hx : ∀ x phase a b, y = .admitted x phase a b → x < w.aspects.next)
    (ht : ∀ x phase a l, y = .admitted x phase a true → w.aspect x ≠ .lock l)
    (hg : ∀ x phase a b l, y = .told x phase a b → w.aspect x ≠ .lock l) :
    w.Marks y (w.mark y) where
  grows := grows_mark y w
  sound := sound_mark y hw.sound
  tickets := rfl
  passages := rfl
  isLock _ := rfl
  history := rfl
  begun := hb
  asked := hx _ _ _ _
  custody {x l t} hl h1 := by
    have hc := hw.custody hl h1
    show _ ↔ Took x t (y :: w.history) ∧ ¬ Heard x t (y :: w.history)
    rw [hc, took_cons, heard_cons]
    have := fun phase a => ht x phase a l
    have := fun phase a b => hg x phase a b l
    grind [World.mark, aspect]
  taken hl hh := took_cons.mpr (.inr (hw.taken hl hh))

/-- Something is done to an aspect, and the history has one more entry. -/
def markAspect (x : Nat) (a : Aspect Nat) (y : Happening) (w : World) : World :=
  (w.setAspect x a).mark y

theorem aspect_markAspect (x z : Nat) (a : Aspect Nat) (y : Happening) (w : World) :
    (w.markAspect x a y).aspect z = if z = x then a else w.aspect z :=
  w.aspect_setAspect x z a

theorem grows_markAspect (x : Nat) (a : Aspect Nat) (y : Happening) (w : World) :
    w.Grows (w.markAspect x a y) :=
  (grows_setAspect x a w).trans (grows_mark y _)

/-- A free lock is taken. -/
theorem marks_take {x : Nat} {l : Lock} {phase : Phase} {a : Access} {w : World}
    (hw : w.Orderly) (hx : x < w.aspects.next) (hl : w.aspect x = .lock l) (hf : l.holder = none)
    (hh : 1 ≤ a.ticket → ¬ Heard x a.ticket w.history) :
    w.Marks (.admitted x phase a true)
      (w.markAspect x (.lock { l with holder := some a.ticket }) (.admitted x phase a true)) where
  grows := grows_markAspect ..
  sound := sound_mark _ (sound_setAspect _ _ hw.sound)
  tickets := rfl
  passages := rfl
  isLock {z} _ := by
    rw [aspect_markAspect]
    split
    · next h => rw [h, hl]; rfl
    · rfl
  history := rfl
  begun := rfl
  asked h := by cases h; exact hx
  custody {z k t} hk h1 := by
    show _ ↔ Took z t (.admitted x phase a true :: w.history) ∧
      ¬ Heard z t (.admitted x phase a true :: w.history)
    rw [took_cons, heard_cons]
    rw [aspect_markAspect] at hk
    split at hk
    · next hz =>
      subst hz
      cases hk
      have hc := hw.custody hl h1
      rw [hf] at hc
      grind
    · next hz =>
      have hc := hw.custody hk h1
      grind
  taken {z k t} hk ht := by
    rw [aspect_markAspect] at hk
    split at hk
    · next hz =>
      subst hz
      cases hk
      exact took_cons.mpr (.inl ⟨phase, a, Option.some.inj ht, rfl⟩)
    · exact took_cons.mpr (.inr (hw.taken hk ht))

/-- A lock is given back by its holder. -/
theorem marks_give {x : Nat} {l : Lock} {phase : Phase} {a : Access} {b : Bool} {w : World}
    (hw : w.Orderly) (hl : w.aspect x = .lock l) (hf : l.holder = some a.ticket) :
    w.Marks (.told x phase a b)
      (w.markAspect x (.lock { l with holder := none }) (.told x phase a b)) where
  grows := grows_markAspect ..
  sound := sound_mark _ (sound_setAspect _ _ hw.sound)
  tickets := rfl
  passages := rfl
  isLock {z} _ := by
    rw [aspect_markAspect]
    split
    · next h => rw [h, hl]; rfl
    · rfl
  history := rfl
  begun := rfl
  asked h := by cases h
  custody {z k t} hk h1 := by
    show _ ↔ Took z t (.told x phase a b :: w.history) ∧ ¬ Heard z t (.told x phase a b :: w.history)
    rw [took_cons, heard_cons]
    rw [aspect_markAspect] at hk
    split at hk
    · next hz =>
      subst hz
      cases hk
      have hc := hw.custody hl h1
      rw [hf] at hc
      grind
    · next hz =>
      have hc := hw.custody hk h1
      grind
  taken {z k t} hk ht := by
    rw [aspect_markAspect] at hk
    split at hk
    · cases hk
      cases ht
    · exact took_cons.mpr (.inr (hw.taken hk ht))

/-- Whoever is told does not hold the lock. -/
theorem marks_ignore {x : Nat} {l : Lock} {phase : Phase} {a : Access} {b : Bool} {w : World}
    (hw : w.Orderly) (hl : w.aspect x = .lock l) (hf : l.holder ≠ some a.ticket) :
    w.Marks (.told x phase a b) (w.mark (.told x phase a b)) where
  grows := grows_mark ..
  sound := sound_mark _ hw.sound
  tickets := rfl
  passages := rfl
  isLock _ := rfl
  history := rfl
  begun := rfl
  asked h := by cases h
  custody {z k t} hk h1 := by
    show _ ↔ Took z t (.told x phase a b :: w.history) ∧ ¬ Heard z t (.told x phase a b :: w.history)
    rw [took_cons, heard_cons]
    have hc := hw.custody hk h1
    have hk : w.aspect z = .lock k := hk
    grind
  taken hk ht := took_cons.mpr (.inr (hw.taken hk ht))

end World

end GuardedStore
