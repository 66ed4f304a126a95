import GuardedStore.Proofs.Passes.Record
import GuardedStore.Proofs.Run.Admits

/-!
The law of passes.

At every moment every pass that has begun has a lawful record, and every lock is held by just the
pass that took it and was not yet told to give it back. A computation changes the records only of
the passes it begins and of those that are open, and it leaves none of its own passes in between:
whatever it began is over when it ends, or held open under a name.

The law has a parameter: the ticket of a pass that the computation itself is taking on.
-/
namespace GuardedStore

def Aspect.isLock {σ : Type} : Aspect σ → Bool
  | .lock _ => true
  | _ => false

/-- The aspect admitted an access of the given ticket. -/
def Took (aspect ticket : Nat) (history : List Happening) : Prop :=
  ∃ phase a, a.ticket = ticket ∧ .admitted aspect phase a true ∈ history

/-- The aspect was told that an access of the given ticket was over. -/
def Heard (aspect ticket : Nat) (history : List Happening) : Prop :=
  ∃ phase a b, a.ticket = ticket ∧ .told aspect phase a b ∈ history

/-- Whoever left an aspect untold did so because of a panic that came after telling another. -/
def Excused (history : List Happening) : Prop :=
  ∀ newer a older, history = newer ++ .left a false :: older →
    ∃ later aspect phase b text earlier,
      older = later ++ .told aspect phase a b :: earlier ∧ .raised text ∈ later

namespace World

/-- The record is that of a pass that has begun. -/
structure Shows (w : World) (r : PassRecord) : Prop where
  lawful : r.Lawful
  pos : 1 ≤ r.access.ticket
  begun : r.access.ticket ≤ w.tickets
  record : ofTicket r.access.ticket w.history = r.happenings
  /-- Only a pass that is cut short ends before all aspects have answered. -/
  whole : r.Ending → r.Whole ∨ r.abandoned
  panicked : r.abandoned → Panicked w.history

/-- A pass is held open under a name. -/
def Open (w : World) (ticket : Nat) : Prop :=
  ∃ name p, w.names.passages.find? name = some p ∧ p.access.ticket = ticket

def Over (w : World) (ticket : Nat) : Prop :=
  ∃ a complete, a.ticket = ticket ∧ .left a complete ∈ w.history

/-- Every lock is held by the pass that took it and was not told yet to give it back. -/
def Custody (w : World) : Prop :=
  ∀ {x l t}, w.aspect x = .lock l → 1 ≤ t →
    (l.holder = some t ↔ Took x t w.history ∧ ¬ Heard x t w.history)

/-- Nobody holds a lock without having been admitted by it. -/
def Taken (w : World) : Prop :=
  ∀ {x l t}, w.aspect x = .lock l → l.holder = some t → Took x t w.history

structure Orderly (w : World) : Prop where
  sound : w.Sound
  records : ∀ {t}, 1 ≤ t → t ≤ w.tickets → ∃ r : PassRecord, r.access.ticket = t ∧ w.Shows r
  fresh : ∀ {t}, w.tickets < t → ofTicket t w.history = []
  begun : begunTickets w.history = (List.range' 1 w.tickets).reverse
  outside : ∀ {x}, x ∈ ofTicket 0 w.history →
    (∃ aspect phase a b, x = .admitted aspect phase a b) ∨
      ∃ aspect phase a b, x = .told aspect phase a b
  waiting : ∀ {name p}, w.names.passages.find? name = some p →
    ∃ r, w.Shows r ∧ r.pass = p ∧ r.told = [] ∧ r.left = none ∧ r.Whole
  distinct : ∀ {name name' p p'}, w.names.passages.find? name = some p →
    w.names.passages.find? name' = some p' → p.access.ticket = p'.access.ticket → name = name'
  asked : ∀ {x phase a b}, .admitted x phase a b ∈ w.history → x < w.aspects.next
  custody : w.Custody
  taken : w.Taken
  excused : Excused w.history

/-- What became of passes between `w` and `w'`, but for the pass with ticket `own`. -/
structure Proceeds (own : Nat) (w : World) (e : Ending) (w' : World) : Prop where
  grows : w.Grows w'
  isLock : ∀ {x}, x < w.aspects.next → (w'.aspect x).isLock = (w.aspect x).isLock
  frame : ∀ {t}, 1 ≤ t → t ≤ w.tickets → t ≠ own → ¬ w.Open t →
    ofTicket t w'.history = ofTicket t w.history ∧ ¬ w'.Open t
  closed : e ≠ .stuck → ∀ {t}, 1 ≤ t → t ≤ w'.tickets → t ≠ own →
    (w.tickets < t ∨ w.Open t ∨ w.Over t) → w'.Open t ∨ w'.Over t
  raised : e = .panicked → ∃ newer text, w'.history = newer ++ w.history ∧ .raised text ∈ newer

theorem Over.mono {w w' : World} {t : Nat} (h : w.Over t) (hg : w.Grows w') : w'.Over t := by
  obtain ⟨a, complete, ht, hm⟩ := h
  exact ⟨a, complete, ht, hg.history.subset hm⟩

theorem Proceeds.refl {own : Nat} {w : World} : w.Proceeds own .done w where
  grows := Grows.refl w
  isLock _ := rfl
  frame _ _ _ ho := ⟨rfl, ho⟩
  closed _ _ _ ht _ h := by
    rcases h with h | h
    · omega
    · exact h
  raised h := by cases h

theorem Proceeds.trans {own : Nat} {u v w : World} {d e : Ending} (h : u.Proceeds own d v)
    (h' : v.Proceeds own e w) : u.Proceeds own (d.andThen e) w where
  grows := h.grows.trans h'.grows
  isLock hx := (h'.isLock (Nat.lt_of_lt_of_le hx h.grows.aspects)).trans (h.isLock hx)
  frame h1 ht ho hn := by
    obtain ⟨hr, hn'⟩ := h.frame h1 ht ho hn
    obtain ⟨hr', hn''⟩ := h'.frame h1 (Nat.le_trans ht h.grows.tickets) ho hn'
    exact ⟨hr'.trans hr, hn''⟩
  closed he t h1 ht ho hc := by
    obtain ⟨hd, he⟩ := Ending.ne_stuck_of_andThen he
    refine h'.closed he h1 ht ho ?_
    rcases Nat.lt_or_ge v.tickets t with hlt | hle
    · exact .inl hlt
    · exact .inr (h.closed hd h1 hle ho hc)
  raised he := by
    rcases Ending.andThen_eq_panicked he with he | he
    · obtain ⟨newer, text, hh, hr⟩ := h.raised he
      obtain ⟨later, hl⟩ := h'.grows.history
      exact ⟨later ++ newer, text, by rw [← hl, hh, List.append_assoc], by simp [hr]⟩
    · obtain ⟨newer, text, hh, hr⟩ := h'.raised he
      obtain ⟨older, hl⟩ := h.grows.history
      exact ⟨newer ++ older, text, by rw [hh, ← hl, List.append_assoc], by simp [hr]⟩

/-- The pass of a computation's own is a pass like others once it has begun in it and is closed. -/
theorem Proceeds.disown {own : Nat} {w w' : World} {e : Ending} (h : w.Proceeds own e w')
    (hb : w.tickets < own) (hc : e ≠ .stuck → w'.Open own ∨ w'.Over own) : w.Proceeds 0 e w' where
  grows := h.grows
  isLock := h.isLock
  frame h1 ht _ hn := h.frame h1 ht (by omega) hn
  closed he t h1 ht _ hct := by
    by_cases hto : t = own
    · exact hto ▸ hc he
    · exact h.closed he h1 ht hto hct
  raised := h.raised

theorem Proceeds.weaken {own : Nat} {w w' : World} {e : Ending} (h : w.Proceeds 0 e w') :
    w.Proceeds own e w' where
  grows := h.grows
  isLock := h.isLock
  frame h1 ht _ hn := h.frame h1 ht (by omega) hn
  closed he _ h1 ht _ hc := h.closed he h1 ht (by omega) hc
  raised := h.raised

end World

/-- The law of passes, for a computation that is taking on the pass with ticket `own`. -/
def passes (own : Nat) : Law where
  inv := World.Orderly
  rel := World.Proceeds own
  refl _ := .refl
  trans _ _ h _ h' := h.trans h'

end GuardedStore
