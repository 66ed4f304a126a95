import GuardedStore.Proofs.Passes.Steps

/-!
What becomes of the locks of a chain when an access is over.

A lock that admitted a pass is given back when the lock is told that the pass is over, and so every
lock is free again after a pass that was left completely. A panic out of an aspect that is told so
leaves those before it in the chain untold, and the locks among them stay held, with nobody left to
give them back.
-/
namespace GuardedStore

namespace World

/-- The ticket of the pass that holds a lock. -/
def holder (w : World) (aspect : Nat) : Option Nat :=
  match w.aspect aspect with
  | .lock l => l.holder
  | _ => none

/-- No lock of the chain is held by the pass with this ticket. -/
def Released (w : World) (chain : List Nat) (ticket : Nat) : Prop :=
  ∀ x ∈ chain, w.holder x ≠ some ticket

instance (w : World) (chain : List Nat) (ticket : Nat) : Decidable (w.Released chain ticket) :=
  inferInstanceAs (Decidable (∀ x ∈ chain, w.holder x ≠ some ticket))

/-- Each lock of the chain that admitted the access was told that it is over. -/
def LocksTold (w : World) (chain : List Nat) (phase : Phase) (a : Access) : Prop :=
  ∀ x ∈ chain, (w.aspect x).isLock → .admitted x phase a true ∈ w.history →
    ∃ b, .told x phase a b ∈ w.history

variable {w : World} {r : PassRecord}

theorem Shows.mem (hr : w.Shows r) {y : Happening} (ht : y.ticket? = some r.access.ticket) :
    y ∈ w.history ↔ y ∈ r.happenings := by
  rw [← hr.record, mem_ofTicket]
  exact ⟨fun hy => ⟨hy, ht⟩, And.left⟩

/-- Everything that belongs to a pass, and is no mere call of a hook, is on its record. -/
theorem Orderly.shown (hw : w.Orderly) {y : Happening} {t : Nat} (hy : y ∈ w.history)
    (ht : y.ticket? = some t) (h1 : 1 ≤ t) :
    ∃ r, w.Shows r ∧ r.access.ticket = t ∧ y ∈ r.happenings := by
  have hm : y ∈ ofTicket t w.history := mem_ofTicket.mpr ⟨hy, ht⟩
  rcases Nat.lt_or_ge w.tickets t with hlt | hle
  · rw [hw.fresh hlt] at hm
    cases hm
  · obtain ⟨r, rfl, hr⟩ := hw.records h1 hle
    exact ⟨r, hr, rfl, hr.record ▸ hm⟩

theorem Orderly.pos_of_began (hw : w.Orderly) {chain : List Nat} {phase : Phase} {a : Access}
    (hb : .began chain phase a ∈ w.history) : 1 ≤ a.ticket := by
  refine Nat.pos_of_ne_zero fun h => ?_
  have hm := hw.outside (mem_ofTicket.mpr ⟨hb, congrArg some h⟩)
  rcases hm with ⟨_, _, _, _, h⟩ | ⟨_, _, _, _, h⟩ <;> cases h

theorem Orderly.shown_began (hw : w.Orderly) {chain : List Nat} {phase : Phase} {a : Access}
    (hb : .began chain phase a ∈ w.history) :
    ∃ r, w.Shows r ∧ chain = r.chain ∧ phase = r.phase ∧ a = r.access := by
  obtain ⟨r, hr, -, hm⟩ := hw.shown hb rfl (hw.pos_of_began hb)
  exact ⟨r, hr, PassRecord.began_mem.mp hm⟩

/-- A pass that was cut short has it on its record. -/
theorem Orderly.shown_abandoned (hw : w.Orderly) {xs : List Nat} {phase : Phase} {a : Access}
    (hm : .abandoned xs phase a ∈ w.history) :
    ∃ r, w.Shows r ∧ r.abandoned ∧ xs = r.entered ∧ phase = r.phase ∧ a = r.access := by
  have h1 : 1 ≤ a.ticket := Nat.pos_of_ne_zero fun h => by
    rcases hw.outside (mem_ofTicket.mpr ⟨hm, congrArg some h⟩) with
      ⟨_, _, _, _, h⟩ | ⟨_, _, _, _, h⟩ <;> cases h
  obtain ⟨r, hr, -, hm⟩ := hw.shown hm rfl h1
  exact ⟨r, hr, PassRecord.abandoned_mem.mp hm⟩

theorem Shows.took (hr : w.Shows r) {x : Nat} :
    Took x r.access.ticket w.history ↔ x ∈ r.entered := by
  constructor
  · rintro ⟨phase, a, ht, hm⟩
    exact (PassRecord.admitted_mem.mp ((hr.mem (by rw [Happening.ticket?, ht])).mp hm)).1
  · intro hx
    exact ⟨r.phase, r.access, rfl, (hr.mem rfl).mpr (PassRecord.admitted_mem.mpr ⟨hx, rfl, rfl⟩)⟩

theorem Shows.heard (hr : w.Shows r) {x : Nat} :
    Heard x r.access.ticket w.history ↔ x ∈ r.told := by
  constructor
  · rintro ⟨phase, a, b, ht, hm⟩
    exact (PassRecord.told_mem.mp ((hr.mem (by rw [Happening.ticket?, ht])).mp hm)).1
  · intro hx
    exact ⟨r.phase, r.access, r.permitted, rfl,
      (hr.mem rfl).mpr (PassRecord.told_mem.mpr ⟨hx, rfl, rfl, rfl⟩)⟩

theorem holder_eq_some {x t : Nat} :
    w.holder x = some t ↔ ∃ l, w.aspect x = .lock l ∧ l.holder = some t := by
  unfold holder
  cases w.aspect x <;> simp

/-- A pass holds the locks that admitted it and were not told yet that it is over. -/
theorem Orderly.holder_iff (hw : w.Orderly) (hr : w.Shows r) {x : Nat} :
    w.holder x = some r.access.ticket ↔ (w.aspect x).isLock ∧ x ∈ r.entered ∧ x ∉ r.told := by
  rw [holder_eq_some]
  constructor
  · rintro ⟨l, hx, hh⟩
    rw [hw.custody hx hr.pos, hr.took, hr.heard] at hh
    exact ⟨by rw [hx]; rfl, hh⟩
  · rintro ⟨hl, hh⟩
    cases hx : w.aspect x with
    | lock l => exact ⟨l, rfl, by rwa [hw.custody hx hr.pos, hr.took, hr.heard]⟩
    | _ => simp [hx, Aspect.isLock] at hl

theorem Orderly.released_iff (hw : w.Orderly) (hr : w.Shows r) :
    w.Released r.chain r.access.ticket ↔ w.LocksTold r.chain r.phase r.access := by
  have htold {x : Nat} : (∃ b, .told x r.phase r.access b ∈ w.history) ↔ x ∈ r.told := by
    rw [← hr.heard]
    constructor
    · rintro ⟨b, hm⟩
      exact ⟨_, _, b, rfl, hm⟩
    · intro hx
      exact ⟨_, (hr.mem rfl).mpr (PassRecord.told_mem.mpr ⟨hr.heard.mp hx, rfl, rfl, rfl⟩)⟩
  constructor
  · intro h x hx hl hm
    have he := (PassRecord.admitted_mem.mp ((hr.mem rfl).mp hm)).1
    by_cases ht : x ∈ r.told
    · exact htold.mpr ht
    · exact absurd ((hw.holder_iff hr).mpr ⟨hl, he, ht⟩) (h x hx)
  · intro h x hx hh
    obtain ⟨hl, he, ht⟩ := (hw.holder_iff hr).mp hh
    have hm := (hr.mem rfl).mpr (PassRecord.admitted_mem.mpr ⟨he, rfl, rfl⟩)
    exact ht (htold.mp (h x hx hl hm))

/-- Nothing is left to be told after a pass that was left completely. -/
theorem Orderly.released_of_complete (hw : w.Orderly) (hr : w.Shows r) (hl : r.left = some true) :
    w.Released r.chain r.access.ticket := by
  intro x _ hh
  obtain ⟨-, he, ht⟩ := (hw.holder_iff hr).mp hh
  rw [hr.lawful.complete hl] at ht
  exact ht he

end World

namespace Scenario

/-- When an access is over, the locks of its chain are given back just if each of them that admitted
the access was told. All are if the pass was left completely; if it was not, then a panic came out
of telling one of the aspects. Between steps, an access that is not over is a passage held open. -/
theorem locks_released_iff_told (opens : World → Bool) (depth : Nat) (steps : List Step) :
    (∀ halt w, reachedOpen opens halt depth {} steps = w → ∀ chain phase a complete,
      .began chain phase a ∈ w.history → .left a complete ∈ w.history →
        (w.Released chain a.ticket ↔ w.LocksTold chain phase a) ∧
        (complete = true → w.Released chain a.ticket) ∧
        (complete = false → ∃ newer later x b text earlier,
          w.history = newer ++ .left a false :: (later ++ .told x phase a b :: earlier) ∧
          .raised text ∈ later)) ∧
    ∀ w, settledOpen opens depth {} steps = some w → ∀ chain phase a,
      .began chain phase a ∈ w.history →
        (∃ complete, .left a complete ∈ w.history) ∨
          ∃ name p, w.names.passages.find? name = some p ∧ p.access = a := by
  constructor
  · rintro halt w rfl chain phase a complete hb hl
    have hw := reachedOpen_orderly opens halt depth steps
    obtain ⟨r, hr, rfl, rfl, rfl⟩ := hw.shown_began hb
    have hl' := (PassRecord.left_mem.mp ((hr.mem rfl).mp hl)).1
    refine ⟨hw.released_iff hr, fun hc => hw.released_of_complete hr (hc ▸ hl'), ?_⟩
    rintro rfl
    obtain ⟨newer, older, hh⟩ := List.append_of_mem hl
    obtain ⟨later, x, phase, b, text, earlier, ho, ht⟩ := hw.excused newer _ older hh
    have hm : .told x phase r.access b ∈ (reachedOpen opens halt depth {} steps).history := by
      rw [hh, ho]
      simp
    obtain ⟨-, rfl, -⟩ := PassRecord.told_mem.mp ((hr.mem rfl).mp hm)
    exact ⟨newer, later, x, b, text, earlier, by rw [hh, ho], ht⟩
  · intro w hs chain phase a hb
    have hw : w.Orderly :=
      reachedOpen_of_settledOpen hs ▸ reachedOpen_orderly opens (fun _ => false) depth steps
    obtain ⟨r, hr, rfl, rfl, rfl⟩ := hw.shown_began hb
    rcases settledOpen_passes hs hr.pos hr.begun with ⟨name, p, hp, ht⟩ | ⟨a, c, ht, hm⟩
    · obtain ⟨r', hr', rfl, -⟩ := hw.waiting hp
      refine .inr ⟨name, r'.pass, hp, ?_⟩
      have hb' : .began r'.chain r'.phase r'.access ∈ r.happenings := by
        rw [← hr.record, show r.access.ticket = r'.access.ticket from ht.symm, hr'.record]
        exact PassRecord.began_mem.mpr ⟨rfl, rfl, rfl⟩
      exact (PassRecord.began_mem.mp hb').2.2
    · have hm' := (hr.mem (by rw [Happening.ticket?, ht])).mp hm
      obtain ⟨-, rfl⟩ := PassRecord.left_mem.mp hm'
      exact .inl ⟨c, hm⟩

/-- A write goes through a lock and then a probe that panics at one of its hooks. -/
def panicAt (hook : Hook) : List Step :=
  [.aspect "l" (.lock (.milliseconds 1)),
    .chain "c" [.shared "l", .fresh (.probe {
      name := "p"
      script := fun h => if h = hook then some fun _ => [.panic "boom"] else none })],
    .enter "c" .write none { value := .int 1 },
    .aspectInfo "l"]

/-- The write of `panicAt`. -/
def panicAccess : Access where
  descriptor := { store := .given .zero, id := ⟨0, 0⟩, name := "x", type := .int64 }
  value := .int64 1
  ticket := 1

/-- The probe panics when it is told that the write is over, and the lock before it stays held. -/
theorem lock_kept_by_panic_of_told :
    .began [0, 1] .write panicAccess ∈
      (reached (fun _ => false) maxDepth {} (panicAt .afterWrite)).history ∧
    .left panicAccess false ∈
      (reached (fun _ => false) maxDepth {} (panicAt .afterWrite)).history ∧
    ¬ (reached (fun _ => false) maxDepth {} (panicAt .afterWrite)).Released [0, 1] 1 ∧
    ((run (panicAt .afterWrite)).map Report.answer).getLast? =
      some (.aspect (.lock { patience := .milliseconds 1, holder := some 1 })) := by
  decide +kernel

/-- A panic of the probe when it is asked ends the write with its lock released. -/
theorem lock_released_by_panic_of_asked :
    (reachedOpen (fun _ => true) (fun _ => false) maxDepth {} (panicAt .beforeWrite)).Released
      [0, 1] 1 :=
  ((locks_released_iff_told (fun _ => true) maxDepth (panicAt .beforeWrite)).1 (fun _ => false) _ rfl
    [0, 1] .write panicAccess true (by decide +kernel) (by decide +kernel)).2.1 rfl

end Scenario

end GuardedStore
