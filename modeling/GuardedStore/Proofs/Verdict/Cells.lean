import GuardedStore.Proofs.Ledger.Reads
import GuardedStore.Proofs.Verdict.Steps

/-!
What a validation guarantees of the cells that it guards.

A value is stored when every aspect of the chain has admitted just that value, and a read hands out
just the value that every aspect has admitted. So a validation of a chain keeps out of the cell, and
with checked reads out of the hands of readers, whatever its condition turns down, and a validation
for another type keeps out everything.
-/
namespace GuardedStore

/-- The condition goes by the value alone. -/
def Predicate.Pure (c : Predicate) : Prop :=
  ∀ flags flags' value, c.holds flags value = c.holds flags' value

/-- Whether no flag comes up in the condition. -/
def Predicate.flagless : Predicate → Bool
  | .not p => p.flagless
  | .both p q => p.flagless && q.flagless
  | .flag _ => false
  | _ => true

theorem Predicate.pure_of_flagless {c : Predicate} (h : c.flagless) : c.Pure := by
  intro flags flags' value
  induction c with
  | not p ih => simp [holds, ih h]
  | both p q ihp ihq =>
    obtain ⟨hp, hq⟩ : p.flagless ∧ q.flagless := by simpa [flagless] using h
    simp [holds, ihp hp, ihq hq]
  | flag name => cases h
  | _ => rfl

/-- The validation that an aspect is. -/
def Aspect.validation? {σ : Type} : Aspect σ → Option Validation
  | .validation v => some v
  | _ => none

theorem Aspect.eq_of_validation? {σ : Type} {a : Aspect σ} {v : Validation}
    (h : a.validation? = some v) : a = .validation v := by
  cases a <;> cases h
  rfl

namespace Validation

variable {v : Validation} {flags : String → Bool} {phase : Phase} {a : Access}

/-- The validation could admit the value. -/
def Passes (v : Validation) (value : Value) : Prop :=
  value.type = v.type ∧ ∃ flags, v.condition.holds flags value

theorem passes_of_verdict (h : v.verdict flags phase a = .admitted)
    (hp : phase = .write ∨ v.checkReads) : v.Passes a.value := by
  have hn : ¬ (phase = .read ∧ v.checkReads = false) := by
    rintro ⟨rfl, hr⟩
    rw [hr] at hp
    cases hp <;> contradiction
  rw [verdict, if_neg hn, Access.cast?] at h
  split at h
  · cases h
  · next value hc =>
    split at hc
    · next ht =>
      cases hc
      split at h
      · next hh => exact ⟨ht, flags, hh⟩
      · cases h
    · cases hc

theorem verdict_unchecked (hr : v.checkReads = false) :
    v.verdict flags .read a = .admitted := by
  rw [verdict, if_pos ⟨rfl, hr⟩]

end Validation

theorem mem_of_mem_storedIn {i : Nat} {a : Access} {h : List Happening} (ha : a ∈ storedIn i h) :
    .stored i a ∈ h := by
  obtain ⟨y, hy, hs⟩ := List.mem_filterMap.mp ha
  cases y with
  | stored j b =>
    obtain ⟨rfl, rfl⟩ : j = i ∧ b = a := by simpa [Happening.storedIn?] using hs
    exact List.mem_reverse.mp hy
  | _ => cases hs

namespace Performing

/-- A step that reads the item hands out the value. -/
def HandsOut (call : Nat → Engine Unit) (w : World) (i : Nat) (value : Value) : Prop :=
  ∃ key store k s u, w.Reaches key store k s i ∧
    (answer call (.read key store) w = (.done (.value value), u) ∨
      ∃ init, answer call (.readInto key store init) w = (.done (.readInto none value), u))

end Performing

namespace World

/-- Whatever came into the cell of the item has `P`, but the value that it was made with, and if
reads are checked, so has whatever readers get. -/
structure Upholds (call : Nat → Engine Unit) (w : World) (i : Nat) (P : Value → Prop)
    (checkReads : Bool) : Prop where
  cell : ∃ item, .made i item ∈ w.history ∧ ((w.item i).value = item.value ∨ P (w.item i).value)
  stored {a} : .stored i a ∈ w.history → P a.value
  returned {a n} : checkReads → .concluded i a (.returned n) ∈ w.history → P a.value
  handed {value} : checkReads → Performing.HandsOut call w i value → P value

end World

namespace Performing

variable {call : Nat → Engine Unit} {key : String} {store : Option String} {k : NamedKey}
  {s i : Nat} {w u : World}

/-- A step answers only if its work on the item comes to an end. -/
theorem done_of_answer_withItem {step : Step} {m : NamedKey → Nat → Nat → Performing Answer}
    {a : Answer} (reaches : w.Reaches key store k s i)
    (performed : perform call step = withItem key store m)
    (h : answer call step w = (.done a, u)) : ∃ r v, (m k s i).run (w.share s) = (.done r, v) := by
  unfold answer at h
  obtain ⟨r, v, hp, -⟩ := Engine.done_of_bind h
  rw [performed, withItem_run reaches] at hp
  unfold Engine.ensure at hp
  rcases hm : (m k s i).run (w.share s) with ⟨r | text | _, v⟩ <;> rw [hm] at hp
  · exact ⟨r, v, rfl⟩
  · dsimp only at hp
    split at hp <;> cases hp
  · cases hp

/-- What begins with a computation comes to an end only if that does. -/
theorem done_of_lift_bind {α β : Type} {m : Engine α} {f : α → Performing β} {r : Except Answer β}
    (h : (liftM m >>= f : Performing β).run w = (.done r, u)) : ∃ a v, m w = (.done a, v) := by
  rw [run_lift_bind] at h
  obtain ⟨a, v, hm, -⟩ := Engine.done_of_bind h
  exact ⟨a, v, hm⟩

/-- What a step hands out is what the read of the item gave. -/
theorem read_of_handsOut {value : Value} (h : HandsOut call w i value) :
    ∃ s v, Engine.read call i (w.share s) = (.done (.ok value), v) := by
  obtain ⟨key, store, k, s, u, reaches, h | ⟨init, h⟩⟩ := h
  · obtain ⟨_, _, hm⟩ := done_of_answer_withItem reaches rfl h
    rw [ExceptT.run_bind] at hm
    obtain ⟨_, _, hm, -⟩ := Engine.done_of_bind hm
    obtain ⟨r, v, hr⟩ := done_of_lift_bind hm
    have ha := (answer_read reaches hr).symm.trans h
    cases r with
    | ok value' =>
      obtain ⟨rfl, -⟩ : value' = value ∧ _ := by simpa [given] using ha
      exact ⟨s, v, hr⟩
    | error fault => simp [given] at ha
  · obtain ⟨_, _, hm⟩ := done_of_answer_withItem reaches rfl h
    cases hx : init.value? k.key.type with
    | none =>
      have ha := (answer_withItem reaches rfl (r := .error _) (by rw [hx]; rfl)).symm.trans h
      simp at ha
    | some x =>
      rw [hx] at hm
      obtain ⟨r, v, hr⟩ := done_of_lift_bind hm
      have ha := (answer_readInto reaches hx hr).symm.trans h
      cases r with
      | ok value' =>
        obtain ⟨rfl, -⟩ : value' = value ∧ _ := by simpa [put] using ha
        exact ⟨s, v, hr⟩
      | error fault => simp [put] at ha

end Performing

namespace World

variable {call : Nat → Engine Unit} {w : World} {x i : Nat} {v : Validation} {P Q : Value → Prop}

theorem Upholds.mono (h : w.Upholds call i P v.checkReads) (hPQ : ∀ value, P value → Q value) :
    w.Upholds call i Q v.checkReads where
  cell := by
    obtain ⟨item, hm, hc⟩ := h.cell
    exact ⟨item, hm, hc.imp_right (hPQ _)⟩
  stored hs := hPQ _ (h.stored hs)
  returned hr hm := hPQ _ (h.returned hr hm)
  handed hr hv := hPQ _ (h.handed hr hv)

/-- A validation counts the accesses that it turned down. -/
theorem Judged.rejections (hj : w.Judged) (hv : w.aspect x = .validation v) :
    v.rejections = refusals x .write w.history +
      if v.checkReads then refusals x .read w.history else 0 := by
  rw [hj.counted hv]
  split
  · rfl
  · next hr =>
    -- an unchecked read is never turned down
    have h0 : refusals x .read w.history = 0 := by
      apply refusals_eq_zero
      intro a hm
      obtain ⟨flags, hb⟩ := hj.verdicts hv hm
      simp [Validation.verdict_unchecked (Bool.eq_false_iff.mpr hr)] at hb
    rw [h0]

/-- Whom the validation admitted it could admit. -/
theorem Judged.passes (hj : w.Judged) (hv : w.aspect x = .validation v) {phase : Phase}
    {a : Access} (ha : .admitted x phase a true ∈ w.history)
    (hp : phase = .write ∨ v.checkReads) : v.Passes a.value := by
  obtain ⟨flags, hb⟩ := hj.verdicts hv ha
  exact Validation.passes_of_verdict (of_decide_eq_true hb.symm) hp

/-- A value that was once in the cell is of the item's type. -/
theorem Judged.type_of_inCell (hj : w.Judged) {earlier : List Happening} {value : Value}
    (he : earlier <:+ w.history) (hc : InCell i earlier value) :
    value.type = (w.item i).descriptor.type := by
  obtain ⟨item, hm, rfl⟩ := hc
  cases hl : (storedIn i earlier).getLast? with
  | none => exact (hj.made (he.subset hm)).2
  | some a => exact (hj.stored (he.subset (mem_of_mem_storedIn (List.mem_of_getLast? hl)))).2

variable (hl : w.InStep) (ho : w.Orderly) (hj : w.Judged) (hv : w.aspect x = .validation v)
  (hi : i < w.items.next) (hx : x ∈ (w.item i).chain)

include hl hj hv hx

/-- What a read has handed out the validation has been shown. -/
theorem passes_of_returned {a : Access} {n : Nat} (hr : v.checkReads)
    (hm : .concluded i a (.returned n) ∈ w.history) :
    a.value.type = (w.item i).descriptor.type ∧ v.Passes a.value := by
  obtain ⟨newer, older, hh⟩ := List.append_of_mem hm
  obtain ⟨later, asked, earlier, rfl, hs⟩ := hl.handed newer i a n older hh
  have hw : asked ++ .began (w.item i).chain .read a :: earlier <:+ w.history :=
    ⟨newer ++ .concluded i a (.returned n) :: later, by simp [hh]⟩
  have hx : .admitted x .read a true ∈ asked := hs.admitted.subset (by simpa using hx)
  refine ⟨hj.type_of_inCell ?_ hs.found,
    hj.passes hv (hw.subset (List.mem_append_left _ hx)) (.inr hr)⟩
  exact ((List.suffix_cons _ _).trans (List.suffix_append _ _)).trans hw

include ho hi

/-- What was stored the validation has been shown. -/
theorem passes_of_stored {a : Access} (hm : .stored i a ∈ w.history) :
    a.value.type = (w.item i).descriptor.type ∧ v.Passes a.value :=
  ⟨(hj.stored hm).2,
    hj.passes hv (((accounts_of_inStep hl ho hi).guarded a hm).2.1 x hx) (.inl rfl)⟩

omit ho in
/-- So it has been shown what a step hands out. -/
theorem passes_of_handsOut (tallies : ∀ r, (call r).Keeps ledger)
    (validates : ∀ r, (call r).Keeps validating) {value : Value} (hr : v.checkReads)
    (hh : Performing.HandsOut call w i value) :
    value.type = (w.item i).descriptor.type ∧ v.Passes value := by
  obtain ⟨s, u, hd⟩ := Performing.read_of_handsOut hh
  have hs := quiet_share s w
  have hr' : (Engine.read call i).KeepsAt ledger (w.share s) := Engine.readWithin_ledger tallies _ hi
  have hl' := hr'.holds (ledger_calm.quiet hs hl).1 hd
  have hu := (Engine.read_validating validates).holds (validating_calm.quiet hs hj).1 hd
  have hk := (validating_calm.quiet hs hj).done_trans hj hu
  obtain ⟨v', hv', -, ht, hc, hv''⟩ :=
    Aspect.form_validation_eq ((hk.2.2 x (hl.sound.chains hx)).trans (congrArg Aspect.form hv))
  obtain ⟨a, o, older, last, ⟨-, _, ⟨⟩⟩ | ⟨⟨n, rfl⟩, hval⟩⟩ := Engine.concluded_of_readWithin _ hd
  cases hval
  have hm : .concluded i a (.returned n) ∈ u.history := last ▸ List.mem_cons_self
  have hp := passes_of_returned hl'.1 hu.1 hv' (hk.2.1.chain hi ▸ hx) (hv''.trans hr) hm
  rwa [hk.2.1.descriptor hi, Validation.Passes, ht, hc] at hp

/-- Whatever comes into the cell could be admitted, and is of the type of the item. -/
theorem upholds_passes (tallies : ∀ r, (call r).Keeps ledger)
    (validates : ∀ r, (call r).Keeps validating) :
    w.Upholds call i (fun value => value.type = (w.item i).descriptor.type ∧ v.Passes value)
      v.checkReads where
  cell := by
    obtain ⟨item, hm⟩ := (hl.tallies hi).made
    refine ⟨item, hm, ?_⟩
    rw [(hl.tallies hi).cell item hm]
    cases hs : (storedIn i w.history).getLast? with
    | none => exact .inl rfl
    | some a =>
      exact .inr (passes_of_stored hl ho hj hv hi hx (mem_of_mem_storedIn (List.mem_of_getLast? hs)))
  stored := passes_of_stored hl ho hj hv hi hx
  returned := passes_of_returned hl hj hv hx
  handed := passes_of_handsOut hl hj hv hi hx tallies validates

end World

namespace Scenario

/-- At every moment of every run, a validation has counted the accesses that it turned down, and of
every item whose chain it is in the following holds. If it is for the type of the item, and its
condition goes by the value alone, then whatever came into the cell meets the condition, but the
value that the item was made with, and if reads are checked, so does whatever readers get. If it is
for another type, then nothing was stored, the cell holds what the item was made with, and if reads
are checked, no reader gets a value. -/
theorem validations_upheld (halt halt' : World → Bool) (depth depth' : Nat) (steps : List Step) :
    ∀ w, reached halt depth {} steps = w → ∀ x v, w.aspect x = .validation v →
      v.rejections = refusals x .write w.history +
        (if v.checkReads then refusals x .read w.history else 0) ∧
      ∀ i, i < w.items.next → x ∈ (w.item i).chain →
        (v.type = (w.item i).descriptor.type → v.condition.Pure → ∀ flags,
          w.Upholds (callUntil halt' depth') i (v.condition.holds flags ·) v.checkReads) ∧
        (v.type ≠ (w.item i).descriptor.type → (w.item i).writes = 0 ∧
          w.Upholds (callUntil halt' depth') i (fun _ => False) v.checkReads) := by
  rintro w rfl x v hv
  have hl := reached_inStep halt depth steps
  have ho := reached_orderly halt depth steps
  have hj := reached_judged halt depth steps
  refine ⟨hj.rejections hv, fun i hi hx => ?_⟩
  have hp := World.upholds_passes hl ho hj hv hi hx
    (callUntil_keeps (fun _ hc => ledger_admits hc) halt' depth')
    (callUntil_keeps (fun _ hc => validating_admits hc) halt' depth')
  constructor
  · intro _ pure flags
    apply hp.mono
    rintro value ⟨-, -, flags', hh⟩
    rw [pure flags flags' value, hh]
  · intro ht
    have hnone := hp.mono (Q := fun _ => False) fun value hv => ht (hv.2.1.symm.trans hv.1)
    have hs : storedIn i (reached halt depth {} steps).history = [] :=
      List.eq_nil_iff_forall_not_mem.mpr fun a ha => hnone.stored (mem_of_mem_storedIn ha)
    refine ⟨?_, hnone⟩
    rw [← (hl.tallies hi).stored, hs, List.length_nil]

/-- A number that is negative at first and may not be negative later, and a truth in whose chain the
same validation is put. While the number is written by the step it is written once more. -/
def signed : List Step :=
  [.aspect "v" (.validation {
      name := "sign", type := .int64, condition := .compareInt .ge 0, checkReads := true }),
    .store "s" .standard,
    .create "s" "k" "n" .int64 (.int (-1)) none (.custom false false (.links [
      .fresh (.probe {
        name := "p"
        script := fun h => if h = .beforeWrite then
          some (Script.window 1 (some 1) [.write "k" none (.int 7)]) else none }),
      .shared "v"])),
    .create "s" "b" "m" .bool (.bool true) none (.custom false false (.links [.shared "v"])),
    .read "k" none,
    .write "k" none (.int (-2)),
    .write "b" none (.bool false),
    .read "b" none]

theorem signed_upheld :
    let call := callUntil (fun _ => false) maxDepth
    let w := reached (fun _ => false) maxDepth {} signed
    ∃ v, w.aspect 0 = .validation v ∧ v.rejections = 6 ∧
      refusals 0 .write w.history + refusals 0 .read w.history = 6 ∧
      (w.item 0).value = .int64 7 ∧ w.Upholds call 0 (v.condition.holds w.flag ·) true ∧
      (w.item 1).writes = 0 ∧ w.Upholds call 1 (fun _ => False) true := by
  intro call w
  have test : (w.aspect 0).validation?.any fun v => v.condition.flagless && v.checkReads &&
      v.type = .int64 && v.rejections = 6 := by decide +kernel
  have guarded : (0 < w.items.next ∧ 0 ∈ (w.item 0).chain) ∧ 1 < w.items.next ∧
      0 ∈ (w.item 1).chain := by decide +kernel
  have types : (w.item 0).descriptor.type = .int64 ∧ (w.item 1).descriptor.type = .bool := by
    decide +kernel
  have cell : (w.item 0).value = .int64 7 := by decide +kernel
  have upheld := validations_upheld (fun _ => false) (fun _ => false) maxDepth maxDepth signed w
    rfl 0
  clear_value w
  obtain ⟨v, hv, hp⟩ := (Option.any_eq_true _ _).mp test
  simp only [Bool.and_eq_true, decide_eq_true_eq] at hp
  obtain ⟨⟨⟨flagless, checked⟩, type⟩, count⟩ := hp
  obtain ⟨rejections, kept⟩ := upheld v (Aspect.eq_of_validation? hv)
  rw [checked] at rejections kept
  obtain ⟨unwritten, shut⟩ := (kept 1 guarded.2.1 guarded.2.2).2 (by rw [type, types.2]; decide)
  exact ⟨v, Aspect.eq_of_validation? hv, count, rejections.symm.trans count, cell,
    (kept 0 guarded.1.1 guarded.1.2).1 (type.trans types.1.symm)
      (Predicate.pure_of_flagless flagless) _, unwritten, shut⟩

end Scenario

end GuardedStore
