import GuardedStore.Proofs.Audit.Steps
import GuardedStore.Proofs.Ledger.Writes
import GuardedStore.Proofs.Passes.Pairing

/-!
The audit trail of an item.

An audit of its own that an item puts first in its chain counts the passes made for the item. A
write makes one pass, but a read makes one more each time that a value was stored meanwhile, so the
audit counts more reads than handed out a value. It also counts a pass that a panic cut short as one
that was permitted.
-/
namespace GuardedStore

/-- What became of the passes made for an item without storing a value, latest first. -/
def upshots (item : Nat) (history : List Happening) : List Upshot :=
  history.filterMap fun
    | .concluded i _ u => if i = item then some u else none
    | _ => none

/-- How many passes of the phase a panic cut short that the aspect had admitted. -/
def cutShort (aspect : Nat) (phase : Phase) (history : List Happening) : Nat :=
  tally (Happening.abandons aspect phase true) history

/-- No panic came out of telling an aspect that an access was over. -/
def EveryoneTold (history : List Happening) : Prop :=
  ∀ a, .left a false ∉ history

instance (history : List Happening) : Decidable (EveryoneTold history) :=
  decidable_of_iff (history.all (fun | .left _ false => false | _ => true) = true) <| by
    rw [List.all_eq_true]
    constructor
    · intro h a ha
      cases h _ ha
    · intro h y hy
      split
      · exact absurd hy (h _)
      · rfl

theorem upshots_cons (i : Nat) (y : Happening) (h : List Happening) :
    upshots i (y :: h) = upshots i [y] ++ upshots i h := by
  rw [← List.singleton_append, upshots, List.filterMap_append]
  rfl

/-- The passes made for an item that came to an end of their own end in a value stored or as their
upshot says. -/
theorem tally_ends (i : Nat) (phase : Phase) (permitted : Bool) (h : List Happening) :
    tally (Happening.ends i phase permitted) h =
      (if phase = .write ∧ permitted = true then (storedIn i h).length else 0) +
        (upshots i h).countP fun u => u.phase = phase ∧ u.permitted = permitted := by
  induction h with
  | nil => simp [upshots, storedIn]
  | cons y h ih =>
    rw [tally_cons, ih, storedIn_cons, upshots_cons]
    cases y with
    | stored j a =>
      simp only [Happening.ends, Happening.storedIn?, upshots, List.filterMap_cons_none,
        List.filterMap_nil, List.nil_append, List.length_append]
      grind
    | concluded j a u =>
      simp only [Happening.ends, Happening.storedIn?, upshots, List.filterMap_cons,
        List.filterMap_nil, List.length_append, List.countP_append]
      grind
    | _ => simp [Happening.ends, Happening.storedIn?, upshots]

namespace World

/-- The aspect is an audit of the item's own: the item's chain starts with it, and it comes up there
once and is not called upon from anywhere else. -/
structure OwnAudit (w : World) (aspect item : Nat) (a : Audit) : Prop where
  made : item < w.items.next
  audit : w.aspect aspect = .audit a
  first : ∃ rest, (w.item item).chain = aspect :: rest ∧ aspect ∉ rest
  alone : ∀ {j}, j < w.items.next → j ≠ item → aspect ∉ (w.item j).chain
  unvisited : ∀ {chain}, .visited chain ∈ w.history → aspect ∉ chain

variable {w : World} {x i : Nat} {a : Audit}

theorem OwnAudit.isPrivate (h : w.OwnAudit x i a) : w.Private x i where
  audit _ := by rw [h.audit]; rfl
  first _ := h.first
  alone := h.alone
  unvisited := h.unvisited

/-- What an audit of an item's own has counted. -/
structure Accounted (w : World) (x i : Nat) (a : Audit) : Prop where
  writes : a.writes = (w.item i).writes + cutShort x .write w.history
  vetoed : a.vetoedWrites = (upshots i w.history).count .vetoed
  reads : a.reads = (upshots i w.history).countP Upshot.isReturned +
    (upshots i w.history).count .superseded + cutShort x .read w.history
  refused : a.refusedReads = (upshots i w.history).count .refused

/-- If the balance is even, the audit has counted all passes. -/
theorem OwnAudit.accounted (h : w.OwnAudit x i a) (hw : w.Audited x)
    (hs : (storedIn i w.history).length = (w.item i).writes)
    (hb : ∀ phase b, balance x i phase b w.history = 0) : w.Accounted x i a := by
  have ht (phase : Phase) (b : Bool) : tally (Happening.tells x phase b) w.history =
      tally (Happening.ends i phase b) w.history +
        tally (Happening.abandons x phase b) w.history := by
    have := hb phase b
    unfold balance at this
    omega
  have hf (phase : Phase) : tally (Happening.abandons x phase false) w.history = 0 :=
    tally_eq_zero fun y _ => by
      cases y <;> first | rfl | exact if_neg (by simp)
  have hc (l : List Upshot) : l.countP (fun u => decide (u.phase = .read ∧ u.permitted = true)) =
      l.countP Upshot.isReturned + l.count .superseded := by
    induction l with
    | nil => rfl
    | cons u l ih =>
      rw [List.countP_cons, List.countP_cons, List.count_cons, ih]
      cases u <;> simp [Upshot.phase, Upshot.permitted, Upshot.isReturned] <;> omega
  have hcount (v : Upshot) (phase : Phase) (b : Bool)
      (hv : ∀ u : Upshot, u.phase = phase ∧ u.permitted = b ↔ u = v) (l : List Upshot) :
      l.countP (fun u => decide (u.phase = phase ∧ u.permitted = b)) = l.count v :=
    List.countP_congr fun u _ => by simp [hv u]
  have hnone (l : List Upshot) :
      l.countP (fun u => decide (u.phase = .write ∧ u.permitted = true)) = 0 :=
    List.countP_eq_zero.mpr fun u _ => by cases u <;> simp [Upshot.phase, Upshot.permitted]
  rw [hw.counts h.audit]
  constructor
  · simp only [Audit.heard, ht, tally_ends, hnone, hs, cutShort]
    simp
  · simp only [Audit.heard, ht, tally_ends, hf]
    rw [hcount .vetoed _ _ fun u => by cases u <;> simp [Upshot.phase, Upshot.permitted]]
    simp
  · simp only [Audit.heard, ht, tally_ends, hc, cutShort]
    simp
  · simp only [Audit.heard, ht, tally_ends, hf]
    rw [hcount .refused _ _ fun u => by cases u <;> simp [Upshot.phase, Upshot.permitted]]
    simp

end World

theorem cutShort_eq_zero_iff {x : Nat} {phase : Phase} {h : List Happening} :
    cutShort x phase h = 0 ↔ ∀ xs a, .abandoned xs phase a ∈ h → x ∉ xs := by
  rw [cutShort, tally_eq_zero_iff]
  constructor
  · intro hz xs a hm hx
    have := hz _ hm
    simp [Happening.abandons, hx] at this
  · intro hn y hy
    cases y with
    | abandoned xs ph a =>
      refine if_neg fun hx => hn xs a ?_ hx.1
      rw [← hx.2.1]
      exact hy
    | _ => rfl

namespace Scenario

variable {depth : Nat} {steps : List Step} {w : World}

/-- Between steps, what an audit of an item's own was told is even with what became of the accesses
to the item. -/
theorem settled_even {x i : Nat} (hs : settled depth {} steps = some w) (hx : w.Private x i)
    (hl : EveryoneTold w.history) (phase : Phase) (b : Bool) :
    balance x i phase b w.history = 0 := by
  refine (settled_inv (L := auditing x i 0) (fun _ hc => auditing_admits hc)
    (fun _ => World.audited_unwinding false)
    (P := fun w => w.Private x i → EveryoneTold w.history → balance x i phase b w.history = 0)
    (fun _ h hx => h ⟨hx.audit, hx.first, hx.alone, hx.unvisited⟩)
    (fun {u e v} _ hP hv he hx hl => ?_) (World.audited_empty x) (fun _ _ => rfl) hs).2 hx hl
  have hlu : EveryoneTold u.history := fun a ha => hl a (hv.2.grows.history.subset ha)
  exact (hv.2.balance he hx hl phase b).trans
    ((Int.add_zero _).trans (hP (hx.of_tilts hv.2) hlu))

theorem reached_audited (x : Nat) (halt : World → Bool) (depth : Nat) (steps : List Step) :
    (reached halt depth {} steps).Audited x :=
  reached_inv (L := auditing x 0 0) (fun _ hc => auditing_admits hc)
    (fun _ => World.audited_unwinding false) halt depth steps (World.audited_empty x)

theorem settled_accounted {x i : Nat} {a : Audit} (hs : settled depth {} steps = some w)
    (hx : w.OwnAudit x i a) (hl : EveryoneTold w.history) : w.Accounted x i a := by
  have hw := reached_of_settled hs
  exact hx.accounted (hw ▸ reached_audited x _ _ _)
    ((World.InStep.tallies (hw ▸ reached_inStep _ _ _) hx.made).stored)
    (settled_even hs hx.isPrivate hl)

/-- Without a panic everyone is told, and no pass is cut short. -/
theorem undisturbed_of_settled (hs : settled depth {} steps = some w)
    (hp : ¬ Panicked w.history) :
    EveryoneTold w.history ∧ ∀ x phase, cutShort x phase w.history = 0 := by
  have hw : w.Orderly := reached_of_settled hs ▸ reached_orderly _ _ _
  constructor
  · intro a ha
    obtain ⟨newer, older, hh⟩ := List.append_of_mem ha
    obtain ⟨later, y, phase, b, text, earlier, rfl, ht⟩ := hw.excused newer a older hh
    exact hp ⟨text, by simp [hh, ht]⟩
  · intro x phase
    refine cutShort_eq_zero_iff.mpr fun xs a ha _ => hp ?_
    obtain ⟨r, hr, ha, -⟩ := hw.shown_abandoned ha
    exact hr.panicked ha

/-- In a run without a panic, and with no access under way, an audit of an item's own has counted
the writes that were stored and those that were vetoed, and the reads that were refused; as reads it
has counted those that handed out a value and, besides, each pass after which a read began again.
What the history says last of a read is what its caller was given. -/
theorem audit_counts_passes (depth : Nat) (steps : List Step) :
    (∀ w, settled depth {} steps = some w → ¬ Panicked w.history →
      ∀ x i a, w.OwnAudit x i a →
        a.writes = (w.item i).writes ∧
        a.vetoedWrites = (upshots i w.history).count .vetoed ∧
        a.refusedReads = (upshots i w.history).count .refused ∧
        a.reads = (upshots i w.history).countP Upshot.isReturned +
          (upshots i w.history).count .superseded ∧
        (a.reads = (upshots i w.history).countP Upshot.isReturned ↔
          .superseded ∉ upshots i w.history)) ∧
    ∀ call i r w v, Engine.read call i w = (.done r, v) → ∃ b u older,
      v.history = .concluded i b u :: older ∧
        (u = .refused ∧ (∃ fault, r = .error fault) ∨ (∃ n, u = .returned n) ∧ r = .ok b.value) := by
  refine ⟨fun w hs hp x i a hx => ?_, fun _ _ _ _ _ h => Engine.concluded_of_readWithin _ h⟩
  obtain ⟨hl, hc⟩ := undisturbed_of_settled hs hp
  have h := settled_accounted hs hx hl
  have hr := h.reads
  rw [hc, Nat.add_zero] at hr
  refine ⟨by rw [h.writes, hc, Nat.add_zero], h.vetoed, h.refused, hr, ?_⟩
  rw [hr, Nat.add_eq_left, List.count_eq_zero]

/-- Nobody but items has called on aspects. -/
def unvisited (history : List Happening) : Bool :=
  history.all fun | .visited _ => false | _ => true

/-- The audit belongs to the only item there is. -/
theorem ownAudit_of_only {x : Nat} {r : List Nat} {a : Audit} (hn : w.items.next = 1)
    (ha : (w.aspect x).counts? = some a) (hc : (w.item 0).chain = x :: r) (hx : x ∉ r)
    (hv : unvisited w.history) : w.OwnAudit x 0 a where
  made := by omega
  audit := Aspect.eq_audit_of_counts? ha
  first := ⟨r, hc, hx⟩
  alone hj hne := by omega
  unvisited hm := by
    have := List.all_eq_true.mp hv _ hm
    cases this

/-- The chain of an item is an audit and a probe; what comes after the item's creation. -/
def watched (p : Probe Script) (steps : List Step) : List Step :=
  .aspect "a" .audit :: .store "s" .standard ::
    .create "s" "k" "n" .int64 (.int 0) none (.custom false false
      (.links [.shared "a", .fresh (.probe p)])) :: steps

/-- Two writes are made, of which the probe refuses the second, and so it does with two reads. -/
def judged : List Step :=
  watched { name := "p", writes := [true, true, false], reads := [true, false] }
    [.write "k" none (.int 1), .write "k" none (.int 2), .read "k" none, .read "k" none]

/-- The probe writes the item when it is asked of a read for the first time. -/
def overtaken : List Step :=
  watched {
    name := "p"
    script := fun h => if h = .beforeRead then
      some (Script.window 0 (some 1) [.write "k" none (.int 1)]) else none }
    [.read "k" none]

theorem judged_counts :
    let w := reached (fun _ => false) maxDepth {} judged
    w.OwnAudit 0 0 ⟨2, 1, 1, 1⟩ ∧ (w.item 0).writes = 2 ∧ (upshots 0 w.history).count .vetoed = 1 ∧
      (upshots 0 w.history).count .refused = 1 ∧
      (upshots 0 w.history).countP Upshot.isReturned = 1 := by
  have ha : (reached (fun _ => false) maxDepth {} judged).OwnAudit 0 0 ⟨2, 1, 1, 1⟩ :=
    ownAudit_of_only (r := [1]) (by decide +kernel) (by decide +kernel) (by decide +kernel)
      (by decide) (by decide +kernel)
  obtain ⟨hw, hv, hf, -, hr⟩ := (audit_counts_passes maxDepth judged).1 _
    (settled_eq_some (by decide +kernel)) (by decide +kernel) 0 0 _ ha
  exact ⟨ha, hw.symm, hv.symm, hf.symm, (hr.mpr (by decide +kernel)).symm⟩

/-- One read handed out a value, and the audit has counted two. -/
theorem overtaken_read_counts_twice :
    let w := reached (fun _ => false) maxDepth {} overtaken
    settled maxDepth {} overtaken = some w ∧ ¬ Panicked w.history ∧
      w.OwnAudit 0 0 ⟨2, 0, 2, 0⟩ ∧ (upshots 0 w.history).countP Upshot.isReturned = 1 := by
  refine ⟨settled_eq_some (by decide +kernel), by decide +kernel, ?_, by decide +kernel⟩
  exact ownAudit_of_only (r := [1]) (by decide +kernel) (by decide +kernel) (by decide +kernel)
    (by decide) (by decide +kernel)

end Scenario

end GuardedStore
