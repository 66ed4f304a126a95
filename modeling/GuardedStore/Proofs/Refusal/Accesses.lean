import GuardedStore.Proofs.Refusal.Law

/-!
Accesses to an item that has a lock to itself.

Each access is settled by whether the lock is held when it begins. If it is, then the access is
refused at one go and leaves nothing but marks and a timeout. If it is free, then a read gives the
value, and a write stores what it was asked to, whatever comes of that.
-/
namespace GuardedStore

namespace World

variable {w w' : World} {x : Nat} {audits : List Nat} {marks : List Happening}

/-- Whoever was there before the walk is of the form that he has after it. -/
theorem Walked.sameForms (h : w.Walked marks w') : w'.SameForms w :=
  fun y hy => (h.forms y (h.next ▸ hy)).symm

theorem Walked.fences (h : w.Walked marks w') (hf : w.Fences audits x)
    (hc : w.Has (audits ++ [x])) : w'.Fences audits x :=
  hf.of_sameForms h.sameForms (hc.mono (Nat.le_of_eq h.next.symm))

theorem Fences.scriptless (hf : w.Fences audits x) {y : Nat} (hy : y ∈ audits ++ [x]) :
    (w.aspect y).scriptless := by
  rcases List.mem_append.mp hy with hy | hy
  · have ha := hf.audits y hy
    cases hb : w.aspect y <;> simp [hb, Aspect.isAudit, Aspect.scriptless] at ha ⊢
  · obtain ⟨l, n, hl, -⟩ := hf.lock
    rw [List.mem_singleton.mp hy, hl]
    rfl

theorem Fences.name (hf : w.Fences audits x) : (w.aspect x).name = "lock" := by
  obtain ⟨l, n, hl, -⟩ := hf.lock
  rw [hl]
  rfl

end World

namespace Engine

variable {call : Nat → Engine Unit} {w : World} {x i : Nat} {audits : List Nat}

/-- A clean-up that comes to its end goes after what has come to its end. -/
theorem ensure_of_done {α : Type} {m : Engine α} {c : Engine Unit} {a : α} {u v : World}
    (hm : m w = (.done a, u)) (hc : c u = (.done (), v)) : ensure m c w = (.done a, v) := by
  unfold ensure
  rw [hm]
  exact bind_of_done (f := fun _ => pure a) hc

/-- To leave a pass through fences leaves marks of that pass. -/
theorem leave_fenced {p : Pass} (hf : w.Fences audits x) (hc : w.Has (audits ++ [x]))
    (hp : ∀ y ∈ p.entered, y ∈ audits ++ [x]) : ∃ v marks, leave call p w = (.done (), v) ∧
      w.Walked marks v ∧ .left p.access true ∈ marks ∧
        ∀ chain, ∀ y ∈ marks, y.ofGuards ∧ y.Within x chain p.access := by
  obtain ⟨v, marks, hv, hk, hm⟩ := @leave_scriptless call w p
    fun y hy => ⟨hc y (hp y hy), hf.scriptless (hp y hy)⟩
  refine ⟨v, _, hv, hk, List.mem_cons_self, fun chain y hy => ?_⟩
  rcases List.mem_cons.mp hy with rfl | hy
  · exact ⟨rfl, trivial⟩
  rcases hm y hy with hy | ⟨z, -, rfl⟩
  · exact ⟨Happening.ofGuards_of_ofAspect hy,
      Happening.within_of_remote (Happening.remote_of_ofAspect hy)⟩
  · exact ⟨rfl, fun _ => rfl⟩

/-- What is found when a pass has been entered is part of that pass. -/
theorem within_of_entered {chain : List Nat} {phase : Phase} {a : Access} {ys : List Nat}
    {y : Happening} (hy : y ∈ ys.map (.admitted · phase a true) ++ [.began chain phase a]) :
    y.ofGuards ∧ y.Within x chain a := by
  rcases List.mem_append.mp hy with hy | hy
  · obtain ⟨z, -, rfl⟩ := List.mem_map.mp hy
    exact ⟨rfl, fun _ => rfl⟩
  · obtain rfl := List.mem_singleton.mp hy
    exact ⟨rfl, rfl, rfl⟩

variable (hf : w.Fences audits x) (hi : (w.item i).chain = audits ++ [x])
  (hc : w.Has (audits ++ [x]))

include hf hi hc

/-- A write is refused while the lock is held. -/
theorem write_held {t : Nat} (hh : w.holder x = some t) (value : Value) :
    let a : Access := ⟨(w.item i).descriptor, value, w.tickets + 1⟩
    ∃ v marks, write call i value w = (.done (), v) ∧ w.Walked marks v ∧ w.tickets < v.tickets ∧
      .concluded i a .vetoed ∈ marks ∧ .left a true ∈ marks ∧
      ∀ y ∈ marks, y.ofGuards ∧ y.Within x (w.item i).chain a := by
  intro a
  obtain ⟨u, n, he, ht, hk⟩ := @enter_held call w x audits hf t hh .write ⟨a.descriptor, value, 0⟩
  have hku := (hk.mark (.notice (.writeVetoed a.descriptor (((u.vetoedBy
    ⟨.write, a, audits.reverse, some x⟩).getD ""))))).mark (.concluded i a .vetoed)
  obtain ⟨v, marks, hv, hkv, hl, hm⟩ := @leave_fenced call _ x audits
    ⟨.write, a, audits.reverse, some x⟩ (hku.fences hf hc) (hc.mono (Nat.le_of_eq hku.next.symm))
    (fun y hy => List.mem_append_left _ (List.mem_reverse.mp hy))
  refine ⟨v, _, ?_, hku.trans hkv, ?_, ?_, ?_, ?_⟩
  · unfold write
    rw [bind_apply]
    dsimp only [get]
    rw [hi, bind_of_done he]
    exact ensure_of_done rfl hv
  · have := hkv.tickets
    exact Nat.lt_of_lt_of_le (Nat.lt_of_lt_of_eq (Nat.lt_succ_self _) ht.symm) this
  · simp
  · simp [hl]
  · intro y hy
    rw [hi]
    simp only [List.mem_append, List.mem_cons] at hy
    rcases hy with hy | rfl | rfl | rfl | rfl | hy
    · exact hm _ y hy
    · exact ⟨rfl, trivial⟩
    · exact ⟨rfl, trivial⟩
    · exact ⟨rfl, fun _ => rfl⟩
    · exact ⟨rfl, trivial⟩
    · exact within_of_entered (by simpa using hy)

omit hc in
/-- A write that finds the lock free takes it and stores the value. What is left to do then is to
pass the trigger on, and to leave the pass whatever comes of that. -/
theorem write_free (hh : w.holder x = none) (value : Value) :
    let a : Access := ⟨(w.item i).descriptor, value, w.tickets + 1⟩
    ∃ v marks, write call i value w =
        ensure (do
          let _ ← forward call ((v.issuing i a).item i).affinity
            ⟨((v.issuing i a).item i).source, ((v.issuing i a).item i).writes⟩)
          (leave call ⟨.write, a, x :: audits.reverse, none⟩) (v.issuing i a) ∧
      w.Walked marks v ∧ v.tickets = w.tickets + 1 ∧ .admitted x .write a true ∈ marks ∧
      (∀ phase b c, .told x phase b c ∉ marks) ∧
      ∀ y ∈ marks, y.ofGuards ∧ y.Within x (w.item i).chain a := by
  intro a
  obtain ⟨v, he, ht, hk⟩ := @enter_free call w x audits hf hh .write ⟨a.descriptor, value, 0⟩
  refine ⟨v, _, ?_, hk, ht, by simp [a], by simp, fun y hy => ?_⟩
  · unfold write
    rw [bind_apply]
    dsimp only [get]
    rw [hi, bind_of_done he]
    rfl
  · rw [hi]
    exact within_of_entered hy

/-- A read is refused while the lock is held. -/
theorem read_held {t : Nat} (hh : w.holder x = some t) (retries : Nat) :
    let a : Access := ⟨(w.item i).descriptor, (w.item i).value, w.tickets + 1⟩
    ∃ v marks, readWithin call i retries w = (.done (.error (refusal a.descriptor "lock")), v) ∧
      w.Walked marks v ∧ w.tickets < v.tickets ∧ .concluded i a .refused ∈ marks ∧
      .left a true ∈ marks ∧ ∀ y ∈ marks, y.ofGuards ∧ y.Within x (w.item i).chain a := by
  intro a
  obtain ⟨u, n, he, ht, hk⟩ := @enter_held call w x audits hf t hh .read
    ⟨a.descriptor, a.value, 0⟩
  have hname : u.vetoedBy ⟨.read, a, audits.reverse, some x⟩ = some "lock" :=
    congrArg some (hk.fences hf hc).name
  obtain ⟨v, marks, hv, hkv, hl, hm⟩ := @leave_fenced call _ x audits
    ⟨.read, a, audits.reverse, some x⟩ (hk.fences hf hc) (hc.mono (Nat.le_of_eq hk.next.symm))
    (fun y hy => List.mem_append_left _ (List.mem_reverse.mp hy))
  have hkz := ((hk.trans hkv).mark (.notice (.readRefused a.descriptor "lock"))).mark
    (.concluded i a .refused)
  refine ⟨_, _, ?_, hkz, ?_, ?_, ?_, ?_⟩
  · unfold readWithin
    rw [bind_apply]
    dsimp only [get]
    rw [hi, bind_of_done he, bind_apply]
    dsimp only [get]
    cases retries <;> rw [show u.vetoedBy _ = _ from hname] <;> exact bind_of_done hv
  · exact Nat.lt_of_lt_of_le (Nat.lt_of_lt_of_eq (Nat.lt_succ_self _) ht.symm) hkv.tickets
  · simp
  · simp [hl]
  · intro y hy
    rw [hi]
    simp only [List.mem_append, List.mem_cons] at hy
    rcases hy with rfl | rfl | hy | rfl | rfl | hy
    · exact ⟨rfl, trivial⟩
    · exact ⟨rfl, trivial⟩
    · exact hm _ y hy
    · exact ⟨rfl, fun _ => rfl⟩
    · exact ⟨rfl, trivial⟩
    · exact within_of_entered (by simpa using hy)

/-- A read that finds the lock free gives the value with its first pass. -/
theorem read_free (hh : w.holder x = none) (retries : Nat) :
    let a : Access := ⟨(w.item i).descriptor, (w.item i).value, w.tickets + 1⟩
    ∃ v marks n, readWithin call i retries w =
        (.done (.ok (w.item i).value), v.mark (.concluded i a (.returned n))) ∧
      w.Walked marks v ∧ w.tickets < v.tickets ∧ .left a true ∈ marks ∧
      ∀ y ∈ marks, y.ofGuards ∧ y.Within x (w.item i).chain a := by
  intro a
  obtain ⟨u, he, ht, hk⟩ := @enter_free call w x audits hf hh .read ⟨a.descriptor, a.value, 0⟩
  obtain ⟨v, marks, hv, hkv, hl, hm⟩ := @leave_fenced call _ x audits
    ⟨.read, a, x :: audits.reverse, none⟩ (hk.fences hf hc) (hc.mono (Nat.le_of_eq hk.next.symm))
    (fun y hy => by simpa [or_comm] using hy)
  have hsame : (u.item i).writes = (w.item i).writes := by rw [hk.item]
  have hread : ∃ n, readWithin call i retries w =
      (.done (.ok (w.item i).value), v.mark (.concluded i a (.returned n))) := by
    unfold readWithin
    rw [bind_apply]
    dsimp only [get]
    rw [hi, bind_of_done he, bind_apply]
    dsimp only [get]
    cases retries with
    | zero => exact ⟨_, bind_of_done hv⟩
    | succ k =>
      dsimp only [World.vetoedBy, Option.map_none]
      rw [if_neg (not_not_intro hsame)]
      exact ⟨_, bind_of_done hv⟩
  obtain ⟨n, hread⟩ := hread
  refine ⟨v, _, n, hread, hk.trans hkv, ?_, by simp [hl], fun y hy => ?_⟩
  · exact Nat.lt_of_lt_of_le (Nat.lt_of_lt_of_eq (Nat.lt_succ_self _) ht.symm) hkv.tickets
  · rw [hi]
    rcases List.mem_append.mp hy with hy | hy
    · exact hm _ y hy
    · exact within_of_entered hy

end Engine

end GuardedStore
