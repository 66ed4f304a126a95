import GuardedStore.Proofs.Apart.Company
import GuardedStore.Proofs.Run.Moments

/-!
Runs of domains, as steps.

The step looks up the domain and is refused, or runs it. In worlds that are in company it comes to
the same, but for the statistics: these count what the second side has there as well.
-/
namespace GuardedStore

open Engine

variable {a b : Side} {ρ β : Twins} {w' w v' v : World}

namespace Performing

theorem run_runPending (call : Nat → Engine Unit) (domain : String) (w : World) :
    (runPending call domain).run w =
      if 0 < w.modelDepth then (.done (.error (.refused "run_pending")), w)
      else match w.names.domains.find? domain with
        | none => (.done (.error (.missing .domain domain)), w)
        | some d =>
          if (w.domain d).kind = .cooperative then
            (Engine.runPending call d >>= fun s => pure (.ok (.stats s))) w
          else (.done (.error .unreadable), w) := by
  have hrefuse := run_refuseWhen "run_pending" (fun w => 0 < w.modelDepth) w
  have hnamed := run_named .domain Names.domains domain w
  unfold runPending
  by_cases hd : 0 < w.modelDepth
  · rw [if_pos (by simpa using hd)] at hrefuse
    rw [if_pos hd, run_bind_error hrefuse]
  · rw [if_neg (by simpa using hd)] at hrefuse
    rw [if_neg hd, run_bind_ok hrefuse]
    cases hn : w.names.domains.find? domain with
    | none =>
      rw [hn] at hnamed
      exact run_bind_error hnamed
    | some d =>
      rw [hn] at hnamed
      refine (run_bind_ok hnamed).trans ((run_bind_ok (m := world) (a := w) rfl).trans ?_)
      dsimp only
      unfold Domain.kind
      cases hm : (w.domain d).mode with
      | cooperative c =>
        rw [if_pos rfl]
        exact congrFun (run_lift_bind (Engine.runPending call d) fun s =>
          (pure (.stats s) : Performing Answer)) w
      | recording r =>
        rw [if_neg (by simp)]
        rfl
      | immediate i =>
        rw [if_neg (by simp)]
        rfl

theorem answer_runPending (call : Nat → Engine Unit) (domain : String) (w : World) :
    answer call (.runPending domain) w =
      if 0 < w.modelDepth then (.done (.refused "run_pending"), w)
      else match w.names.domains.find? domain with
        | none => (.done (.missing .domain domain), w)
        | some d =>
          if (w.domain d).kind = .cooperative then
            (Engine.runPending call d >>= fun s => pure (Answer.stats s)) w
          else (.done .unreadable, w) := by
  unfold answer perform
  dsimp only
  rw [bind_apply, run_runPending]
  by_cases hd : 0 < w.modelDepth
  · rw [if_pos hd, if_pos hd]
    rfl
  rw [if_neg hd, if_neg hd]
  cases w.names.domains.find? domain with
  | none => rfl
  | some d =>
    dsimp only
    by_cases hk : (w.domain d).kind = .cooperative
    · rw [if_pos hk, if_pos hk, bind_apply, bind_apply]
      rcases Engine.runPending call d w with ⟨_ | _ | _, v⟩ <;> rfl
    · rw [if_neg hk, if_neg hk]
      rfl

end Performing

/-- A run of a domain is answered in both worlds, if not with the same statistics. -/
theorem World.Company.answer_runPending (apart : a.Apart b) {call : Nat → Engine Unit}
    (mine : ∀ lone, Follows a lone call) (theirs : ∀ lone, Follows b lone call)
    (h : w'.Company a b ρ β w) {domain : String} {x : Answer}
    (hr : Performing.answer call (.runPending domain) w = (.done x, v)) :
    ∃ ρ' β' x' v', Performing.answer call (.runPending domain) w' = (.done x', v') ∧
      v'.Company a b ρ' β' v ∧ (x' = x ∨ ∃ s, x' = .stats s) := by
  rw [Performing.answer_runPending] at hr ⊢
  rw [h.mine.depths.1, h.mine.names.domains]
  by_cases hd : 0 < w.modelDepth
  · rw [if_pos hd] at hr ⊢
    cases hr
    exact ⟨ρ, β, _, w', rfl, h, .inl rfl⟩
  rw [if_neg hd] at hr ⊢
  cases hn : w.names.domains.find? domain with
  | none =>
    rw [hn] at hr
    cases hr
    exact ⟨ρ, β, _, w', rfl, h, .inl rfl⟩
  | some d =>
    rw [hn] at hr
    dsimp only at hr ⊢
    rw [(h.mine.domains d).kind]
    by_cases hk : (w.domain d).kind = .cooperative
    · rw [if_pos hk] at hr ⊢
      obtain ⟨s, u, hu, hr⟩ := done_of_bind hr
      cases hr
      obtain ⟨ρ', β', s', v', hv', hc⟩ := h.runPending apart mine theirs hu
      exact ⟨ρ', β', _, v', bind_of_done hv', hc, .inr ⟨s', rfl⟩⟩
    · rw [if_neg hk] at hr ⊢
      cases hr
      exact ⟨ρ, β, _, w', rfl, h, .inl rfl⟩

end GuardedStore
