import GuardedStore.Proofs.Rounds.Course
import GuardedStore.Proofs.Rounds.Law

/-!
Requests and runs keep the docket.

A request is queued by a cooperative domain and is no concern of the dockets of others. A run of the
domain takes what is queued and hands it out; while its round is open no other run takes anything,
so what is handed out meanwhile belongs to this round.
-/
namespace GuardedStore

variable {d : Nat} {strict : Prop}

namespace World

variable {w w' : World}

/-- Nothing is said of a domain that is there and not cooperative. -/
theorem docket_holds_of_kind (hg : w.Grows w') (hs : w'.Sound) (hd : d < w.domains.next)
    (hk : (w.domain d).kind ≠ .cooperative) : (docket d strict).Holds w .done w' :=
  have hlt := Nat.lt_of_lt_of_le hd hg.domains
  ⟨⟨hs, fun h => absurd hlt (Nat.not_lt.mpr h)⟩, hg, fun hc =>
    absurd ((hg.kind hd).symm.trans (hc hlt)) hk⟩

theorem sound_requesting (issuer : Issuer) (domain : Option Nat) (e : Event) (hw : w.Sound) :
    (w.requesting issuer domain e).Sound :=
  sound_mark _ hw

theorem grows_requesting (issuer : Issuer) (domain : Option Nat) (e : Event) (w : World) :
    w.Grows (w.requesting issuer domain e) :=
  grows_mark _ w

theorem sound_queueing (issuer : Issuer) (r : Nat) (e : Event) (hw : w.Sound) :
    (w.queueing issuer r e).Sound :=
  have hs := (w.quiet_sameTable r fun x => x.sameTable_accept e).sound hw
  { hs with names := hs.names.mono (Nat.le_refl _) (Nat.le_refl _) (Nat.le_refl _) }

theorem grows_queueing (issuer : Issuer) (r : Nat) (e : Event) (w : World) :
    w.Grows (w.queueing issuer r e) :=
  { (w.quiet_sameTable r fun x => x.sameTable_accept e).grows with history := ⟨[_, _], rfl⟩ }

/-- A request that does not concern the domain, or of which nothing is said. -/
theorem docket_requesting {domain : Option Nat} (hd : w.Offers domain)
    (hk : ∀ r, domain = some r → (w.domain r).kind ≠ .cooperative) (issuer : Issuer) (e : Event)
    (hw : (docket d strict).inv w) :
    (docket d strict).Holds w .done (w.requesting issuer domain e) := by
  by_cases hr : domain = some d
  · exact docket_holds_of_kind (grows_requesting issuer domain e w)
      (sound_requesting issuer domain e hw.1) (hd d hr) (hk d hr)
  · refine (offDocket_mark ?_ hw.1).holds hw
    cases domain with
    | none => rfl
    | some r => simpa [Happening.ofDomain] using hr

/-- A request is queued and counted. -/
theorem docket_queueing {r : Nat} (hd : r < w.domains.next)
    (hk : (w.domain r).kind = .cooperative) (issuer : Issuer) (e : Event)
    (hw : (docket d strict).inv w) :
    (docket d strict).Holds w .done (w.queueing issuer r e) := by
  have hs := sound_queueing issuer r e hw.1
  have hg := grows_queueing issuer r e w
  by_cases hr : r = d
  · subst hr
    have hb : ((w.queueing issuer r e).domain r).books = { (w.domain r).books with
        queue := (w.domain r).books.queue ++ [e], received := (w.domain r).books.received + 1 } := by
      rw [domain_queueing, if_pos rfl, Domain.books_accept, if_pos hk]
    have hn : takenBy r [.notice (.triggerQueued (w.domain r).label e),
        .requested issuer (some r) e] = [] := rfl
    have hq : requestsTo r [.notice (.triggerQueued (w.domain r).label e),
        .requested issuer (some r) e] = [(issuer, e)] := by
      simp [requestsTo, Happening.requestTo?]
    refine ⟨⟨hs, fun h => absurd hd (Nat.not_lt.mpr h)⟩, hg, fun _ =>
      ⟨[.notice (.triggerQueued (w.domain r).label e), .requested issuer (some r) e],
        ⟨rfl, (fun h => by cases h), by rw [hn, hq, hb]; rfl, by rw [hq, hb]; rfl⟩, fun _ =>
        ⟨fun m hm _ => ?_, fun _ hrun => ⟨⟨[], rfl, by simp⟩, fun _ => hrun⟩, fun _ => by rw [hb],
          fun _ => by rw [hb], fun _ _ hrun =>
            ⟨[], rfl, hrun, by simp, by rw [hb]; rfl, by rw [hb]; rfl⟩⟩⟩⟩
    have hz : ∀ y ∈ m, y.handedBy? r = none ∧ y.releases r = false := fun y hy => by
      have hy := hm.subset hy
      simp only [List.mem_cons, List.not_mem_nil, or_false] at hy
      rcases hy with rfl | rfl <;> exact ⟨rfl, rfl⟩
    exact ⟨List.filterMap_eq_nil_iff.mpr fun y hy => (hz y (List.mem_reverse.mp hy)).1,
      fun y hy => (hz y hy).2⟩
  · have hsame : (w.queueing issuer r e).domain d = w.domain d := by
      rw [domain_queueing, if_neg (Ne.symm hr)]
    refine OffDocket.holds ⟨hg, hs, fun _ => by rw [hsame], by rw [hsame], [_, _], ?_, rfl⟩ hw
    simp [Happening.ofDomain, hr]

/-- What another domain than this one accepts. -/
theorem docket_accept {r : Nat} (hk : (w.domain r).kind ≠ .cooperative) (e : Event)
    (hw : (docket d strict).inv w) :
    (docket d strict).Holds w .done (w.modifyDomain r fun x => x.accept e) := by
  have hq := w.quiet_sameTable r fun x => x.sameTable_accept e
  refine (hq.offDocket hw.1 ?_ ⟨[], by simp, rfl⟩).holds hw
  rw [domain_modifyDomain]
  split
  · next h => rw [Domain.books_accept, if_neg hk, h]
  · rfl

end World

namespace Engine

variable {call : Nat → Engine Unit} (hc : ∀ r, (call r).Keeps (docket d strict)) {w : World}

include hc

/-- An immediate domain has no docket, and leaves those of others alone. -/
theorem deliver_docket {r : Nat} (hd : r < w.domains.next) (hk : (w.domain r).kind = .immediate)
    (label : String) (i : Immediate) (e : Event) :
    (deliver call r label i e).KeepsAt (docket d strict) w := by
  by_cases hr : r = d
  · subst hr
    intro hw
    have h := deliver_keeps (docket_handing r False) (fun r => (hc r).docket_weaken)
      (fun h : False => (h.elim : r ≠ r)) label i e w hw
    refine docket_of_not_cooperates h fun hco => ?_
    have := (h.2.1.kind hd).symm.trans (hco (Nat.lt_of_lt_of_le hd h.2.1.domains))
    rw [hk] at this
    cases this
  · exact deliver_keeps (docket_handing d strict) hc (fun _ => hr) label i e w

theorem trigger_docket (issuer : Issuer) {domain : Option Nat} (hd : w.Offers domain) (e : Event) :
    (trigger call issuer domain e).KeepsAt (docket d strict) w := by
  cases domain with
  | none =>
    refine keepsAt_modify_bind (World.docket_requesting hd (by simp) issuer e) fun _ => ?_
    exact (remark_keeps (docket_handing d strict).toSignalling rfl _).bind fun _ v _ _ =>
      keeps_pure _ v
  | some r =>
    have he := trigger_apply call issuer r e w
    have hlt := hd r rfl
    -- where the event is not queued, it is requested first and then passed on
    have hpass {m : Engine Bool} (hk : (w.domain r).kind ≠ .cooperative)
        (hm : m.KeepsAt (docket d strict) (w.requesting issuer (some r) e))
        (he : trigger call issuer (some r) e w = m (w.requesting issuer (some r) e)) :
        (trigger call issuer (some r) e).KeepsAt (docket d strict) w :=
      KeepsAt.congr (keepsAt_modify_bind (g := fun _ => m)
        (World.docket_requesting hd (by rintro r ⟨⟩; exact hk) issuer e) fun _ => hm) he
    cases hm : (w.domain r).mode with
    | recording x =>
      have hk : (w.domain r).kind ≠ .cooperative := by simp [Domain.kind, hm]
      rw [hm] at he
      exact hpass hk (keepsAt_modify_bind
        (World.docket_accept (w := w.requesting issuer (some r) e) hk e) fun _ => keeps_pure _ _) he
    | cooperative x =>
      have hk : (w.domain r).kind = .cooperative := by simp [Domain.kind, hm]
      rw [hm] at he
      exact keepsAt_of_eq he (World.docket_queueing hlt hk issuer e)
    | immediate x =>
      have hk : (w.domain r).kind = .immediate := by simp [Domain.kind, hm]
      rw [hm] at he
      have hv := deliver_docket (w := w.requesting issuer (some r) e) hc hlt hk
        (w.domain r).label x e
      exact hpass (by rw [hk]; decide) (hv.bind fun _ v _ _ => keeps_pure _ v) he

end Engine

end GuardedStore
