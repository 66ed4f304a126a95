import GuardedStore.Proofs.Nesting.Delivery

/-!
Locks while aspects are asked and told, and items are written and read.

None of this takes a lock of a store: an item raises its triggers with nothing taken. An aspect may
keep an access waiting.
-/
namespace GuardedStore.Engine

variable {call : Nat → Engine Unit}

theorem setAspect_nests (aspect : Nat) (a : Aspect Nat) : (setAspect aspect a).Keeps nesting :=
  change_nests fun _ => rfl

theorem newTicket_nests : newTicket.Keeps nesting :=
  fun _ => aside_nests rfl nofun rfl

variable (hc : ∀ r, (call r).Keeps nesting)

include hc

theorem probeHook_nests (p : Probe Nat) (hook : Hook) (permitted : Option Bool)
    (access : Access) : (probeHook call p hook permitted access).Keeps nesting := by
  unfold probeHook
  split
  · exact callAny_keeps hc _
  · exact (report_nests _).bind fun _ => callAny_keeps hc _

theorem answer_nests (aspect : Nat) (phase : Phase) (access : Access) :
    (answer call aspect phase access).Keeps nesting := by
  refine keeps_get_bind fun w => ?_
  split
  · exact keeps_pure true w
  · exact keeps_pure true w
  · next l hl =>
    split
    · exact (setAspect_nests aspect _).bind (fun _ => keeps_pure true) w
    · refine (setAspect_nests aspect _).bind (fun _ => ?_) w
      exact (notice_nests _).bind fun _ => keeps_pure false
    · next hwaiting =>
      refine fun _ => ⟨trivial, .inr ⟨aspect, l, hl, ?_⟩⟩
      unfold Lock.acquire at hwaiting
      split at hwaiting
      · cases hwaiting
      · next hholder =>
        split at hwaiting
        · cases hwaiting
        · next hpatience => exact ⟨hpatience, by rw [Lock.isLocked, hholder]; rfl⟩
  · split
    · exact keeps_pure true w
    · refine (setAspect_nests aspect _).bind (fun _ => ?_) w
      exact (notice_nests _).bind fun _ => keeps_pure false
    · refine (setAspect_nests aspect _).bind (fun _ => ?_) w
      exact (notice_nests _).bind fun _ => keeps_pure false
  · next p _ =>
    refine (setAspect_nests aspect _).bind (fun _ => ?_) w
    exact (probeHook_nests hc p _ _ _).bind fun _ => keeps_pure _

theorem ask_nests (aspect : Nat) (phase : Phase) (access : Access) :
    (ask call aspect phase access).Keeps nesting :=
  (answer_nests hc aspect phase access).bind fun admitted =>
    (record_nests _).bind fun _ => keeps_pure admitted

theorem tell_nests (aspect : Nat) (phase : Phase) (access : Access) (permitted : Bool) :
    (tell call aspect phase access permitted).Keeps nesting := by
  refine (record_nests _).bind fun _ => keeps_get_bind fun w => ?_
  split
  · exact (setAspect_nests aspect _).bind (fun _ => notice_nests _) w
  · split
    · exact setAspect_nests aspect _ w
    · exact notice_nests _ w
  · exact keeps_pure () w
  · exact keeps_pure () w
  · exact probeHook_nests hc _ _ _ _ w

theorem tellAll_nests (p : Pass) (aspects : List Nat) :
    (tellAll call p aspects).Keeps nesting := by
  induction aspects with
  | nil => exact keeps_pure ()
  | cons x aspects ih => exact (tell_nests hc x _ _ _).bind fun _ => ih

theorem leave_nests (p : Pass) : (leave call p).Keeps nesting :=
  Keeps.bind (fun w => (tellAll_nests hc p _ w).onUnwind fun _ v _ _ => record_nests _ v)
    fun _ => record_nests _

theorem proceed_nests (aspects : List Nat) : ∀ p, (proceed call p aspects).Keeps nesting := by
  induction aspects with
  | nil => exact fun p => keeps_pure p
  | cons x aspects ih =>
    intro p
    have habandon : (abandon call p).Keeps nesting :=
      (record_nests _).bind fun _ => leave_nests hc p
    refine Keeps.bind (fun w => (ask_nests hc x _ _ w).onUnwind fun _ v _ _ => habandon v)
      fun admitted => ?_
    cases admitted with
    | true => exact ih _
    | false => exact keeps_pure _

theorem enter_nests (chain : List Nat) (phase : Phase) (access : Access) :
    (enter call chain phase access).Keeps nesting :=
  newTicket_nests.bind fun _ => (record_nests _).bind fun _ => proceed_nests hc chain _

theorem storeValue_nests (item : Nat) (access : Access) :
    (storeValue call item access).Keeps nesting :=
  Keeps.bind (change_nests fun _ => rfl) fun _ => (record_nests _).bind fun _ =>
    keeps_get_bind fun w => Keeps.bind (notice_nests _)
      (fun _ => (trigger_nests hc _ _ _).bind fun _ => keeps_pure ()) w

theorem write_nests (item : Nat) (value : Value) : (write call item value).Keeps nesting := by
  refine keeps_get_bind fun w => (enter_nests hc _ _ _).bind (fun pass => ?_) w
  refine Keeps.ensure ?_ (leave_nests hc pass)
  split
  · exact storeValue_nests hc item _
  · exact keeps_get_bind fun w => (notice_nests _).bind (fun _ => record_nests _) w

theorem readWithin_nests (item retries : Nat) :
    (readWithin call item retries).Keeps nesting := by
  have refused {β : Type} (p : Pass) (n : Notice) (r : β) : (leave call p >>= fun _ =>
      notice n >>= fun _ => record (.concluded item p.access .refused) >>= fun _ =>
        pure r).Keeps nesting :=
    (leave_nests hc p).bind fun _ => (notice_nests n).bind fun _ => (record_nests _).bind fun _ =>
      keeps_pure r
  have returned {β : Type} (p : Pass) (n : Nat) (r : β) : (leave call p >>= fun _ =>
      record (.concluded item p.access (.returned n)) >>= fun _ => pure r).Keeps nesting :=
    (leave_nests hc p).bind fun _ => (record_nests _).bind fun _ => keeps_pure r
  induction retries with
  | zero =>
    unfold readWithin
    refine keeps_get_bind fun w => (enter_nests hc _ _ _).bind (fun p =>
      keeps_get_bind fun v => ?_) w
    split
    · exact refused p _ _ v
    · exact returned p _ _ v
  | succ retries ih =>
    unfold readWithin
    refine keeps_get_bind fun w => (enter_nests hc _ _ _).bind (fun p =>
      keeps_get_bind fun v => ?_) w
    split
    · exact refused p _ _ v
    · dsimp only
      split
      · exact (notice_nests _).bind (fun _ => (record_nests _).bind fun _ =>
          (leave_nests hc p).bind fun _ => ih) v
      · exact returned p _ _ v

theorem read_nests (item : Nat) : (read call item).Keeps nesting :=
  readWithin_nests hc item _

end GuardedStore.Engine
