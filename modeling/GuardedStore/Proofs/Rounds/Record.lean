import GuardedStore.Proofs.Run.Standing

/-!
The rounds of a domain in a history.

A run takes the events that are queued and begins a round; each event is handed out in it when its
turn comes. A round is open until the delivery is over, which is when whoever was held for it is
released.
-/
namespace GuardedStore

namespace Happening

def requestTo? (d : Nat) : Happening → Option (Issuer × Event)
  | .requested issuer (some r) e => if r = d then some (issuer, e) else none
  | _ => none

def takenBy? (d : Nat) : Happening → Option (List Event)
  | .taken r events => if r = d then some events else none
  | _ => none

def handedBy? (d : Nat) : Happening → Option (Event × List Subscriber)
  | .handed r e subscribers => if r = d then some (e, subscribers) else none
  | _ => none

/-- A delivery of the domain is over. -/
def releases (d : Nat) : Happening → Bool
  | .released r _ => r = d
  | _ => false

/-- Whether a happening is about what is requested of a domain and what it delivers. -/
def ofDomain (d : Nat) : Happening → Bool
  | .requested _ (some r) _ | .taken r _ | .handed r _ _ | .released r _ => r = d
  | _ => false

end Happening

/-- What was requested of a domain and by whom, in order. -/
def requestsTo (d : Nat) (history : List Happening) : List (Issuer × Event) :=
  history.reverse.filterMap (Happening.requestTo? d)

/-- The queues that runs of a domain took, in order. -/
def takenBy (d : Nat) (history : List Happening) : List (List Event) :=
  history.reverse.filterMap (Happening.takenBy? d)

/-- The events that a domain handed out and whom to, in order. -/
def handedBy (d : Nat) (history : List Happening) : List (Event × List Subscriber) :=
  history.reverse.filterMap (Happening.handedBy? d)

/-- What became of a run. -/
structure Round where
  taken : List Event
  /-- The events handed out so far, in order, each with whom it was handed to. -/
  legs : List (Event × List Subscriber) := []
  deriving DecidableEq

namespace Round

/-- Whoever was notified, as often as that happened. -/
def notified (r : Round) : List Subscriber :=
  r.legs.flatMap (·.2)

/-- Whoever was notified, in the order in which they first were. -/
def woken (r : Round) : List Subscriber :=
  r.notified.eraseDups

def stats (r : Round) : RunStats :=
  { events := r.taken.length, notified := r.notified.length, executed := r.woken.length }

/-- All that was taken was handed out, in order. -/
def Complete (r : Round) : Prop :=
  r.legs.map (·.1) = r.taken

/-- What was handed out so far is the first part of what was taken, in order. -/
def Straight (r : Round) : Prop :=
  r.legs.map (·.1) <+: r.taken

def hand (legs : List (Event × List Subscriber)) (r : Round) : Round :=
  { r with legs := r.legs ++ legs }

theorem Complete.straight {r : Round} (h : r.Complete) : r.Straight :=
  ⟨[], by rw [List.append_nil, h]⟩

@[simp] theorem hand_nil (r : Round) : r.hand [] = r := by
  simp [hand]

theorem hand_hand (r : Round) (legs legs' : List (Event × List Subscriber)) :
    (r.hand legs).hand legs' = r.hand (legs ++ legs') := by
  simp [hand]

end Round

/-- The rounds of a domain, latest first. -/
def rounds (d : Nat) : List Happening → List Round
  | [] => []
  | .taken r events :: older => if r = d then ⟨events, []⟩ :: rounds d older else rounds d older
  | .handed r e subscribers :: older =>
    if r = d then (rounds d older).modifyHead (Round.hand [(e, subscribers)]) else rounds d older
  | _ :: older => rounds d older

/-- Whether a round is open. -/
def running (d : Nat) : List Happening → Bool
  | [] => false
  | .taken r events :: older => if r = d then !events.isEmpty else running d older
  | .released r _ :: older => if r = d then false else running d older
  | _ :: older => running d older

/-- No run of the domain was begun while another one was going on. -/
def Unnested (d : Nat) (history : List Happening) : Prop :=
  ∀ events older, .taken d events :: older <:+ history → running d older = false

/-- Neither a run of the domain nor a panic began while a run of it was going on. -/
structure Undisturbed (d : Nat) (history : List Happening) : Prop where
  unnested : Unnested d history
  raised : ∀ text older, .raised text :: older <:+ history → running d older = false

/-- Whether a happening, after an older history, is not a disturbance of a run. -/
def Happening.fits (d : Nat) (older : List Happening) : Happening → Bool
  | .taken r _ => r ≠ d || !running d older
  | .raised _ => !running d older
  | _ => true

theorem undisturbed_nil (d : Nat) : Undisturbed d [] :=
  ⟨fun _ _ hm => (nomatch List.suffix_nil.mp hm), fun _ _ hm => nomatch List.suffix_nil.mp hm⟩

theorem undisturbed_cons {d : Nat} {y : Happening} {h : List Happening} :
    Undisturbed d (y :: h) ↔ y.fits d h ∧ Undisturbed d h := by
  constructor
  · refine fun hu => ⟨?_, ⟨fun q older hm => hu.unnested q older (List.suffix_cons_iff.mpr (.inr hm)),
      fun text older hm => hu.raised text older (List.suffix_cons_iff.mpr (.inr hm))⟩⟩
    cases y with
    | taken r q =>
      by_cases hr : r = d
      · subst hr
        simp [Happening.fits, hu.unnested q h (List.suffix_refl _)]
      · simp [Happening.fits, hr]
    | raised text => simp [Happening.fits, hu.raised text h (List.suffix_refl _)]
    | _ => rfl
  · rintro ⟨hy, hu⟩
    constructor
    · intro q older hm
      rcases List.suffix_cons_iff.mp hm with hm | hm
      · obtain ⟨rfl, rfl⟩ := List.cons_eq_cons.mp hm
        simpa [Happening.fits] using hy
      · exact hu.unnested q older hm
    · intro text older hm
      rcases List.suffix_cons_iff.mp hm with hm | hm
      · obtain ⟨rfl, rfl⟩ := List.cons_eq_cons.mp hm
        simpa [Happening.fits] using hy
      · exact hu.raised text older hm

instance decidableUndisturbed (d : Nat) : (h : List Happening) → Decidable (Undisturbed d h)
  | [] => .isTrue (undisturbed_nil d)
  | _ :: h => @decidable_of_iff _ _ undisturbed_cons.symm
      (@instDecidableAnd _ _ _ (decidableUndisturbed d h))

/-- Without a run of its own a domain neither hands out events nor ends a delivery. -/
def Opened (d : Nat) (newer : List Happening) : Prop :=
  ∀ m, m <:+ newer → takenBy d m = [] → handedBy d m = [] ∧ ∀ y ∈ m, y.releases d = false

variable {d : Nat} {h newer : List Happening}

theorem requestsTo_append (d : Nat) (newer h : List Happening) :
    requestsTo d (newer ++ h) = requestsTo d h ++ requestsTo d newer := by
  simp [requestsTo]

theorem takenBy_append (d : Nat) (newer h : List Happening) :
    takenBy d (newer ++ h) = takenBy d h ++ takenBy d newer := by
  simp [takenBy]

theorem handedBy_append (d : Nat) (newer h : List Happening) :
    handedBy d (newer ++ h) = handedBy d h ++ handedBy d newer := by
  simp [handedBy]

theorem handedBy_cons (d : Nat) (y : Happening) (h : List Happening) :
    handedBy d (y :: h) = handedBy d h ++ (y.handedBy? d).toList := by
  rw [handedBy, List.reverse_cons, List.filterMap_append]
  cases hy : y.handedBy? d <;> simp [handedBy, hy]

/-- What a run takes and hands out, with the end of its delivery noted. -/
theorem takenBy_concluded (n : List Happening) (q : List Event) (held : List Subscriber)
    (notice : Notice) :
    takenBy d (.notice notice :: .released d held :: n ++ [.taken d q]) = q :: takenBy d n := by
  simp [takenBy, Happening.takenBy?]

theorem handedBy_concluded (n : List Happening) (q : List Event) (held : List Subscriber)
    (notice : Notice) :
    handedBy d (.notice notice :: .released d held :: n ++ [.taken d q]) = handedBy d n := by
  rw [handedBy_append, handedBy_cons, handedBy_cons]
  simp [handedBy, Happening.handedBy?]

/-- Neither a request nor a delivery of the domain is among the happenings. -/
structure Silent (d : Nat) (newer : List Happening) : Prop where
  requests : requestsTo d newer = []
  taken : takenBy d newer = []
  handed : handedBy d newer = []
  releases : ∀ y ∈ newer, y.releases d = false

theorem silent_of_ofDomain (hn : ∀ y ∈ newer, y.ofDomain d = false) : Silent d newer where
  requests := by
    refine List.filterMap_eq_nil_iff.mpr fun y hy => ?_
    have hy := hn y (List.mem_reverse.mp hy)
    cases y with
    | requested issuer r e =>
      cases r with
      | none => rfl
      | some r => exact if_neg (of_decide_eq_false hy)
    | _ => rfl
  taken := by
    refine List.filterMap_eq_nil_iff.mpr fun y hy => ?_
    have hy := hn y (List.mem_reverse.mp hy)
    cases y with
    | taken r q => exact if_neg (of_decide_eq_false hy)
    | _ => rfl
  handed := by
    refine List.filterMap_eq_nil_iff.mpr fun y hy => ?_
    have hy := hn y (List.mem_reverse.mp hy)
    cases y with
    | handed r e subscribers => exact if_neg (of_decide_eq_false hy)
    | _ => rfl
  releases y hy := by
    have hy := hn y hy
    cases y with
    | released r held => exact hy
    | _ => rfl

/-- A part of the end of a history reaches into its older half or is made up of all of it and a part
of the newer half. -/
theorem suffix_append_cases {α : Type} {m n n' : List α} (h : m <:+ n' ++ n) :
    m <:+ n ∨ ∃ k, k <:+ n' ∧ m = k ++ n := by
  obtain ⟨t, ht⟩ := h
  rcases List.append_eq_append_iff.mp ht with ⟨k, rfl, rfl⟩ | ⟨k, rfl, rfl⟩
  · exact .inr ⟨k, ⟨t, rfl⟩, rfl⟩
  · exact .inl ⟨k, rfl⟩

theorem Opened.append {n n' : List Happening} (h : Opened d n) (h' : Opened d n') :
    Opened d (n' ++ n) := by
  intro m hm ht
  rcases suffix_append_cases hm with hm | ⟨k, hk, rfl⟩
  · exact h m hm ht
  · rw [takenBy_append, List.append_eq_nil_iff] at ht
    obtain ⟨ho, hr⟩ := h n (List.suffix_refl n) ht.1
    obtain ⟨ho', hr'⟩ := h' k hk ht.2
    refine ⟨by rw [handedBy_append, ho, ho']; rfl, fun y hy => ?_⟩
    exact (List.mem_append.mp hy).elim (hr' y) (hr y)

theorem opened_of_ofDomain (hn : ∀ y ∈ newer, y.ofDomain d = false) : Opened d newer :=
  fun _ hm _ =>
    have hs := silent_of_ofDomain fun y hy => hn y (hm.subset hy)
    ⟨hs.handed, hs.releases⟩

theorem takenBy_taken_ne_nil (m : List Happening) (q : List Event) :
    takenBy d (m ++ [.taken d q]) ≠ [] := by
  simp [takenBy, Happening.takenBy?]

/-- After a run has begun nothing is handed out without one. -/
theorem opened_of_taken (m : List Happening) (q : List Event) : Opened d (m ++ [.taken d q]) := by
  intro k hk ht
  rcases suffix_append_cases hk with hk | ⟨k, -, rfl⟩
  · rcases List.suffix_cons_iff.mp hk with hk | hk
    · exact absurd (hk ▸ ht) (takenBy_taken_ne_nil [] q)
    · rw [List.suffix_nil.mp hk]
      exact ⟨rfl, fun y hy => absurd hy List.not_mem_nil⟩
  · exact absurd ht (takenBy_taken_ne_nil k q)

theorem takenBy_cons_eq_nil {y : Happening} (ht : takenBy d (y :: newer) = []) :
    y.takenBy? d = none ∧ takenBy d newer = [] := by
  rw [← List.singleton_append, takenBy_append, List.append_eq_nil_iff] at ht
  refine ⟨?_, ht.1⟩
  cases hy : y.takenBy? d with
  | none => rfl
  | some q => simp [takenBy, hy] at ht

/-- A round stays open until a delivery is over or a run is begun. -/
theorem running_append (ht : takenBy d newer = []) (hr : ∀ y ∈ newer, y.releases d = false)
    (h : List Happening) : running d (newer ++ h) = running d h := by
  induction newer with
  | nil => rfl
  | cons y newer ih =>
    obtain ⟨hy, ht⟩ := takenBy_cons_eq_nil ht
    have hry := hr y List.mem_cons_self
    rw [← ih ht fun z hz => hr z (List.mem_cons_of_mem y hz)]
    cases y with
    | taken r q => exact if_neg fun he => by simp [Happening.takenBy?, he] at hy
    | released r held => exact if_neg fun he => by simp [Happening.releases, he] at hry
    | _ => rfl

/-- Until a run is begun, what is handed out belongs to the latest round. -/
theorem rounds_append (ht : takenBy d newer = []) (h : List Happening) :
    rounds d (newer ++ h) = (rounds d h).modifyHead (Round.hand (handedBy d newer)) := by
  induction newer with
  | nil => cases hh : rounds d h <;> simp [handedBy, hh]
  | cons y newer ih =>
    obtain ⟨hy, ht⟩ := takenBy_cons_eq_nil ht
    replace ih := ih ht
    have hsame (hn : y.handedBy? d = none) (hs : rounds d (y :: (newer ++ h)) =
        rounds d (newer ++ h)) : rounds d (y :: newer ++ h) =
          (rounds d h).modifyHead (Round.hand (handedBy d (y :: newer))) := by
      rw [handedBy_cons, hn, Option.toList_none, List.append_nil, ← ih]
      exact hs
    cases y with
    | taken r q => exact hsame rfl (if_neg fun he => by simp [Happening.takenBy?, he] at hy)
    | handed r e subscribers =>
      by_cases hr : r = d
      · rw [handedBy_cons, List.cons_append, rounds, if_pos hr, ih]
        cases rounds d h <;> simp [Happening.handedBy?, hr, Round.hand_hand]
      · exact hsame (if_neg hr) (if_neg hr)
    | _ => exact hsame rfl rfl

/-- No run begins while a round is open that stays open until then. -/
theorem Unnested.takenBy_eq_nil (hu : Unnested d (newer ++ h)) (hr : running d h = true)
    (ho : ∀ m, m <:+ newer → takenBy d m = [] → ∀ y ∈ m, y.releases d = false) :
    takenBy d newer = [] := by
  induction newer with
  | nil => rfl
  | cons y newer ih =>
    have ht := ih (fun q older hm => hu q older (List.suffix_cons_iff.mpr (.inr hm)))
      fun m hm => ho m (List.suffix_cons_iff.mpr (.inr hm))
    have hopen := ho newer (List.suffix_cons y newer) ht
    cases hy : y.takenBy? d with
    | none => rw [← List.singleton_append, takenBy_append, ht]; simp [takenBy, hy]
    | some q =>
      cases y with
      | taken r q =>
        obtain ⟨rfl, -⟩ := Option.ite_none_right_eq_some.mp hy
        have := hu q (newer ++ h) (List.suffix_refl _)
        rw [running_append ht hopen, hr] at this
        cases this
      | _ => cases hy

theorem Unnested.of_suffix {h' : List Happening} (hu : Unnested d h') (hs : h <:+ h') :
    Unnested d h :=
  fun q older hm => hu q older (hm.trans hs)

theorem Undisturbed.of_suffix {h' : List Happening} (hu : Undisturbed d h') (hs : h <:+ h') :
    Undisturbed d h where
  unnested := hu.unnested.of_suffix hs
  raised text older hm := hu.raised text older (hm.trans hs)

/-- No panic begins while a round is open that stays open until then. -/
theorem Undisturbed.not_panicked (hu : Undisturbed d (newer ++ h)) (hr : running d h = true)
    (ht : takenBy d newer = []) (ho : ∀ y ∈ newer, y.releases d = false) : ¬ Panicked newer := by
  rintro ⟨text, hm⟩
  obtain ⟨n, m, rfl⟩ := List.append_of_mem hm
  have hs : .raised text :: (m ++ h) <:+ n ++ .raised text :: m ++ h := ⟨n, by simp⟩
  rw [takenBy_append, List.append_eq_nil_iff] at ht
  have hm := running_append (takenBy_cons_eq_nil ht.1).2
    (fun y hy => ho y (List.mem_append_right _ (List.mem_cons_of_mem _ hy))) h
  rw [hu.raised text _ hs, hr] at hm
  cases hm

end GuardedStore
