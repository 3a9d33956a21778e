import Mathlib.Data.List.Dedup
import SocialActivities.Messaging.Pairs

/-!
# `SocialActivities.Messaging.GoBasis`: one cohort and one guardian basis (Go)

`Walled` says that whoever has a seat in a conversation is in its cohort, and that every observer
has a child who is active there. Six services change what it relates: who is seated, the cohorts
and the links.

`ObservedBut X` is the part about observers, for the conversations outside `X`. A transaction that
ends a seat, a link or an account first leaves the basis open in some conversations, and then prunes
these: `observedBut_pruneObservers` closes one of them, and `observed_evictParticipation` all. The
second one asks for less than the first, and is right only because no child has a row with the role
`guardian` (`Fits`).

`walled_run` is the statement about runs. `Start` revives the rows of a direct chat whatever its
cohort and their roles, and the upsert of `AddParticipant` keeps the role of the row. In a run that
does neither to the wrong rows (`Guarded`) every state is walled (`grown_seated` breaks it).
-/

namespace SocialActivities.Messaging.Go

open Lib
open Social (Cohort)
open Social.Go (Actor)

/-- A child of the guardian is active in the conversation, and not as a guardian. -/
def Based (s : State) (c guardian : Nat) : Prop :=
  ∃ w q, s.chats.participants.get? (c, w) = some q ∧ q.isActive = true ∧ q.role ≠ .guardian ∧
    s.accounts.cohortOf w = some .child ∧ s.accounts.isLinked guardian w = true

/-- Every observer of a conversation outside `X` has a basis there. -/
def ObservedBut (X : Nat → Prop) (s : State) : Prop :=
  ∀ c g p, ¬X c → s.chats.participants.get? (c, g) = some p → p.isObserver = true → Based s c g

/-- Whoever has a seat is in the cohort of the conversation, unless as a guardian. -/
def CohortsMatch (s : State) : Prop :=
  ∀ c u p, s.chats.participants.get? (c, u) = some p → p.isSeated = true → p.role ≠ .guardian →
    ∃ n, s.chats.natureOf c = some n ∧ s.accounts.cohortOf u = some n.2

/-- The rosters stay inside one cohort and one guardian basis. -/
structure Walled (s : State) : Prop where
  cohorts : CohortsMatch s
  observers : ObservedBut (fun _ => False) s

/-- What the cohorts and the roles say at all times. -/
structure Fits (s : State) : Prop where
  sound : s.chats.Sound
  assigned : ∀ c n, s.chats.natureOf c = some n → n.2 ≠ .unassigned
  cohorts : CohortsMatch s
  adults : ∀ c g p, s.chats.participants.get? (c, g) = some p → p.isSeated = true →
    p.role = .guardian → p.isActive = true ∧ s.accounts.cohortOf g = some .adult

/-- No start or add that succeeds seats a row with the role `guardian`, and no start revives a row of
a chat that is not in the starter's cohort. -/
structure Guarded (cfg : Config) (s : State) (act : Act) : Prop where
  start : ∀ a b found, Revives cfg s act a b found →
    ∀ key p, s.chats.participants.get? key = some p → s.revived found a.id b.id key p = true →
      p.role ≠ .guardian ∧ ∃ k, s.chats.natureOf found = some (k, a.user.cohort)
  add : ∀ x u c username b p, act = .addParticipant x u c username →
    (s.addParticipant x cfg u c username).isOk = true → s.target username = .ok b →
      s.chats.participants.get? (c, b.id) = some p → p.isSeated = false → p.role ≠ .guardian

section
variable {cfg : Config} {s t : State} {act : Act} {x : Reads} {a b : Actor} {c u g : Nat}
  {p : Participant} {X Y : Nat → Prop}

theorem isSeated_of_isObserver (h : p.isObserver = true) :
    p.isSeated = true ∧ p.role = .guardian := by
  unfold Participant.isObserver at h
  rw [Bool.and_eq_true, beq_iff_eq] at h
  exact ⟨Participant.isSeated_of_isActive h.2, h.1⟩

theorem ObservedBut.mono (h : ObservedBut X s) (hXY : ∀ c, X c → Y c) : ObservedBut Y s :=
  fun c g p hc => h c g p fun hx => hc (hXY c hx)

/-! ### Pruning -/

theorem based_of_hasWard (h : s.hasWard c g = true) : Based s c g := by
  obtain ⟨⟨d, w⟩, q, hq, hfound⟩ := KeyMap.anyRow_eq_true.mp h
  simp only [Bool.and_eq_true, beq_iff_eq, bne_iff_ne] at hfound
  obtain ⟨⟨⟨⟨rfl, hactive⟩, hrole⟩, hchild⟩, hlink⟩ := hfound
  refine ⟨w, q, hq, hactive, hrole, ?_, hlink⟩
  -- The account is an active one of a child.
  unfold State.isActiveChild at hchild
  obtain ⟨account, haccount, hcohort⟩ := (Option.any_eq_true _ _).mp hchild
  rw [Bool.and_eq_true, beq_iff_eq] at hcohort
  show (s.accounts.accounts.get? w).map _ = some Cohort.child
  rw [haccount]
  exact congrArg some hcohort.1

theorem Fits.based_of_hasWardRow (hs : Fits s) (h : s.hasWardRow c g = true) : Based s c g := by
  obtain ⟨⟨d, w⟩, q, hq, hfound⟩ := KeyMap.anyRow_eq_true.mp h
  simp only [Bool.and_eq_true, beq_iff_eq] at hfound
  obtain ⟨⟨⟨rfl, hactive⟩, hlink⟩, hchild⟩ := hfound
  refine ⟨w, q, hq, hactive, fun hrole => ?_, hchild, hlink⟩
  have hadult := (hs.adults d w q hq (Participant.isSeated_of_isActive hactive) hrole).2
  rw [hchild] at hadult
  cases hadult

theorem Based.mark {selected : Nat × Nat → Participant → Bool} {state : PartState}
    (hselected : ∀ key p, selected key p = true → p.role = .guardian) (h : Based s c g) :
    Based { s with chats := s.chats.mark selected state } c g := by
  obtain ⟨w, q, hq, hactive, hrole, hchild, hlink⟩ := h
  refine ⟨w, q, ?_, hactive, hrole, hchild, hlink⟩
  show (s.chats.mark selected state).participants.get? (c, w) = some q
  rw [Chats.get?_mark, hq]
  cases hsel : selected (c, w) q with
  | true => exact absurd (hselected _ q hsel) hrole
  | false => simp [hsel]

/-- An observer who is left by an update that ends observers was one before, and was not
selected. -/
theorem observer_of_mark {selected : Nat × Nat → Participant → Bool} {key : Nat × Nat}
    (h : (s.chats.mark selected .removed).participants.get? key = some p)
    (hobserver : p.isObserver = true) :
    s.chats.participants.get? key = some p ∧ selected key p = false := by
  rw [Chats.get?_mark] at h
  obtain ⟨old, hold, rfl⟩ := Option.map_eq_some_iff.mp h
  cases hsel : selected key old with
  | true =>
    rw [hsel] at hobserver
    simp [Participant.isObserver] at hobserver
  | false =>
    refine ⟨?_, ?_⟩
    · simpa using hold
    · simp [hsel]

theorem observedBut_pruneObservers (h : ObservedBut (fun d => d = c ∨ X d) s) :
    ObservedBut X (s.pruneObservers c) := by
  have hguardians : ∀ (key : Nat × Nat) (p : Participant),
      (key.1 == c && p.isObserver && !s.hasWard c key.2) = true → p.role = .guardian := by
    intro key p hsel
    simp only [Bool.and_eq_true] at hsel
    exact (isSeated_of_isObserver hsel.1.2).2
  intro d g p hd hp hobserver
  obtain ⟨hold, hkept⟩ := observer_of_mark hp hobserver
  refine Based.mark hguardians ?_
  by_cases hdc : d = c
  · -- The row was not selected, so the guardian has a ward here.
    subst hdc
    rw [hobserver, beq_self_eq_true] at hkept
    exact based_of_hasWard (by simpa using hkept)
  · exact h d g p (by simp [hdc, hd]) hold hobserver

theorem observedBut_pruneEach {ids : List Nat} (h : ObservedBut (fun d => d ∈ ids ∨ X d) s) :
    ObservedBut X (s.pruneEach ids) := by
  induction ids generalizing s with
  | nil => exact h.mono fun d hd => hd.resolve_left (by simp)
  | cons c ids ih =>
    refine ih (observedBut_pruneObservers (h.mono fun d hd => ?_))
    simpa [or_assoc] using hd

theorem observed_pruneAll (hs : Fits s) : ObservedBut X s.pruneAll := by
  intro d g p _ hp hobserver
  obtain ⟨-, hkept⟩ := observer_of_mark hp hobserver
  rw [hobserver] at hkept
  refine Based.mark (fun key q hsel => ?_) (hs.based_of_hasWardRow (by simpa using hkept))
  rw [Bool.and_eq_true] at hsel
  exact (isSeated_of_isObserver hsel.1).2

/-! ### The cohorts -/

theorem Fits.shrinks (hs : Fits s) (h : s.chats.Shrinks t.chats)
    (hcohorts : ∀ c u p k, t.chats.participants.get? (c, u) = some p → p.isSeated = true →
      s.accounts.cohortOf u = some k → t.accounts.cohortOf u = some k) : Fits t := by
  -- A seat after the writes was one before, in the same state.
  have hseat : ∀ c u p, t.chats.participants.get? (c, u) = some p → p.isSeated = true →
      ∃ old, s.chats.participants.get? (c, u) = some old ∧ p.role = old.role ∧
        old.isSeated = true ∧ p.isActive = old.isActive := by
    intro c u p hp hseated
    obtain ⟨old, hold, hrole, hstate⟩ := h.rows (c, u) p hp
    have hsame : p.state = old.state := hstate.resolve_right (by simp [hseated])
    refine ⟨old, hold, hrole, ?_, ?_⟩
    · show (old.state == .active || old.state == .invited) = true
      rw [← hsame]
      exact hseated
    · show (p.state == .active) = (old.state == .active)
      rw [hsame]
  constructor
  · exact hs.sound.follows h.follows
  · intro c n hn
    rw [h.nature] at hn
    exact hs.assigned c n hn
  · intro c u p hp hseated hrole
    obtain ⟨old, hold, hsame, holdseat, -⟩ := hseat c u p hp hseated
    obtain ⟨n, hn, hcohort⟩ := hs.cohorts c u old hold holdseat (hsame ▸ hrole)
    exact ⟨n, (h.nature c).trans hn, hcohorts c u p _ hp hseated hcohort⟩
  · intro c g p hp hseated hrole
    obtain ⟨old, hold, hsame, holdseat, hactive⟩ := hseat c g p hp hseated
    obtain ⟨holdactive, hadult⟩ := hs.adults c g old hold holdseat (hsame ▸ hrole)
    exact ⟨hactive.trans holdactive, hcohorts c g p _ hp hseated hadult⟩

theorem Fits.removeSeats (hs : Fits s) (u : Nat) : Fits (s.removeSeats u) :=
  hs.shrinks (shrinks_removeSeats s u) fun _ _ _ _ _ _ h => h

theorem Fits.pruneEach (hs : Fits s) (ids : List Nat) : Fits (s.pruneEach ids) := by
  refine hs.shrinks (shrinks_pruneEach s ids) fun c u p k _ _ hu => ?_
  rw [accounts_pruneEach]
  exact hu

theorem Fits.removeUser (hs : Fits s) (u : Nat) : Fits (s.removeUser u) :=
  (hs.removeSeats u).pruneEach _

theorem Fits.evictParticipation (hs : Fits s) (u : Nat) : Fits (s.evictParticipation u) :=
  hs.shrinks (shrinks_evictParticipation s u) fun _ _ _ _ _ _ h => h

theorem observed_evictParticipation (hs : Fits s) (u : Nat) :
    ObservedBut X (s.evictParticipation u) :=
  observed_pruneAll (hs.removeSeats u)

theorem not_isSeated_removeSeats (h : (s.removeSeats u).chats.participants.get? (c, u) = some p) :
    p.isSeated = false := by
  have hp : (s.chats.mark _ .removed).participants.get? (c, u) = some p := h
  rw [Chats.get?_mark] at hp
  obtain ⟨old, -, rfl⟩ := Option.map_eq_some_iff.mp hp
  cases hseated : old.isSeated with
  | true => simp [Participant.isSeated]
  | false => simp [hseated]

theorem not_isSeated_evictParticipation
    (h : (s.evictParticipation u).chats.participants.get? (c, u) = some p) :
    p.isSeated = false := by
  have hp : ((s.removeSeats u).chats.mark _ .removed).participants.get? (c, u) = some p := h
  rw [Chats.get?_mark] at hp
  obtain ⟨old, hold, rfl⟩ := Option.map_eq_some_iff.mp hp
  have hout := not_isSeated_removeSeats hold
  split
  · rfl
  · exact hout

/-! ### What ends a seat or a link -/

theorem Based.of (h : Based s c g) (hkept : ∀ w q, s.chats.participants.get? (c, w) = some q →
    q.isActive = true → s.accounts.cohortOf w = some .child → s.accounts.isLinked g w = true →
      t.chats.participants.get? (c, w) = some q ∧ t.accounts.cohortOf w = some .child ∧
        t.accounts.isLinked g w = true) : Based t c g := by
  obtain ⟨w, q, hq, hactive, hrole, hchild, hlink⟩ := h
  obtain ⟨hq', hchild', hlink'⟩ := hkept w q hq hactive hchild hlink
  exact ⟨w, q, hq', hactive, hrole, hchild', hlink'⟩

theorem mem_seatsOf : c ∈ s.seatsOf u ↔
    ∃ p, s.chats.participants.get? (c, u) = some p ∧ p.isSeated = true := by
  unfold State.seatsOf
  rw [List.mem_map]
  constructor
  · intro ⟨key, hkey, hc⟩
    obtain ⟨p, hp, hfound⟩ := KeyMap.mem_keysWhere.mp hkey
    rw [Bool.and_eq_true, beq_iff_eq] at hfound
    have heq : key = (c, u) := Prod.ext hc hfound.1
    exact ⟨p, heq ▸ hp, hfound.2⟩
  · intro ⟨p, hp, hseated⟩
    exact ⟨(c, u), KeyMap.mem_keysWhere.mpr ⟨p, hp, by simp [hseated]⟩, rfl⟩

theorem observedBut_removeSeats (h : ObservedBut (fun _ => False) s) (u : Nat) :
    ObservedBut (fun d => d ∈ s.seatsOf u ∨ False) (s.removeSeats u) := by
  intro d g p hd hp hobserver
  obtain ⟨hold, -⟩ := observer_of_mark hp hobserver
  refine (h d g p id hold hobserver).of fun w q hq hactive hchild hlink => ⟨?_, hchild, hlink⟩
  have hw : w ≠ u := by
    rintro rfl
    exact hd (Or.inl (mem_seatsOf.mpr ⟨q, hq, Participant.isSeated_of_isActive hactive⟩))
  show (s.chats.mark _ _).participants.get? (d, w) = some q
  rw [Chats.get?_mark, hq]
  simp [hw]

theorem observed_removeUser (h : ObservedBut (fun _ => False) s) (u : Nat) :
    ObservedBut (fun _ => False) (s.removeUser u) :=
  observedBut_pruneEach (observedBut_removeSeats h u)

theorem observed_depart (h : ObservedBut (fun _ => False) s) (p : Participant) :
    ObservedBut (fun _ => False)
      ({ s with chats := s.chats.put c u p }.pruneObservers c) := by
  have hother : ∀ d w, d ≠ c → (s.chats.put c u p).participants.get? (d, w) =
      s.chats.participants.get? (d, w) := by
    intro d w hd
    rw [Chats.get?_put, if_neg fun hkey => hd (congrArg Prod.fst hkey)]
  refine observedBut_pruneObservers fun d g q hd hq hobserver => ?_
  have hdc : d ≠ c := fun hc => hd (Or.inl hc)
  have hq' : (s.chats.put c u p).participants.get? (d, g) = some q := hq
  rw [hother d g hdc] at hq'
  refine (h d g q id hq' hobserver).of fun w r hr _ hchild hlink => ⟨?_, hchild, hlink⟩
  exact (hother d w hdc).trans hr

theorem mem_activeIn {ward : Nat} : c ∈ s.activeIn g ward ↔
    ∃ v p, (v = g ∨ v = ward) ∧ s.chats.participants.get? (c, v) = some p ∧
      p.isActive = true := by
  unfold State.activeIn
  rw [List.mem_dedup, List.mem_map]
  constructor
  · intro ⟨key, hkey, hc⟩
    obtain ⟨p, hp, hfound⟩ := KeyMap.mem_keysWhere.mp hkey
    rw [Bool.and_eq_true, Bool.or_eq_true, beq_iff_eq, beq_iff_eq] at hfound
    have heq : key = (c, key.2) := Prod.ext hc rfl
    exact ⟨key.2, p, hfound.1, heq ▸ hp, hfound.2⟩
  · intro ⟨v, p, hv, hp, hactive⟩
    exact ⟨(c, v), KeyMap.mem_keysWhere.mpr ⟨p, hp, by simp [hactive, hv]⟩, rfl⟩

theorem isLinked_revokeLinks {r : Guardians.Go.State} {revoked : Nat × Nat → Bool} {w : Nat}
    (hkept : revoked (g, w) = false) (h : r.isLinked g w = true) :
    (r.revokeLinks revoked).isLinked g w = true := by
  show ((r.links.mapRows _).get? (g, w)).any _ = true
  rw [KeyMap.get?_mapRows]
  obtain ⟨l, hl, hactive⟩ := (Option.any_eq_true _ _).mp h
  rw [hl]
  simpa [hkept] using hactive

theorem observed_revokeLink (h : ObservedBut (fun _ => False) s) (u ward : Nat) :
    ObservedBut (fun _ => False) (s.revokeLink u ward) := by
  refine observedBut_pruneEach fun d g p hd hp hobserver => ?_
  have hg : g ≠ u := by
    rintro rfl
    have hactive : p.isActive = true := by
      unfold Participant.isObserver at hobserver
      rw [Bool.and_eq_true] at hobserver
      exact hobserver.2
    exact hd (Or.inl (mem_activeIn.mpr ⟨g, p, Or.inl rfl, hp, hactive⟩))
  refine (h d g p id hp hobserver).of fun w q hq _ hchild hlink => ⟨hq, hchild, ?_⟩
  exact isLinked_revokeLinks (r := s.accounts) (by simp [hg]) hlink

/-! ### Re-verification and erasure -/

theorem Fits.not_isSeated (hs : Fits s) (hu : s.accounts.cohortOf u = some .unassigned)
    (hp : s.chats.participants.get? (c, u) = some p) : p.isSeated = false := by
  cases hseated : p.isSeated with
  | false => rfl
  | true =>
    exfalso
    by_cases hrole : p.role = .guardian
    · have hadult := (hs.adults c u p hp hseated hrole).2
      rw [hu] at hadult
      cases hadult
    · obtain ⟨n, hn, hcohort⟩ := hs.cohorts c u p hp hseated hrole
      rw [hu] at hcohort
      exact hs.assigned c n hn (Option.some.inj hcohort).symm

/-- The cohort of a user changes who has no seat, or it stays what it is. -/
theorem cohortOf_setAge_of (age : Social.Go.AgeBand × Cohort)
    (hquiet : (∀ c p, s.chats.participants.get? (c, u) = some p → p.isSeated = false) ∨
      s.accounts.cohortOf u = some age.2) {w : Nat} {k : Cohort}
    (hp : s.chats.participants.get? (c, w) = some p) (hseated : p.isSeated = true)
    (hw : s.accounts.cohortOf w = some k) : (s.accounts.setAge u age).cohortOf w = some k := by
  rw [Guardians.Go.cohortOf_setAge]
  split
  · rename_i hwu
    obtain ⟨rfl, -⟩ := hwu
    rcases hquiet with hnone | hsame
    · rw [hnone c p hp] at hseated
      cases hseated
    · exact hsame.symm.trans hw
  · exact hw

/-- The update of the account keeps the walls, if it changes the cohort of nobody with a seat. -/
theorem walls_setAge (hs : Fits s) (h : ObservedBut (fun _ => False) s)
    (age : Social.Go.AgeBand × Cohort)
    (hquiet : (∀ c p, s.chats.participants.get? (c, u) = some p → p.isSeated = false) ∨
      s.accounts.cohortOf u = some age.2) :
    Fits ⟨s.accounts.setAge u age, s.chats⟩ ∧
      ObservedBut (fun _ => False) ⟨s.accounts.setAge u age, s.chats⟩ := by
  constructor
  · exact hs.shrinks (Chats.Shrinks.refl _) fun c w p k hp hseated hw =>
      cohortOf_setAge_of age hquiet hp hseated hw
  · intro d g p _ hp hobserver
    refine (h d g p id hp hobserver).of fun w q hq hactive hchild hlink => ⟨hq, ?_, ?_⟩
    · exact cohortOf_setAge_of age hquiet hq (Participant.isSeated_of_isActive hactive) hchild
    · show ((s.accounts.setAge u age).links.get? _).any _ = true
      rw [(Guardians.Go.setAge_rows _ _ _).1]
      exact hlink

theorem walls_revokeAdultWard (hs : Fits s) (h : ObservedBut (fun _ => False) s)
    (hu : s.accounts.cohortOf u ≠ some .child) :
    Fits ⟨s.accounts.revokeAdultWard u, s.chats⟩ ∧
      ObservedBut (fun _ => False) ⟨s.accounts.revokeAdultWard u, s.chats⟩ := by
  constructor
  · exact hs.shrinks (Chats.Shrinks.refl _) fun _ _ _ _ _ _ hw => hw
  · intro d g p _ hp hobserver
    refine (h d g p id hp hobserver).of fun w q hq _ hchild hlink => ⟨hq, hchild, ?_⟩
    have hw : w ≠ u := by
      rintro rfl
      exact hu hchild
    exact isLinked_revokeLinks
      (r := s.accounts.revokeConsents fun k => k.minor == u) (by simp [hw]) hlink

theorem walls_verify (hs : Fits s) (h : ObservedBut (fun _ => False) s)
    (hfresh : s.accounts.actor a.id = .ok a) (age : Social.Go.AgeBand × Cohort) :
    Fits (s.setAge a age) ∧ ObservedBut (fun _ => False) (s.setAge a age) := by
  have hcohort := cohortOf_actor hfresh
  -- The revocation changes no cohort, so an eviction sees the rows that it would see without it.
  have hrevoked : Fits ⟨s.accounts.revokeAdultWard a.id, s.chats⟩ :=
    hs.shrinks (Chats.Shrinks.refl _) fun _ _ _ _ _ _ hw => hw
  unfold State.setAge
  dsimp only
  by_cases hmoves : a.user.cohort ≠ age.2 ∧ a.user.cohort ≠ .unassigned
  · simp only [if_pos hmoves]
    split
    · exact walls_setAge (hrevoked.evictParticipation a.id)
        (observed_evictParticipation hrevoked a.id) age
        (Or.inl fun c p hp => not_isSeated_evictParticipation hp)
    · exact walls_setAge (hs.evictParticipation a.id) (observed_evictParticipation hs a.id) age
        (Or.inl fun c p hp => not_isSeated_evictParticipation hp)
  · simp only [if_neg hmoves]
    have hquiet : (∀ c p, s.chats.participants.get? (c, a.id) = some p → p.isSeated = false) ∨
        s.accounts.cohortOf a.id = some age.2 := by
      by_cases hsame : a.user.cohort = age.2
      · exact Or.inr (hsame ▸ hcohort)
      · have hnone : a.user.cohort = .unassigned := by
          by_contra hassigned
          exact hmoves ⟨hsame, hassigned⟩
        exact Or.inl fun c p hp => hs.not_isSeated (hnone ▸ hcohort) hp
    split
    · rename_i hadult
      have hnochild : s.accounts.cohortOf a.id ≠ some .child := by
        rw [hcohort]
        intro hchild
        have hchild' : a.user.cohort = .child := Option.some.inj hchild
        exact hmoves ⟨by rw [hchild', hadult]; decide, by rw [hchild']; decide⟩
      obtain ⟨hfits, hobserved⟩ := walls_revokeAdultWard hs h hnochild
      exact walls_setAge hfits hobserved age hquiet
    · exact walls_setAge hs h age hquiet

theorem fits_evictWards {wards : List Nat} (hs : Fits s)
    (h : State.evictWards x wards s = .ok t) : Fits t := by
  induction wards generalizing s with
  | nil =>
    cases h
    exact hs
  | cons ward wards ih =>
    unfold State.evictWards at h
    rw [bind_eq_ok] at h
    obtain ⟨w, -, h⟩ := h
    split at h
    · exact ih hs h
    · exact ih (hs.evictParticipation ward) h

theorem walls_deleteAccount (hs : Fits s) (h : ObservedBut (fun _ => False) s)
    (hout : ∀ c p, s.chats.participants.get? (c, u) = some p → p.isSeated = false) :
    Fits (s.deleteAccount u) ∧ ObservedBut (fun _ => False) (s.deleteAccount u) := by
  have hcohort : ∀ w k, w ≠ u → s.accounts.cohortOf w = some k →
      (s.deleteAccount u).accounts.cohortOf w = some k := by
    intro w k hw hk
    show ((s.accounts.accounts.removeIf fun id _ => id == u).get? w).map _ = some k
    rw [KeyMap.get?_removeIf]
    obtain ⟨account, haccount, hcohort⟩ := Option.map_eq_some_iff.mp hk
    rw [haccount, Option.filter_some, if_pos (by simpa using hw)]
    exact congrArg some hcohort
  constructor
  · refine hs.shrinks (Chats.Shrinks.erase _ u) fun c w p k hp _ hw => hcohort w k ?_ hw
    exact (Chats.get?_erase hp).1
  · intro d g p _ hp hobserver
    obtain ⟨hg, old, hold, hstate, hrole⟩ := Chats.get?_erase hp
    have hobserver' : old.isObserver = true := by
      unfold Participant.isObserver at hobserver ⊢
      rw [← hstate, ← hrole]
      exact hobserver
    obtain ⟨w, q, hq, hactive, hguardian, hchild, hlink⟩ := h d g old id hold hobserver'
    have hw : w ≠ u := by
      rintro rfl
      have hnone := hout d q hq
      rw [Participant.isSeated_of_isActive hactive] at hnone
      cases hnone
    obtain ⟨q', hq', hstate', hrole'⟩ := Chats.get?_erase_of_ne (u := u) hw hq
    refine ⟨w, q', hq', ?_, hrole' ▸ hguardian, hcohort w _ hw hchild, ?_⟩
    · show (q'.state == .active) = true
      rw [hstate']
      exact hactive
    · show ((s.accounts.links.removeIf fun pair _ => pair.1 == u || pair.2 == u).get? _).any _ =
        true
      rw [KeyMap.get?_removeIf]
      obtain ⟨l, hl, hactive'⟩ := (Option.any_eq_true _ _).mp hlink
      have hne : g ≠ u := hg
      rw [hl, Option.filter_some, if_pos (by simp [hne, hw])]
      exact hactive'

theorem Ends.walls (hs : Fits s) (h : ObservedBut (fun _ => False) s) (hends : Ends s act t) :
    Fits t ∧ ObservedBut (fun _ => False) t := by
  cases hends with
  | rest => exact ⟨hs, h⟩
  | accounts _ r hr =>
    refine ⟨hs.shrinks (Chats.Shrinks.refl _) fun _ w _ k _ _ hw => hr.cohorts w k hw,
      fun d g p _ hp hobserver => ?_⟩
    exact (h d g p id hp hobserver).of fun w q hq _ hchild hlink =>
      ⟨hq, hr.cohorts w _ hchild, hr.links g w hlink⟩
  | touch _ d now disappearing =>
    refine ⟨hs.shrinks (Chats.Shrinks.touch _ _ _ _) fun _ _ _ _ _ _ hw => hw,
      fun e g p _ hp hobserver => ?_⟩
    have hsame := Chats.participants_touch s.chats d disappearing now
    have hp' : (s.chats.touch d disappearing now).participants.get? (e, g) = some p := hp
    rw [hsame] at hp'
    refine (h e g p id hp' hobserver).of fun w q hq _ hchild hlink => ⟨?_, hchild, hlink⟩
    show (s.chats.touch d disappearing now).participants.get? (e, w) = some q
    rw [hsame]
    exact hq
  | depart _ d v p state hrow hout =>
    refine ⟨hs.shrinks (Ends.depart act d v p state hrow hout).shrinks
      fun _ _ _ _ _ _ hw => hw, observed_depart h _⟩
  | remove v =>
    exact ⟨hs.removeUser v, observed_removeUser h v⟩
  | revoke x v ward _ ht =>
    have hended : Fits (s.endLink v ward) :=
      hs.shrinks (Chats.Shrinks.refl _) fun _ _ _ _ _ _ hw => hw
    have hlink : Fits (s.revokeLink v ward) := hended.pruneEach _
    rcases ht with rfl | rfl
    · exact ⟨hlink, observed_revokeLink h v ward⟩
    · have hremoved := hlink.removeUser ward
      exact ⟨hremoved.evictParticipation ward, observed_evictParticipation hremoved ward⟩
  | withdraw x v ward =>
    have hconsents : Fits ⟨s.accounts.revokeConsents fun k => k.minor == ward, s.chats⟩ :=
      hs.shrinks (Chats.Shrinks.refl _) fun _ _ _ _ _ _ hw => hw
    exact ⟨hconsents.evictParticipation ward, observed_evictParticipation hconsents ward⟩
  | verify x a over16 over18 hfresh => exact walls_verify hs h hfresh _
  | erase x v w t' hwards =>
    have hstart : Fits (s.endGuardianships w) :=
      hs.shrinks (Chats.Shrinks.refl _) fun _ _ _ _ _ _ hw => hw
    have hevicted := fits_evictWards hstart hwards
    exact walls_deleteAccount (hevicted.evictParticipation w)
      (observed_evictParticipation hevicted w) fun c p hp => not_isSeated_evictParticipation hp

/-! ### What seats somebody -/

/-- A row is put where nobody was active: it fits, or it is the row of an observer with a ward. -/
theorem walls_put (hs : Fits s) (h : ObservedBut (fun _ => False) s) {q : Participant}
    (hsound : (s.chats.put c u q).Sound)
    (hquiet : (s.chats.participants.get? (c, u)).any Participant.isActive = false)
    (hfits : q.role ≠ .guardian →
      ∃ n, s.chats.natureOf c = some n ∧ s.accounts.cohortOf u = some n.2)
    (hguardian : q.role = .guardian → q.isActive = true ∧ s.accounts.cohortOf u = some .adult ∧
      s.hasWard c u = true) :
    Fits { s with chats := s.chats.put c u q } ∧
      ObservedBut (fun _ => False) { s with chats := s.chats.put c u q } := by
  refine ⟨⟨hsound, hs.assigned, ?_, ?_⟩, ?_⟩
  · intro d w r hr hseated hrole
    rcases KeyMap.of_get?_set hr with ⟨hkey, rfl⟩ | hr'
    · obtain ⟨rfl, rfl⟩ := Prod.mk.inj hkey
      exact hfits hrole
    · exact hs.cohorts d w r hr' hseated hrole
  · intro d w r hr hseated hrole
    rcases KeyMap.of_get?_set hr with ⟨hkey, rfl⟩ | hr'
    · obtain ⟨rfl, rfl⟩ := Prod.mk.inj hkey
      exact ⟨(hguardian hrole).1, (hguardian hrole).2.1⟩
    · exact hs.adults d w r hr' hseated hrole
  · intro d g r _ hr hobserver
    have hbased : Based s d g := by
      rcases KeyMap.of_get?_set hr with ⟨hkey, rfl⟩ | hr'
      · obtain ⟨rfl, rfl⟩ := Prod.mk.inj hkey
        exact based_of_hasWard (hguardian (isSeated_of_isObserver hobserver).2).2.2
      · exact h d g r id hr' hobserver
    refine hbased.of fun w r' hr' hactive hchild hlink => ⟨?_, hchild, hlink⟩
    -- The ward was active, and nobody was active where the row is put.
    have hne : (d, w) ≠ (c, u) := by
      intro hkey
      rw [← hkey, hr'] at hquiet
      rw [Option.any_some, hactive] at hquiet
      cases hquiet
    show (s.chats.put c u q).participants.get? (d, w) = some r'
    rw [Chats.get?_put, if_neg hne]
    exact hr'

theorem walls_revive (hs : Fits s) (h : ObservedBut (fun _ => False) s) {found : Nat}
    (hreuses : Reuses s x a b found)
    (hrevived : ∀ key p, s.chats.participants.get? key = some p →
      s.revived found a.id b.id key p = true →
        p.role ≠ .guardian ∧ ∃ k, s.chats.natureOf found = some (k, a.user.cohort)) :
    Fits (s.revive found a.id b.id) ∧ ObservedBut (fun _ => False) (s.revive found a.id b.id) := by
  -- A row afterwards was revived, or is as it was.
  have hrows : ∀ key p, (s.revive found a.id b.id).chats.participants.get? key = some p →
      s.chats.participants.get? key = some p ∨ ∃ old, s.chats.participants.get? key = some old ∧
        s.revived found a.id b.id key old = true ∧ p.role = old.role := by
    intro key p hp
    have hmap : (s.chats.participants.mapRows _).get? key = some p := hp
    rw [KeyMap.get?_mapRows] at hmap
    obtain ⟨old, hold, rfl⟩ := Option.map_eq_some_iff.mp hmap
    cases hsel : s.revived found a.id b.id key old with
    | false =>
      left
      simpa [hsel] using hold
    | true =>
      refine Or.inr ⟨old, hold, hsel, ?_⟩
      simp only [if_true]
      split <;> rfl
  refine ⟨⟨hs.sound.follows (follows_revive s found a.id b.id), hs.assigned, ?_, ?_⟩, ?_⟩
  · intro c u p hp hseated hrole
    rcases hrows (c, u) p hp with hsame | ⟨old, hold, hsel, -⟩
    · exact hs.cohorts c u p hsame hseated hrole
    · obtain ⟨-, k, hnature⟩ := hrevived _ old hold hsel
      unfold State.revived at hsel
      simp only [Bool.and_eq_true, Bool.or_eq_true, beq_iff_eq] at hsel
      obtain ⟨⟨⟨rfl, hpair⟩, -⟩, -⟩ := hsel
      refine ⟨_, hnature, ?_⟩
      rcases hpair with rfl | rfl
      · exact cohortOf_actor hreuses.fresh
      · exact (pair_spec hreuses.pair).2.2 ▸ cohortOf_actor hreuses.peer
  · intro c g p hp hseated hrole
    rcases hrows (c, g) p hp with hsame | ⟨old, hold, hsel, hsame⟩
    · exact hs.adults c g p hsame hseated hrole
    · exact absurd (hsame ▸ hrole) (hrevived _ old hold hsel).1
  · intro c g p _ hp hobserver
    have hbased : Based s c g := by
      rcases hrows (c, g) p hp with hsame | ⟨old, hold, hsel, hsame⟩
      · exact h c g p id hsame hobserver
      · have hrole := (isSeated_of_isObserver hobserver).2
        exact absurd (hsame ▸ hrole) (hrevived _ old hold hsel).1
    refine hbased.of fun w q hq hactive hchild hlink => ⟨?_, hchild, hlink⟩
    -- A row that is active is not revived.
    have hnot : s.revived found a.id b.id (c, w) q = false := by
      have hstate : q.state = .active := beq_iff_eq.mp hactive
      simp [State.revived, hstate]
    show (s.chats.participants.mapRows _).get? (c, w) = some q
    rw [KeyMap.get?_mapRows, hq]
    simp [hnot]

theorem walls_opening (hs : Fits s) (h : ObservedBut (fun _ => False) s) {kind : Kind}
    {targets : List Actor} (hopens : Opens cfg s x a kind targets) (text : String) (now : Nat)
    (hsound : (s.chats.start kind text a.user.cohort a.id (targets.map Actor.id) now).Sound) :
    Fits { s with
      chats := s.chats.start kind text a.user.cohort a.id (targets.map Actor.id) now } ∧
      ObservedBut (fun _ => False) { s with
        chats := s.chats.start kind text a.user.cohort a.id (targets.map Actor.id) now } := by
  have hrows : ∀ c u p, (s.chats.start kind text a.user.cohort a.id (targets.map Actor.id)
      now).participants.get? (c, u) = some p → (c ≠ s.chats.next ∧
        s.chats.participants.get? (c, u) = some p) ∨ (c = s.chats.next ∧ p.role ≠ .guardian ∧
          s.accounts.cohortOf u = some a.user.cohort) := by
    intro c u p hp
    by_cases hc : c = s.chats.next
    · right
      rw [hc] at hp
      rcases hs.sound.get?_start hp with ⟨hu, rfl⟩ | ⟨rfl, rfl⟩
      · obtain ⟨t, ht, rfl⟩ := List.mem_map.mp hu
        refine ⟨hc, PartRole.noConfusion, ?_⟩
        exact (pair_spec (hopens.allowed.pairs t ht)).2.2 ▸
          cohortOf_actor (hopens.allowed.fresh t ht)
      · exact ⟨hc, PartRole.noConfusion, cohortOf_actor hopens.fresh⟩
    · left
      rw [Chats.get?_start_of_ne _ _ _ _ _ _ _ hc] at hp
      exact ⟨hc, hp⟩
  have hassigned : a.user.cohort ≠ .unassigned := by
    obtain ⟨t, rest, htargets⟩ := List.exists_cons_of_ne_nil hopens.nonempty
    exact (pair_spec (hopens.allowed.pairs t (htargets ▸ List.mem_cons_self))).2.1
  refine ⟨⟨hsound, ?_, ?_, ?_⟩, ?_⟩
  · intro c n hn
    have hn' := (Chats.natureOf_start ..).symm.trans hn
    split at hn'
    · cases hn'
      exact hassigned
    · exact hs.assigned c n hn'
  · intro c u p hp hseated hrole
    show ∃ n, (s.chats.start kind text a.user.cohort a.id (targets.map Actor.id)
      now).natureOf c = some n ∧ s.accounts.cohortOf u = some n.2
    rw [Chats.natureOf_start]
    rcases hrows c u p hp with ⟨hc, hold⟩ | ⟨hc, -, hcohort⟩
    · rw [if_neg hc]
      exact hs.cohorts c u p hold hseated hrole
    · rw [if_pos hc]
      exact ⟨_, rfl, hcohort⟩
  · intro c g p hp hseated hrole
    rcases hrows c g p hp with ⟨-, hold⟩ | ⟨-, hnot, -⟩
    · exact hs.adults c g p hold hseated hrole
    · exact absurd hrole hnot
  · intro c g p _ hp hobserver
    rcases hrows c g p hp with ⟨hc, hold⟩ | ⟨-, hnot, -⟩
    · refine (h c g p id hold hobserver).of fun w q hq _ hchild hlink => ⟨?_, hchild, hlink⟩
      exact (Chats.get?_start_of_ne _ _ _ _ _ _ _ hc).trans hq
    · exact absurd (isSeated_of_isObserver hobserver).2 hnot

/-! ### Runs -/

theorem walls_step (hs : Fits s) (h : ObservedBut (fun _ => False) s) (hguard : Guarded cfg s act) :
    Fits (s.step cfg act) ∧ ObservedBut (fun _ => False) (s.step cfg act) := by
  have hsound : (s.step cfg act).chats.Sound := sound_step hs.sound act
  generalize ht : s.step cfg act = t at hsound
  have heffect : Effect cfg s act t := ht ▸ effect_step cfg s act
  cases heffect with
  | ends _ _ hends => exact hends.walls hs h
  | reuse _ a b found hrevives =>
    have hclear := hguard.start a b found hrevives
    obtain ⟨x, kind, names, title, t', -, -, hreuses, -⟩ := hrevives
    exact walls_revive hs h hreuses hclear
  | opening x a kindText names title kind targets text hopens =>
    exact walls_opening hs h hopens text x.env.now hsound
  | join x a c p kind hfresh hrow hinvited hnature =>
    -- An invited row is no guardian's, so the new seat is that of a member.
    have hrole : p.role ≠ .guardian := by
      intro hguardian
      have hseated : p.isSeated = true := by simp [Participant.isSeated, hinvited]
      have hactive := (hs.adults c a.id p hrow hseated hguardian).1
      rw [show p.isActive = (p.state == .active) from rfl, hinvited] at hactive
      cases hactive
    have hput : (s.chats.put c a.id { p with
        state := .active, joinedAt := some x.env.now }).Sound :=
      hs.sound.follows (Chats.Follows.put hrow rfl)
    have hquiet : (s.chats.participants.get? (c, a.id)).any Participant.isActive = false := by
      rw [hrow, Option.any_some]
      show (p.state == .active) = false
      rw [hinvited]
      rfl
    obtain ⟨hfits, hobserved⟩ := walls_put hs h hput hquiet
      (fun _ => ⟨_, hnature, cohortOf_actor hfresh⟩) fun hguardian => absurd hguardian hrole
    refine ⟨?_, observedBut_pruneObservers (hobserved.mono fun d hd => hd.elim)⟩
    exact hfits.shrinks (shrinks_pruneObservers _ c) fun _ _ _ _ _ _ hu => hu
  | add x a c username b htarget hgroup hassigned hout hroom hok =>
    have hrole := guardian_addedRow (v := a.id) hout fun p hp =>
      hguard.add x a.id c username b p rfl hok htarget hp
    have hquiet : (s.chats.participants.get? (c, b.id)).any Participant.isActive = false := by
      cases hrow : s.chats.participants.get? (c, b.id) with
      | none => rfl
      | some =>
        rw [hrow, Option.any_some] at hout
        rw [Option.any_some]
        by_contra hactive
        rw [Participant.isSeated_of_isActive (Bool.not_eq_false _ ▸ hactive)] at hout
        cases hout
    exact walls_put hs h hsound hquiet
      (fun _ => ⟨_, hgroup, cohortOf_actor (target_spec htarget)⟩)
      fun hguardian => absurd hguardian hrole
  | observe x u c heligible hout =>
    obtain ⟨hadult, -, hward⟩ := guardianEligible_spec heligible
    have hrow : (s.observerRow c u x.env.now).role = .guardian ∧
        (s.observerRow c u x.env.now).isActive = true := by
      unfold State.observerRow
      split <;> exact ⟨rfl, rfl⟩
    exact walls_put hs h hsound hout (fun hrole => absurd hrow.1 hrole) fun _ =>
      ⟨hrow.2, hadult, hward⟩

theorem walls_empty : Fits State.empty ∧ ObservedBut (fun _ => False) State.empty :=
  ⟨⟨Chats.sound_empty, fun _ _ h => (by cases h), fun _ _ _ h => (by cases h),
    fun _ _ _ h => (by cases h)⟩, fun _ _ _ _ h => (by cases h)⟩

/-- In a run whose steps all meet the guard, every state is walled. -/
theorem walled_run (cfg : Config) (acts : List Act)
    (hguard : ∀ q ∈ Machine.steps (State.step cfg) State.empty acts, Guarded cfg q.1 q.2) :
    ∀ before rest, acts = before ++ rest → Walled (after cfg before) := by
  intro before rest hacts
  have hwalls : Fits (after cfg before) ∧ ObservedBut (fun _ => False) (after cfg before) := by
    refine @Machine.run_guarded _ _ (State.step cfg)
      (fun s => Fits s ∧ ObservedBut (fun _ => False) s) (Guarded cfg)
      (fun s act hs hg => walls_step hs.1 hs.2 hg) _ walls_empty _ fun q hq => hguard q ?_
    rw [hacts, Machine.steps_append]
    exact List.mem_append_left _ hq
  exact ⟨hwalls.1.cohorts, hwalls.2⟩

theorem guarded_of (hstart : ∀ x u kind names title, act ≠ .start x u kind names title)
    (hadd : ∀ x u c username, act ≠ .addParticipant x u c username) : Guarded cfg s act := by
  constructor
  · intro a b found h
    obtain ⟨x, kind, names, title, t', hact, -⟩ := h
    exact absurd hact (hstart _ _ _ _ _)
  · intro x u c username b p hact
    exact absurd hact (hadd _ _ _ _)

end

/-- The two have no direct chat before, so the start meets the guard. -/
theorem walled_opened : Walled (after ⟨256⟩ opened) := by
  refine walled_run ⟨256⟩ opened ?_ opened [] (List.append_nil _).symm
  have hstart : Guarded ⟨256⟩ (after ⟨256⟩ (opened.take 4))
      (.start sampleReads 1 "direct" ["two"] "") := by
    constructor
    · intro a b found h
      obtain ⟨x, kind, names, title, t', hact, -, hreuses, -, hnames, -⟩ := h
      injection hact with _ hone _ htwo
      -- The other one is read by the username, and has no chat with the starter.
      have hb : b = ⟨2, ⟨.age1617, .teen, "user", true, true, false, false⟩⟩ := by
        have htarget := hnames "two" (htwo ▸ List.mem_singleton_self _)
        have hread : (after ⟨256⟩ (opened.take 4)).target "two" =
            .ok ⟨2, ⟨.age1617, .teen, "user", true, true, false, false⟩⟩ := by decide +kernel
        rw [hread] at htarget
        exact (Except.ok.inj htarget).symm
      have hnone : (after ⟨256⟩ (opened.take 4)).chats.directOf id 1 2 = none := by decide +kernel
      have hfound := hreuses.found
      rw [← hone, hb, hnone] at hfound
      cases hfound
    · intro x u c username b p hact
      cases hact
  simp only [opened, Machine.steps, List.forall_mem_cons]
  exact ⟨guarded_of (by simp) (by simp), guarded_of (by simp) (by simp),
    guarded_of (by simp) (by simp), guarded_of (by simp) (by simp), hstart,
    guarded_of (by simp) (by simp), fun q hq => (by cases hq)⟩

/-- The two come of age, and one of them starts the chat again. -/
def reseated : List Act := grown ++ [.start sampleReads 1 "direct" ["two"] ""]

/-- Two children leave their chat, and one of the guardians who observed it starts a chat with the
other. -/
def reobserved : List Act :=
  observed ++ [.transition sampleReads 3 1 .leave, .transition sampleReads 4 1 .leave,
    .start sampleReads 1 "direct" ["father"] ""]

/-- Two adults have seats in a teenagers' chat, and a guardian observes a chat without a ward. -/
theorem grown_seated : ¬Walled (after ⟨256⟩ reseated) ∧ ¬Walled (after ⟨256⟩ reobserved) := by
  constructor
  · intro hwalled
    have hrow : (after ⟨256⟩ reseated).chats.participants.get? (1, 1) =
        some ⟨.active, .admin, none, some 5⟩ := by decide +kernel
    have hteen : (after ⟨256⟩ reseated).chats.natureOf 1 = some (.direct, .teen) := by
      decide +kernel
    have hadult : (after ⟨256⟩ reseated).accounts.cohortOf 1 = some .adult := by decide +kernel
    obtain ⟨n, hn, hcohort⟩ := hwalled.cohorts 1 1 _ hrow rfl (by decide)
    rw [hteen] at hn
    cases hn
    rw [hadult] at hcohort
    cases hcohort
  · intro hwalled
    have hrow : (after ⟨256⟩ reobserved).chats.participants.get? (1, 1) =
        some ⟨.active, .guardian, none, some 5⟩ := by decide +kernel
    have hnone : (after ⟨256⟩ reobserved).hasWardRow 1 1 = false := by decide +kernel
    obtain ⟨w, q, hq, hactive, -, hchild, hlink⟩ := hwalled.observers 1 1 _ id hrow rfl
    -- A basis would show in the weaker query too.
    have hsome : (after ⟨256⟩ reobserved).hasWardRow 1 1 = true :=
      KeyMap.anyRow_eq_true.mpr ⟨(1, w), q, hq, by simp [hactive, hlink, hchild]⟩
    rw [hnone] at hsome
    cases hsome

end SocialActivities.Messaging.Go
