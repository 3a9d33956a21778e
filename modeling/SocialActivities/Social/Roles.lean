import SocialActivities.Social.GoAdmission
import SocialActivities.Social.PyCapacity

/-!
# `SocialActivities.Social.Roles`: owner and organizers over every run

The owner of an activity is stored twice: in `owner_id`, and as the role of a membership. An
organizer is the owner or a co-organizer. `RolesSound` is the agreement of the two, together with
what keeps an organizer role from coming back with a rejoin: a pending request has the plain role.

Most operations make no organizer. `RolesKept` says what they do to the rows: a row with an
organizer role was there before with this role, and is as it was, or removed. Only a grant and a
transfer write an organizer role, on the seat of a member, and they are dealt with on their own.
`organizer_roles` puts this together over every run of either program.
-/

namespace SocialActivities.Social

open Lib
open Lib.Machine (run steps)

/-- The role of the owner or of a co-organizer. -/
def Role.isOrganizer : Role → Bool
  | .owner | .coOrganizer => true
  | .member | .guardian => false

/-- The user is a member, in whatever role. -/
def State.isMember (s : State) (u : Nat) : Prop :=
  ∃ m, s.memberships.get? u = some m ∧ m.state = .member

/-- The roles of the memberships agree with the activity. -/
structure RolesSound (s : State) : Prop where
  owner : s.memberships.get? s.activity.owner = some ⟨.owner, .member⟩
  unique : ∀ u m, s.memberships.get? u = some m → m.role = .owner → u = s.activity.owner
  adult : ∀ u m, s.memberships.get? u = some m → m.role = .coOrganizer →
    s.activity.cohort = .adult
  requested : ∀ u m, s.memberships.get? u = some m → m.state = .requested → m.role = .member

theorem RolesSound.ne_owner {s : State} {u : Nat} (hs : RolesSound s)
    (hrow : s.memberships.get? u ≠ some ⟨.owner, .member⟩) : u ≠ s.activity.owner := by
  rintro rfl
  exact hrow hs.owner

theorem RolesSound.ne_owner_of_get? {s : State} {u : Nat} {m : Membership} (hs : RolesSound s)
    (hget : s.memberships.get? u = some m) (hm : m ≠ ⟨.owner, .member⟩) : u ≠ s.activity.owner :=
  hs.ne_owner fun hrow => hm (Option.some.inj (hget.symm.trans hrow))

theorem RolesSound.requestsPlain {s : State} (hs : RolesSound s) : s.RequestsPlain := by
  intro u m hm hstate hrole
  rw [hs.requested u m hm hstate] at hrole
  cases hrole

/-- Nobody gets an organizer role without having been a member. -/
def OrganizersSeated (s s' : State) : Prop :=
  ∀ u m, s'.memberships.get? u = some m → m.state = .member → m.role.isOrganizer = true →
    s.isMember u

/-! ### Writes that make no organizer -/

/-- What a write that makes no organizer keeps. -/
structure RolesKept (s s' : State) : Prop where
  owner : s'.activity.owner = s.activity.owner
  cohort : s'.activity.cohort = s.activity.cohort
  ownerRow : s'.memberships.get? s.activity.owner = s.memberships.get? s.activity.owner
  organizer : ∀ u m, s'.memberships.get? u = some m → m.role.isOrganizer = true →
    ∃ was, s.memberships.get? u = some was ∧ was.role = m.role ∧
      (m.state = was.state ∨ m.state = .removed)
  requested : (∀ u m, s.memberships.get? u = some m → m.state = .requested → m.role = .member) →
    ∀ u m, s'.memberships.get? u = some m → m.state = .requested → m.role = .member

namespace RolesKept

variable {s t r : State}

theorem refl (s : State) : RolesKept s s :=
  ⟨rfl, rfl, rfl, fun _ m h _ => ⟨m, h, rfl, Or.inl rfl⟩, id⟩

theorem trans (h : RolesKept s t) (h' : RolesKept t r) : RolesKept s r where
  owner := h'.owner.trans h.owner
  cohort := h'.cohort.trans h.cohort
  ownerRow := by
    have hrow := h'.ownerRow
    rw [h.owner] at hrow
    exact hrow.trans h.ownerRow
  organizer u m hm hrole := by
    obtain ⟨n, hn, hnrole, hnstate⟩ := h'.organizer u m hm hrole
    obtain ⟨was, hwas, hwasrole, hwasstate⟩ := h.organizer u n hn (hnrole ▸ hrole)
    refine ⟨was, hwas, hwasrole.trans hnrole, ?_⟩
    rcases hnstate with hnstate | hnstate
    · rw [hnstate]
      exact hwasstate
    · exact Or.inr hnstate
  requested hs := h'.requested (h.requested hs)

theorem sound (h : RolesKept s t) (hs : RolesSound s) : RolesSound t where
  owner := by
    rw [h.owner, h.ownerRow]
    exact hs.owner
  unique u m hm hrole := by
    obtain ⟨was, hwas, hwasrole, -⟩ := h.organizer u m hm (by rw [hrole]; rfl)
    rw [h.owner]
    exact hs.unique u was hwas (hwasrole.trans hrole)
  adult u m hm hrole := by
    obtain ⟨was, hwas, hwasrole, -⟩ := h.organizer u m hm (by rw [hrole]; rfl)
    rw [h.cohort]
    exact hs.adult u was hwas (hwasrole.trans hrole)
  requested := h.requested hs.requested

theorem seated (h : RolesKept s t) : OrganizersSeated s t := by
  intro u m hm hstate hrole
  obtain ⟨was, hwas, -, hwasstate⟩ := h.organizer u m hm hrole
  refine ⟨was, hwas, ?_⟩
  rcases hwasstate with heq | hremoved
  · exact heq.symm.trans hstate
  · rw [hremoved] at hstate
    cases hstate

theorem activity (v : Activity) (howner : v.owner = s.activity.owner)
    (hcohort : v.cohort = s.activity.cohort) : RolesKept s { s with activity := v } :=
  ⟨howner, hcohort, rfl, fun _ m h _ => ⟨m, h, rfl, Or.inl rfl⟩, id⟩

theorem votes (votes : KeyMap (Nat × Nat) Bool) : RolesKept s { s with votes } :=
  ⟨rfl, rfl, rfl, fun _ m h _ => ⟨m, h, rfl, Or.inl rfl⟩, id⟩

variable {u : Nat}

theorem setMembership {m : Membership} (hne : u ≠ s.activity.owner)
    (horganizer : m.role.isOrganizer = true → ∃ was, s.memberships.get? u = some was ∧
      was.role = m.role ∧ (m.state = was.state ∨ m.state = .removed))
    (hrequested : m.state = .requested → m.role = .member) :
    RolesKept s (s.setMembership u m) where
  owner := rfl
  cohort := rfl
  ownerRow := by rw [State.get?_setMembership, if_neg (Ne.symm hne)]
  organizer v n hn hrole := by
    rw [State.get?_setMembership] at hn
    split at hn
    · next hv =>
      rw [hv]
      obtain rfl := Option.some.inj hn
      exact horganizer hrole
    · exact ⟨n, hn, rfl, Or.inl rfl⟩
  requested hs v n hn hstate := by
    rw [State.get?_setMembership] at hn
    split at hn
    · obtain rfl := Option.some.inj hn
      exact hrequested hstate
    · exact hs v n hn hstate

theorem admitUser (hs : RolesSound s) (hreq : s.isRequested u = true) :
    RolesKept s (s.admitUser u) := by
  obtain ⟨m, hget, hstate⟩ := State.isRequested_iff.mp hreq
  have hrole : m.role = .member := hs.requested u m hget hstate
  have hne : u ≠ s.activity.owner := by
    refine hs.ne_owner_of_get? hget fun hrow => ?_
    rw [hrow] at hstate
    cases hstate
  rw [State.admitUser, hget]
  refine setMembership hne (fun h => ?_) (fun h => by cases h)
  rw [hrole] at h
  cases h

theorem eraseUser (hne : u ≠ s.activity.owner) : RolesKept s (s.eraseUser u) where
  owner := rfl
  cohort := rfl
  ownerRow := by rw [State.get?_eraseUser, if_neg (Ne.symm hne)]
  organizer v n hn _ := by
    rw [State.get?_eraseUser] at hn
    split at hn
    · cases hn
    · exact ⟨n, hn, rfl, Or.inl rfl⟩
  requested hs v n hn hstate := by
    rw [State.get?_eraseUser] at hn
    split at hn
    · cases hn
    · exact hs v n hn hstate

end RolesKept

/-! ### Writes of organizer roles -/

section

variable {s : State} {u v : Nat} {m : Membership}

/-- A member other than the owner becomes a co-organizer or a plain member. -/
theorem RolesSound.setRole (hs : RolesSound s) (hget : s.memberships.get? u = some m)
    (hstate : m.state = .member) (hne : u ≠ s.activity.owner) {role : Role}
    (hrole : role = .coOrganizer ∧ s.activity.cohort = .adult ∨ role = .member) :
    RolesSound (s.setMembership u { m with role }) ∧
      OrganizersSeated s (s.setMembership u { m with role }) := by
  have hnot : role ≠ .owner := by
    rcases hrole with ⟨rfl, -⟩ | rfl <;> simp
  -- Each row of the new state is the user's, or as it was.
  have hcases : ∀ {v : Nat} {n : Membership},
      (s.setMembership u { m with role }).memberships.get? v = some n →
      (v = u ∧ n.role = role ∧ n.state = .member) ∨ s.memberships.get? v = some n := by
    intro v n hn
    rw [State.get?_setMembership] at hn
    split at hn
    · next hv =>
      obtain rfl := Option.some.inj hn
      exact Or.inl ⟨hv, rfl, hstate⟩
    · exact Or.inr hn
  refine ⟨⟨?_, fun v n hn hown => ?_, fun v n hn hco => ?_, fun v n hn hreq => ?_⟩, ?_⟩
  · rw [State.activity_setMembership, State.get?_setMembership, if_neg (Ne.symm hne)]
    exact hs.owner
  · rcases hcases hn with ⟨-, hrow, -⟩ | hwas
    · exact absurd (hrow.symm.trans hown) hnot
    · exact hs.unique v n hwas hown
  · rcases hcases hn with ⟨-, hrow, -⟩ | hwas
    · rcases hrole with ⟨-, hadult⟩ | hmember
      · exact hadult
      · rw [hrow, hmember] at hco
        cases hco
    · exact hs.adult v n hwas hco
  · rcases hcases hn with ⟨-, -, hrow⟩ | hwas
    · rw [hrow] at hreq
      cases hreq
    · exact hs.requested v n hwas hreq
  · intro v n hn hmember _
    rcases hcases hn with ⟨rfl, -, -⟩ | hwas
    · exact ⟨m, hget, hstate⟩
    · exact ⟨n, hwas, hmember⟩

/-- The owner hands over to another member of an adult activity. -/
theorem RolesSound.transfer (hs : RolesSound s) {s' : State} (hmember : s.isMember u)
    (hadult : s.activity.cohort = .adult)
    (howner : s'.activity.owner = u) (hcohort : s'.activity.cohort = s.activity.cohort)
    (hrows : ∀ v, s'.memberships.get? v = if v = u then some ⟨.owner, .member⟩
      else if v = s.activity.owner then some ⟨.member, .member⟩ else s.memberships.get? v) :
    RolesSound s' ∧ OrganizersSeated s s' := by
  -- Every row is the new owner's, the old owner's, or as it was.
  have hcases : ∀ {v : Nat} {n : Membership}, s'.memberships.get? v = some n →
      (v = u ∧ n = ⟨.owner, .member⟩) ∨ n = ⟨.member, .member⟩ ∨
        (v ≠ s.activity.owner ∧ s.memberships.get? v = some n) := by
    intro v n hn
    rw [hrows] at hn
    split at hn
    · next hv => exact Or.inl ⟨hv, (Option.some.inj hn).symm⟩
    · split at hn
      · exact Or.inr (Or.inl (Option.some.inj hn).symm)
      · next hv => exact Or.inr (Or.inr ⟨hv, hn⟩)
  refine ⟨⟨?_, fun v n hn hown => ?_, fun v n hn hco => ?_, fun v n hn hreq => ?_⟩, ?_⟩
  · rw [howner, hrows, if_pos rfl]
  · rcases hcases hn with ⟨hv, -⟩ | rfl | ⟨hv, hwas⟩
    · rw [howner, hv]
    · cases hown
    · exact absurd (hs.unique v n hwas hown) hv
  · rw [hcohort]
    exact hadult
  · rcases hcases hn with ⟨-, rfl⟩ | rfl | ⟨-, hwas⟩
    · cases hreq
    · cases hreq
    · exact hs.requested v n hwas hreq
  · intro v n hn hstate hrole
    rcases hcases hn with ⟨rfl, -⟩ | rfl | ⟨-, hwas⟩
    · exact hmember
    · cases hrole
    · exact ⟨n, hwas, hstate⟩

end

/-! ### The Go server -/

namespace Go

variable {env : Env} {a : Actor} {fails : Bool} {s s' : State}

theorem Admits.rolesKept {log : List Admission} (h : Admits env s log s') (hs : RolesSound s) :
    RolesKept s s' := by
  induction h with
  | nil s => exact RolesKept.refl s
  | cons gate _ ih =>
    have hone := RolesKept.admitUser hs gate.requested
    exact hone.trans (ih (hone.sound hs))

theorem updateActivity_rolesKept {changes : Changes}
    (h : updateActivity env a changes fails s = .ok s') : RolesKept s s' := by
  unfold updateActivity at h
  simp only [seq_eq_ok, need_eq_ok, pure_eq_ok] at h
  obtain ⟨-, -, -, -, -, -, -, -, rfl⟩ := h
  exact RolesKept.activity _ rfl rfl

theorem cancelActivity_rolesKept (h : cancelActivity env a fails s = .ok s') : RolesKept s s' := by
  unfold cancelActivity at h
  simp only [seq_eq_ok, need_eq_ok, pure_eq_ok] at h
  obtain ⟨-, -, -, -, -, rfl⟩ := h
  exact RolesKept.activity _ rfl rfl

theorem moveActivity_rolesKept {place : Nat} (h : moveActivity env a place fails s = .ok s') :
    RolesKept s s' := by
  rcases moveActivity_spec h with rfl | rfl
  · exact RolesKept.refl s'
  · exact RolesKept.activity _ rfl rfl

theorem autoComplete_rolesKept (env : Env) (grace : Nat) (s : State) :
    RolesKept s (autoComplete env grace s) := by
  unfold autoComplete
  split
  · exact RolesKept.activity _ rfl rfl
  · exact RolesKept.refl s

theorem join_rolesKept (hs : RolesSound s) (h : join env a fails s = .ok s') : RolesKept s s' := by
  unfold join at h
  simp only [seq_eq_ok, need_eq_ok, pure_eq_ok] at h
  obtain ⟨-, -, -, -, -, hremoved, -, rfl⟩ := h
  have hne : a.id ≠ s.activity.owner := by
    refine hs.ne_owner fun hrow => ?_
    rw [hrow] at hremoved
    cases hremoved
  have hrow : RolesKept s (s.setMembership a.id ⟨.member, .requested⟩) :=
    RolesKept.setMembership hne (fun h => by cases h) fun _ => rfl
  exact hrow.trans (RolesKept.votes _)

theorem leave_rolesKept (hs : RolesSound s) (h : leave a fails s = .ok s') : RolesKept s s' := by
  obtain ⟨m, hget, hrole, rfl⟩ := leave_spec h
  have hne := hs.ne_owner_of_get? hget fun hrow => hrole (hrow ▸ rfl)
  exact RolesKept.setMembership hne (fun _ => ⟨m, hget, rfl, Or.inr rfl⟩) fun h => by cases h

variable {r : State × List Admission} {target : Nat}

theorem vote_rolesKept {approve override : Bool}
    (hs : RolesSound s) (h : vote env a target approve override fails s = .ok r) :
    RolesKept s r.1 := by
  obtain ⟨t, ht, -, hadmits, -⟩ := vote_change h
  have hballot : RolesKept s t := by
    rcases ht with ⟨-, rfl⟩ | ⟨rfl, -⟩
    · exact RolesKept.refl t
    · exact RolesKept.votes _
  exact hballot.trans (hadmits.rolesKept (hballot.sound hs))

theorem addGuardian_rolesKept (hs : RolesSound s)
    (h : addGuardian env a target fails s = .ok r) : RolesKept s r.1 := by
  have hadmits := (addGuardian_change hs.requestsPlain h).2
  unfold addGuardian activity at h
  simp only [actorByID_bind_eq_ok, seq_eq_ok, need_eq_ok, pure_eq_ok, Bool.and_eq_true,
    beq_iff_eq] at h
  obtain ⟨hpart, ⟨-, ⟨hcohort, -⟩, -⟩, ⟨⟨howner, hchild⟩, -⟩, guardian, hguardian, hadult, -⟩ := h
  have hne : target ≠ s.activity.owner := by
    rintro rfl
    have hasks := (participates_of_participate hpart).2
    rw [← howner, hguardian] at hasks
    have hsame : guardian.cohort = .child :=
      (Option.some.inj hasks).trans (hcohort.symm.trans hchild)
    rw [hsame] at hadult
    cases hadult
  have hrow : RolesKept s (s.setMembership target ⟨.guardian, .member⟩) :=
    RolesKept.setMembership hne (fun h => by cases h) fun h => by cases h
  exact hrow.trans (hadmits.rolesKept (hrow.sound hs))

theorem setSupervision_rolesKept {supervised : Bool}
    (hs : RolesSound s) (h : setSupervision env a supervised fails s = .ok r) :
    RolesKept s r.1 := by
  have hadmits := (setSupervision_change hs.requestsPlain h).2.2
  have hrow : RolesKept s (withSupervision supervised s) := RolesKept.activity _ rfl rfl
  exact hrow.trans (hadmits.rolesKept (hrow.sound hs))

theorem activity_demoteOwner (owner : Nat) (s : State) :
    (demoteOwner owner s).activity = s.activity := by
  unfold demoteOwner
  split
  · split <;> rfl
  · rfl

theorem get?_transfer {m : Membership} (hs : RolesSound s)
    (howner : s.activity.owner = a.id) (hstate : m.state = .member) (v : Nat) :
    ((demoteOwner a.id { s with activity := { s.activity with owner := target } }).setMembership
        target { m with role := .owner }).memberships.get? v
      = if v = target then some ⟨.owner, .member⟩
        else if v = s.activity.owner then some ⟨.member, .member⟩ else s.memberships.get? v := by
  have hdemoted : demoteOwner a.id { s with activity := { s.activity with owner := target } }
      = { s with activity := { s.activity with owner := target } }.setMembership a.id
          ⟨.member, .member⟩ := by
    have hrow : s.memberships.get? a.id = some ⟨.owner, .member⟩ := howner ▸ hs.owner
    unfold demoteOwner
    dsimp only
    rw [hrow]
    rfl
  rw [hdemoted, State.get?_setMembership, State.get?_setMembership, hstate, howner]

theorem changeOrganizer_sound {action : String} (hs : RolesSound s)
    (h : changeOrganizer env a target action fails s = .ok s') :
    RolesSound s' ∧ OrganizersSeated s s' := by
  rcases changeOrganizer_spec h with rfl | ⟨m, hget, hseat, hne, howner, hadult, hwrite⟩
  · exact ⟨hs, (RolesKept.refl s').seated⟩
  · rw [← howner] at hne
    have hstate := Membership.state_of_isSeat hseat
    rcases hwrite with rfl | rfl | rfl
    · exact hs.setRole hget hstate hne (Or.inr rfl)
    · exact hs.setRole hget hstate hne (Or.inl ⟨rfl, hadult⟩)
    · refine hs.transfer ⟨m, hget, hstate⟩ hadult ?_ ?_ (get?_transfer hs howner hstate)
      · rw [State.activity_setMembership, activity_demoteOwner]
      · rw [State.activity_setMembership, activity_demoteOwner]

theorem operate_roles {op : Op} (hs : RolesSound s)
    (hdeletes : deletes s op = false) (h : operate env s op = .ok r) :
    RolesSound r.1 ∧ OrganizersSeated s r.1 := by
  -- All but the change of an organizer make none.
  have hkept : RolesKept s r.1 → RolesSound r.1 ∧ OrganizersSeated s r.1 :=
    fun hkept => ⟨hkept.sound hs, hkept.seated⟩
  cases op with
  | create =>
    have hr := Except.ok.inj (quiet_eq_ok.mp h).1
    exact hkept (hr ▸ RolesKept.refl s)
  | update => exact hkept (updateActivity_rolesKept (quiet_eq_ok.mp h).1)
  | cancel => exact hkept (cancelActivity_rolesKept (quiet_eq_ok.mp h).1)
  | move => exact hkept (moveActivity_rolesKept (quiet_eq_ok.mp h).1)
  | autoComplete grace =>
    have hr := Except.ok.inj (quiet_eq_ok.mp h).1
    exact hkept (hr ▸ autoComplete_rolesKept env grace s)
  | join => exact hkept (join_rolesKept hs (quiet_eq_ok.mp h).1)
  | leave => exact hkept (leave_rolesKept hs (quiet_eq_ok.mp h).1)
  | vote => exact hkept (vote_rolesKept hs h)
  | changeOrganizer => exact changeOrganizer_sound hs (quiet_eq_ok.mp h).1
  | addGuardian => exact hkept (addGuardian_rolesKept hs h)
  | setSupervision => exact hkept (setSupervision_rolesKept hs h)
  | setHidden =>
    have hr := Except.ok.inj (quiet_eq_ok.mp h).1
    exact hkept (hr ▸ RolesKept.activity _ rfl rfl)
  | erase =>
    have hr := Except.ok.inj (quiet_eq_ok.mp h).1
    exact hkept (hr ▸ RolesKept.eraseUser (by simpa [deletes] using hdeletes))

end Go

/-! ### The Django application -/

namespace Py

variable {env : Env} {fails : Bool} {s s' : State}

theorem evaluateAll_rolesKept (us : List Nat) (hs : RolesSound s) (hnodup : us.Nodup)
    (hreq : ∀ u ∈ us, s.isRequested u = true) : RolesKept s (evaluateAll env us s) := by
  induction us generalizing s with
  | nil => exact RolesKept.refl s
  | cons u us ih =>
    obtain ⟨hu, hnodup⟩ := List.nodup_cons.mp hnodup
    have hrest : ∀ v ∈ us, s.isRequested v = true :=
      fun v hv => hreq v (List.mem_cons_of_mem u hv)
    show RolesKept s (evaluateAll env us (evaluateVote env u s))
    unfold evaluateVote admitMembership
    split
    · split
      · -- The request is admitted, and the others still wait.
        have hone := RolesKept.admitUser hs (hreq u List.mem_cons_self)
        refine hone.trans (ih (hone.sound hs) hnodup fun v hv => ?_)
        have hne : v ≠ u := fun h => hu (h ▸ hv)
        rw [State.isRequested_admitUser_of_ne hne]
        exact hrest v hv
      · exact ih hs hnodup hrest
    · exact ih hs hnodup hrest

theorem settlePendingJoins_rolesKept (env : Env) (hs : RolesSound s) :
    RolesKept s (settlePendingJoins env s) :=
  evaluateAll_rolesKept _ hs (nodup_pendingJoins env s) fun _ => isRequested_of_mem_pendingJoins

variable {owner : Nat}

theorem updateActivity_rolesKept {changes : Changes}
    (h : updateActivity env owner changes fails s = .ok s') : RolesKept s s' := by
  unfold updateActivity at h
  simp only [seq_eq_ok, need_eq_ok, pure_eq_ok] at h
  obtain ⟨-, -, -, -, -, -, -, -, rfl⟩ := h
  exact RolesKept.activity _ rfl rfl

theorem moveActivity_rolesKept {place : Nat}
    (h : moveActivity env owner place fails s = .ok s') : RolesKept s s' := by
  obtain rfl | rfl := moveActivity_spec h
  · exact RolesKept.refl s'
  · exact RolesKept.activity _ rfl rfl

theorem cancelActivity_rolesKept (h : cancelActivity owner fails s = .ok s') :
    RolesKept s s' := by
  unfold cancelActivity at h
  simp only [seq_eq_ok, need_eq_ok, pure_eq_ok] at h
  obtain ⟨-, -, -, rfl⟩ := h
  exact RolesKept.activity _ rfl rfl

theorem completeActivity_rolesKept (s : State) : RolesKept s (completeActivity s) := by
  unfold completeActivity
  split
  · exact RolesKept.activity _ rfl rfl
  · exact RolesKept.refl s

theorem requestToJoin_rolesKept {user : Nat} (hs : RolesSound s)
    (h : requestToJoin env user fails s = .ok s') : RolesKept s s' := by
  unfold requestToJoin at h
  simp only [seq_eq_ok, need_eq_ok, pure_eq_ok] at h
  obtain ⟨-, hnone, -, rfl⟩ := h
  have hne : user ≠ s.activity.owner := by
    refine hs.ne_owner fun hrow => ?_
    rw [hrow] at hnone
    cases hnone
  exact RolesKept.setMembership hne (fun h => by cases h) fun _ => rfl

theorem leaveActivity_rolesKept {user : Nat} (hs : RolesSound s)
    (h : leaveActivity user s = .ok s') : RolesKept s s' := by
  unfold leaveActivity at h
  split at h
  · cases h
    exact RolesKept.refl s
  · next m hget =>
    split at h
    · cases h
      exact RolesKept.refl s
    · simp only [seq_eq_ok, need_eq_ok, pure_eq_ok, bne_iff_ne] at h
      obtain ⟨hrole, rfl⟩ := h
      have hne := hs.ne_owner_of_get? hget fun hrow => hrole (hrow ▸ rfl)
      exact RolesKept.setMembership hne (fun _ => ⟨m, hget, rfl, Or.inr rfl⟩) fun h => by cases h

theorem castVote_rolesKept {voter target : Nat} {approve : Bool} (hs : RolesSound s)
    (h : castVote env voter target approve fails s = .ok s') : RolesKept s s' := by
  unfold castVote at h
  simp only [seq_eq_ok, need_eq_ok, pure_eq_ok] at h
  obtain ⟨hreq, -, -, -, rfl⟩ := h
  have hballot : RolesKept s (s.setVote target voter approve) := RolesKept.votes _
  refine hballot.trans ?_
  unfold evaluateVote admitMembership
  split
  · split
    · exact RolesKept.admitUser (hballot.sound hs) hreq
    · exact RolesKept.refl _
  · exact RolesKept.refl _

theorem ownerAdmit_rolesKept {target : Nat} (hs : RolesSound s)
    (h : ownerAdmit env owner target fails s = .ok s') : RolesKept s s' := by
  unfold ownerAdmit at h
  simp only [seq_eq_ok, need_eq_ok, pure_eq_ok] at h
  obtain ⟨-, -, hreq, -, -, rfl⟩ := h
  unfold admitMembership
  split
  · exact RolesKept.admitUser hs hreq
  · exact RolesKept.refl s

theorem addGuardian_rolesKept {guardian : Nat} (hs : RolesSound s)
    (h : addGuardian env owner guardian fails s = .ok s') : RolesKept s s' := by
  unfold addGuardian at h
  simp only [seq_eq_ok, need_eq_ok] at h
  obtain ⟨-, -, -, -, h⟩ := h
  split at h
  · simp only [seq_eq_ok, need_eq_ok, pure_eq_ok] at h
    obtain ⟨-, rfl⟩ := h
    exact RolesKept.refl s
  · next hnone =>
    simp only [seq_eq_ok, need_eq_ok] at h
    obtain ⟨-, h⟩ := h
    have hne : guardian ≠ s.activity.owner := by
      refine hs.ne_owner fun hrow => ?_
      rw [hrow] at hnone
      cases hnone
    have hrow : RolesKept s (withGuardian guardian s) :=
      RolesKept.setMembership hne (fun h => by cases h) fun h => by cases h
    split at h
    · cases pure_eq_ok.mp h
      exact hrow.trans (settlePendingJoins_rolesKept env (hrow.sound hs))
    · cases pure_eq_ok.mp h
      exact hrow

theorem setActivitySupervision_rolesKept {supervised : Bool} (hs : RolesSound s)
    (h : setActivitySupervision env owner supervised fails s = .ok s') : RolesKept s s' := by
  unfold setActivitySupervision at h
  simp only [seq_eq_ok, need_eq_ok, pure_eq_ok] at h
  obtain ⟨-, -, -, -, rfl⟩ := h
  have hrow : RolesKept s (withSupervision supervised s) := RolesKept.activity _ rfl rfl
  exact hrow.trans (settlePendingJoins_rolesKept env (hrow.sound hs))

theorem grantCoOrganizer_sound {member : Nat} (hs : RolesSound s)
    (h : grantCoOrganizer env owner member fails s = .ok s') :
    RolesSound s' ∧ OrganizersSeated s s' := by
  obtain ⟨hadult, m, hm, rfl⟩ := grantCoOrganizer_spec h
  obtain ⟨hne, hget, hseat⟩ := coorgEligible_eq_some hm
  exact hs.setRole hget (Membership.state_of_isSeat hseat) hne (Or.inl ⟨rfl, hadult⟩)

theorem revokeCoOrganizer_sound {member : Nat} (hs : RolesSound s)
    (h : revokeCoOrganizer owner member fails s = .ok s') :
    RolesSound s' ∧ OrganizersSeated s s' := by
  obtain ⟨hget, rfl⟩ := revokeCoOrganizer_spec h
  exact hs.setRole hget rfl (hs.ne_owner_of_get? hget (by simp)) (Or.inr rfl)

theorem activity_stepDown (owner : Nat) (s : State) :
    (stepDown owner s).activity = s.activity := by
  unfold stepDown
  split <;> rfl

theorem get?_transfer {newOwner : Nat} {m : Membership} (hs : RolesSound s)
    (hne : newOwner ≠ s.activity.owner) (hstate : m.state = .member) (v : Nat) :
    (stepDown s.activity.owner
        ({ s with activity := { s.activity with owner := newOwner } }.setMembership newOwner
          { m with role := .owner })).memberships.get? v
      = if v = newOwner then some ⟨.owner, .member⟩
        else if v = s.activity.owner then some ⟨.member, .member⟩ else s.memberships.get? v := by
  have hold : ({ s with activity := { s.activity with owner := newOwner } }.setMembership newOwner
      { m with role := .owner }).memberships.get? s.activity.owner = some ⟨.owner, .member⟩ := by
    rw [State.get?_setMembership, if_neg (Ne.symm hne)]
    exact hs.owner
  have hdown : stepDown s.activity.owner
        ({ s with activity := { s.activity with owner := newOwner } }.setMembership newOwner
          { m with role := .owner })
      = ({ s with activity := { s.activity with owner := newOwner } }.setMembership newOwner
          { m with role := .owner }).setMembership s.activity.owner ⟨.member, .member⟩ := by
    rw [stepDown, hold]
    rfl
  rw [hdown, State.get?_setMembership, State.get?_setMembership, hstate]
  by_cases hv : v = newOwner
  · rw [if_pos hv, if_pos hv, if_neg (hv ▸ hne)]
  · rw [if_neg hv, if_neg hv]

theorem transferOwnership_sound {newOwner : Nat} (hs : RolesSound s)
    (h : transferOwnership env owner newOwner fails s = .ok s') :
    RolesSound s' ∧ OrganizersSeated s s' := by
  obtain ⟨rfl, hadult, m, hm, rfl⟩ := transferOwnership_spec h
  obtain ⟨hne, hget, hseat⟩ := coorgEligible_eq_some hm
  have hstate := Membership.state_of_isSeat hseat
  refine hs.transfer ⟨m, hget, hstate⟩ hadult ?_ ?_ (get?_transfer hs hne hstate)
  · rw [activity_stepDown, State.activity_setMembership]
  · rw [activity_stepDown, State.activity_setMembership]

theorem operate_roles {op : Op} (hs : RolesSound s) (hdeletes : deletes s op = false)
    (h : operate env s op = .ok s') : RolesSound s' ∧ OrganizersSeated s s' := by
  have hkept : RolesKept s s' → RolesSound s' ∧ OrganizersSeated s s' :=
    fun hkept => ⟨hkept.sound hs, hkept.seated⟩
  cases op with
  | create =>
    have hr := Except.ok.inj h
    exact hkept (hr ▸ RolesKept.refl s)
  | requestToJoin => exact hkept (requestToJoin_rolesKept hs h)
  | castVote => exact hkept (castVote_rolesKept hs h)
  | ownerAdmit => exact hkept (ownerAdmit_rolesKept hs h)
  | addGuardian => exact hkept (addGuardian_rolesKept hs h)
  | setSupervision => exact hkept (setActivitySupervision_rolesKept hs h)
  | leave => exact hkept (leaveActivity_rolesKept hs h)
  | update => exact hkept (updateActivity_rolesKept h)
  | move => exact hkept (moveActivity_rolesKept h)
  | cancel => exact hkept (cancelActivity_rolesKept h)
  | complete =>
    have hr := Except.ok.inj h
    exact hkept (hr ▸ completeActivity_rolesKept s)
  | grantCoOrganizer => exact grantCoOrganizer_sound hs h
  | revokeCoOrganizer => exact revokeCoOrganizer_sound hs h
  | transferOwnership => exact transferOwnership_sound hs h
  | setHidden =>
    have hr := Except.ok.inj h
    exact hkept (hr ▸ RolesKept.activity _ rfl rfl)
  | erase =>
    have hr := Except.ok.inj h
    exact hkept (hr ▸ RolesKept.eraseUser (by simpa [deletes] using hdeletes))

end Py

/-! ### Over every run -/

theorem rolesSound_created {s : State} {owner : Nat} (howner : s.activity.owner = owner)
    (hrows : s.memberships = KeyMap.empty.set owner ⟨.owner, .member⟩) : RolesSound s := by
  have hget : ∀ u, s.memberships.get? u = if u = owner then some ⟨.owner, .member⟩ else none := by
    intro u
    rw [hrows, KeyMap.get?_set]
    rfl
  have hcases : ∀ {u m}, s.memberships.get? u = some m → u = owner ∧ m = ⟨.owner, .member⟩ := by
    intro u m hm
    rw [hget] at hm
    split at hm
    · next hu => exact ⟨hu, (Option.some.inj hm).symm⟩
    · cases hm
  refine ⟨?_, fun u m hm _ => ?_, fun u m hm hrole => ?_, fun u m hm hstate => ?_⟩
  · rw [howner, hget, if_pos rfl]
  · rw [howner]
    exact (hcases hm).1
  · rw [(hcases hm).2] at hrole
    cases hrole
  · rw [(hcases hm).2] at hstate
    cases hstate

/-- The activity, when it exists, has sound roles. -/
def AllRolesSound (s : Option State) : Prop := ∀ t, s = some t → RolesSound t

/-- What a step of either program does to the roles. -/
def StepRoles (s s' : Option State) : Prop :=
  AllRolesSound s' ∧ ∀ t t', s = some t → s' = some t' → OrganizersSeated t t'

theorem StepRoles.deleted (s : Option State) : StepRoles s none :=
  ⟨fun t ht => (by cases ht), fun t t' _ ht' => (by cases ht')⟩

theorem StepRoles.created {s : State} (hs : RolesSound s) : StepRoles none (some s) :=
  ⟨fun t ht => Option.some.inj ht ▸ hs, fun t t' ht _ => (by cases ht)⟩

theorem StepRoles.changed {s s' : State} (h : RolesSound s' ∧ OrganizersSeated s s') :
    StepRoles (some s) (some s') := by
  refine ⟨fun t ht => Option.some.inj ht ▸ h.1, fun t t' ht ht' => ?_⟩
  cases ht
  cases ht'
  exact h.2

theorem Go.step_roles {s : Option State} (hs : AllRolesSound s) (p : Go.Env × Go.Op) :
    StepRoles s (Go.step s p) := by
  obtain ⟨env, op⟩ := p
  cases s with
  | none =>
    unfold Go.step Go.perform
    cases op with
    | create a input fromSeries fails =>
      dsimp only
      cases hcreate : Go.createActivity env a input fromSeries fails with
      | error => exact StepRoles.deleted none
      | ok =>
        unfold Go.createActivity at hcreate
        simp only [seq_eq_ok, need_eq_ok, pure_eq_ok] at hcreate
        obtain ⟨-, -, -, -, -, -, -, -, rfl⟩ := hcreate
        exact StepRoles.created (rolesSound_created rfl rfl)
    | _ => exact StepRoles.deleted none
  | some s =>
    have hsound := hs s rfl
    unfold Go.step Go.perform
    dsimp only
    by_cases hdeletes : Go.deletes s op = true
    · rw [if_pos hdeletes]
      exact StepRoles.deleted (some s)
    · rw [if_neg hdeletes]
      cases hop : Go.operate env s op with
      | error => exact StepRoles.changed ⟨hsound, (RolesKept.refl s).seated⟩
      | ok =>
        exact StepRoles.changed (Go.operate_roles hsound (Bool.eq_false_iff.mpr hdeletes) hop)

theorem Py.step_roles {s : Option State} (hs : AllRolesSound s) (p : Py.Env × Py.Op) :
    StepRoles s (Py.step s p) := by
  obtain ⟨env, op⟩ := p
  cases s with
  | none =>
    cases op with
    | create owner new fails =>
      unfold Py.step
      dsimp only
      cases hcreate : Py.createActivity env owner new fails with
      | error => exact StepRoles.deleted none
      | ok =>
        unfold Py.createActivity at hcreate
        simp only [seq_eq_ok, need_eq_ok, pure_eq_ok] at hcreate
        obtain ⟨-, -, -, -, -, -, -, -, -, -, -, rfl⟩ := hcreate
        exact StepRoles.created (rolesSound_created rfl rfl)
    | _ => exact StepRoles.deleted none
  | some s =>
    have hsound := hs s rfl
    unfold Py.step
    dsimp only
    by_cases hdeletes : Py.deletes s op = true
    · rw [if_pos hdeletes]
      exact StepRoles.deleted (some s)
    · rw [if_neg hdeletes]
      cases hop : Py.operate env s op with
      | error => exact StepRoles.changed ⟨hsound, (RolesKept.refl s).seated⟩
      | ok =>
        exact StepRoles.changed (Py.operate_roles hsound (Bool.eq_false_iff.mpr hdeletes) hop)

/-- Over every run of either program: one membership has the role of the owner, it is the member
row of `owner_id`, co-organizers are in adult activities only, and whoever becomes a member, also
again after leaving, does so without an organizer role. -/
theorem organizer_roles :
    (∀ as : List (Go.Env × Go.Op),
      (∀ s, run Go.step none as = some s → RolesSound s) ∧
      ∀ p ∈ steps Go.step none as, ∀ s s', p.1 = some s → Go.step p.1 p.2 = some s' →
        OrganizersSeated s s') ∧
    (∀ as : List (Py.Env × Py.Op),
      (∀ s, run Py.step none as = some s → RolesSound s) ∧
      ∀ p ∈ steps Py.step none as, ∀ s s', p.1 = some s → Py.step p.1 p.2 = some s' →
        OrganizersSeated s s') := by
  have hnone : AllRolesSound none := fun t ht => (by cases ht)
  have hgo : ∀ s p, AllRolesSound s → AllRolesSound (Go.step s p) :=
    fun s p hs => (Go.step_roles hs p).1
  have hpy : ∀ s p, AllRolesSound s → AllRolesSound (Py.step s p) :=
    fun s p hs => (Py.step_roles hs p).1
  refine ⟨fun as => ⟨Lib.Machine.run_invariant hgo hnone as, fun p hp => ?_⟩,
    fun as => ⟨Lib.Machine.run_invariant hpy hnone as, fun p hp => ?_⟩⟩
  · exact (Go.step_roles (Lib.Machine.steps_invariant hgo hnone as p hp) p.2).2
  · exact (Py.step_roles (Lib.Machine.steps_invariant hpy hnone as p hp) p.2).2

end SocialActivities.Social
