import SocialActivities.Social.GoActivity

/-!
# `SocialActivities.Social.GoAdmission`: the admission gate over every run (Go)

A membership becomes a seat on one of three paths: `Vote`, with its override, and the
settlement of pending requests after `AddGuardian` and after `SetSupervision`. Each path checks
another part of the gate itself and relies on the rows for the rest. `Gate` is the whole of it.

`Admits env s log s'` says that the admissions `log` lead from `s` to `s'` and that each meets
the gate on the rows just before it. `operate_change` splits every operation in two: writes
that seat nobody (`Keeps`), and then admissions (`Admits`). Each invariant of a run is proved
of both halves once:

* a pending request has no guardian role, so an admission takes exactly one position;
* there are at most as many participants as the capacity;
* a supervised activity is a guardian-accompanied activity of children.

`admission_gate` puts these together over every run from before the creation.
-/

namespace SocialActivities.Social.Go

open Lib
open Lib.Machine (run steps)

/-! ### Reading an operation that succeeded -/

theorem quiet_eq_ok {x : Except Error State} {r : State × List Admission} :
    quiet x = .ok r ↔ x = .ok r.1 ∧ r.2 = [] := by
  obtain ⟨s, log⟩ := r
  cases x with
  | error => simp [quiet, Except.map]
  | ok => simp [quiet, Except.map, eq_comm]

variable {env : Env}

theorem actorByID_bind_eq_ok {β : Type} {id : Nat} {f : Actor → Except Error β} {r : β} :
    (actorByID env id >>= f) = .ok r ↔ ∃ user, env.users id = some user ∧ f ⟨id, user⟩ = .ok r := by
  rw [bind_eq_ok]
  unfold actorByID
  cases env.users id with
  | none | some => simp

theorem participates_of_participate {a : Actor} (h : participate env a = .ok ()) :
    env.participates a.id = true ∧
      (env.users a.id).map User.cohort = some a.user.cohort := by
  unfold participate at h
  simp only [seq_eq_ok, need_eq_ok] at h
  obtain ⟨hsnapshot, hcurrent, hconsent⟩ := h
  unfold Env.current at hcurrent
  cases hu : env.users a.id with
  | none => simp [hu] at hcurrent
  | some user =>
    simp only [hu, Option.any_some, Bool.and_eq_true, beq_iff_eq] at hcurrent
    obtain ⟨⟨⟨⟨⟨⟨⟨hactive, hverified⟩, hband⟩, hcohort⟩, hrole⟩, hstaff⟩, hsuper⟩, hassured⟩ :=
      hcurrent
    refine ⟨?_, by simp [hcohort]⟩
    -- The stored row passes the gate that the snapshot passed, being equal in what it reads.
    have hok : participate env ⟨a.id, user⟩ = .ok () := by
      unfold participate
      simp only [seq_eq_ok, need_eq_ok]
      refine ⟨?_, ?_, ?_⟩
      · simp only [Bool.and_eq_true] at hsnapshot ⊢
        exact ⟨⟨hactive, hverified⟩, hcohort ▸ hsnapshot.2⟩
      · simp [Env.current, hu, hactive, hverified, hassured]
      · rw [hband]
        exact hconsent
    simp only [Env.participates, hu, Option.any_some, hok]
    rfl

/-! ### The gate -/

/-- Someone supervises the activity for its owner: an adult whom the participation gate
accepts, with an active guardian link to the owner, in a guardian membership. -/
def HasSupervisor (env : Env) (s : State) : Prop :=
  ∃ g m user, s.memberships.get? g = some m ∧ m.role = .guardian ∧ m.state = .member ∧
    env.guardianOf g s.activity.owner = true ∧ env.users g = some user ∧
    user.cohort = .adult ∧ env.participates g = true

/-- The gate of one admission, on the rows just before it. -/
structure Gate (env : Env) (adm : Admission) : Prop where
  requested : adm.before.isRequested adm.user = true
  cohort : (env.users adm.user).map User.cohort = some adm.before.activity.cohort
  participates : env.participates adm.user = true
  unblocked : env.blocked adm.user adm.before.activity.owner = false
  room : adm.before.isFull = false
  supervised : adm.before.activity.supervised = true → HasSupervisor env adm.before
  quorum : adm.override = false →
    clears (adm.before.approvals adm.user) adm.before.participantCount
      adm.before.activity.joinThreshold = true

variable {s : State}

theorem supervisionSatisfied_iff :
    supervisionSatisfied env s = true ↔
      (s.activity.supervised = true → HasSupervisor env s) := by
  have hmem : (supervisors env s).isEmpty = false ↔ HasSupervisor env s := by
    rw [List.isEmpty_eq_false_iff_exists_mem]
    unfold supervisors HasSupervisor
    constructor
    · rintro ⟨g, hg⟩
      obtain ⟨m, hget, hcond⟩ := KeyMap.mem_keysWhere.mp hg
      simp only [Bool.and_eq_true, beq_iff_eq] at hcond
      obtain ⟨⟨⟨⟨hrole, hstate⟩, hguardian⟩, hadult⟩, hpart⟩ := hcond
      cases hu : env.users g with
      | none => simp [hu] at hadult
      | some user =>
        exact ⟨g, m, user, hget, hrole, hstate, hguardian, hu, by simpa [hu] using hadult,
          hpart⟩
    · rintro ⟨g, m, user, hget, hrole, hstate, hguardian, hu, hadult, hpart⟩
      refine ⟨g, KeyMap.mem_keysWhere.mpr ⟨m, hget, ?_⟩⟩
      simp [hrole, hstate, hguardian, hu, hadult, hpart]
  unfold supervisionSatisfied
  rw [Bool.or_eq_true, Bool.not_eq_true', Bool.not_eq_true', hmem]
  cases s.activity.supervised <;> simp

theorem HasSupervisor.admitUser {u : Nat} (h : HasSupervisor env s)
    (hreq : s.isRequested u = true) : HasSupervisor env (s.admitUser u) := by
  obtain ⟨g, m, user, hget, hrole, hstate, hrest⟩ := h
  have hget' := State.get?_admitUser_of_not_requested hreq hget (by rw [hstate]; simp)
  exact ⟨g, m, user, hget', hrole, hstate, by simpa using hrest⟩

/-- The admissions `log`, each through the gate, lead from one state to another. -/
inductive Admits (env : Env) : State → List Admission → State → Prop where
  | nil (s : State) : Admits env s [] s
  | cons {s s' : State} {u : Nat} {override : Bool} {log : List Admission}
      (gate : Gate env ⟨s, u, override⟩) (rest : Admits env (s.admitUser u) log s') :
      Admits env s (⟨s, u, override⟩ :: log) s'

/-- The settlement loop admits through the gate. Its counter is the number of participants,
and it only looks at pending requests. -/
theorem settleLoop_admits (pending : List Nat) (s : State)
    (hplain : s.RequestsPlain) (hnodup : pending.Nodup)
    (hpending : ∀ u ∈ pending, s.isRequested u = true)
    (hsupervised : s.activity.supervised = true → HasSupervisor env s) :
    Admits env s (settleLoop env pending s.participantCount s).2
      (settleLoop env pending s.participantCount s).1 := by
  induction pending generalizing s with
  | nil => exact Admits.nil s
  | cons u pending ih =>
    obtain ⟨hu, hnodup⟩ := List.nodup_cons.mp hnodup
    have hskip := ih s hplain hnodup
      (fun v hv => hpending v (List.mem_cons_of_mem u hv)) hsupervised
    unfold settleLoop
    split
    · exact hskip
    rename_i hclears
    split
    · exact Admits.nil s
    rename_i hroom
    split
    · exact hskip
    rename_i hcohort
    split
    · exact hskip
    rename_i hparticipates
    split
    · exact hskip
    rename_i hblocked
    -- The request passes every check: it is admitted and the counter goes up by one.
    have hreq : s.isRequested u = true := hpending u List.mem_cons_self
    simp only [Bool.not_eq_true', Bool.not_eq_false, Bool.not_eq_true] at *
    have hgate : Gate env ⟨s, u, false⟩ :=
      { requested := hreq
        cohort := by
          cases hget : env.users u with
          | none => simp [hget] at hcohort
          | some => simpa [hget] using hcohort
        participates := hparticipates
        unblocked := hblocked
        room := hroom
        supervised := hsupervised
        quorum := fun _ => hclears }
    have hrest := ih (s.admitUser u) (hplain.admitUser u) hnodup
      (fun v hv => by
        have hne : v ≠ u := fun h => hu (by rwa [h] at hv)
        rw [State.isRequested_admitUser_of_ne hne]
        exact hpending v (List.mem_cons_of_mem u hv))
      (fun h => (hsupervised (by simpa using h)).admitUser hreq)
    rw [State.participantCount_admitUser hplain hreq] at hrest
    exact Admits.cons hgate hrest

theorem settlePending_admits (hplain : s.RequestsPlain) :
    Admits env s (settlePending env s).2 (settlePending env s).1 := by
  unfold settlePending
  split
  · rename_i hsat
    refine settleLoop_admits (pending s) s hplain (KeyMap.nodup_keysWhere ..) (fun u hu => ?_)
      (supervisionSatisfied_iff.mp hsat)
    obtain ⟨m, hget, hcond⟩ := KeyMap.mem_keysWhere.mp hu
    rw [Bool.and_eq_true, beq_iff_eq] at hcond
    exact State.isRequested_iff.mpr ⟨m, hget, hcond.1⟩
  · exact Admits.nil s

/-! ### The writes that seat nobody -/

/-- The invariant of the rows of an activity. -/
structure Sound (s : State) : Prop where
  plain : s.RequestsPlain
  within : s.WithinCapacity
  paired : SupervisionPaired s.activity

theorem Sound.of_keeps {s' : State} (hs : Sound s) (h : Keeps s s') : Sound s' :=
  ⟨h.plain hs.plain, h.within hs.within, h.paired hs.paired⟩

/-! #### One lemma for each operation -/

section

variable {env : Env} {a : Actor} {fails : Bool} {s s' : State}

theorem updateActivity_keeps {changes : Changes}
    (h : updateActivity env a changes fails s = .ok s') : Keeps s s' := by
  unfold updateActivity at h
  simp only [seq_eq_ok, need_eq_ok, pure_eq_ok] at h
  obtain ⟨-, -, -, -, -, -, hroom, -, rfl⟩ := h
  refine Keeps.activity _ (fun capacity hcap => Or.inr ?_) id
  rw [hcap] at hroom
  simpa using hroom

theorem cancelActivity_keeps (h : cancelActivity env a fails s = .ok s') : Keeps s s' := by
  unfold cancelActivity at h
  simp only [seq_eq_ok, need_eq_ok, pure_eq_ok] at h
  obtain ⟨-, -, -, -, -, rfl⟩ := h
  exact Keeps.activity _ (fun _ hcap => Or.inl hcap) id

theorem moveActivity_spec {place : Nat} (h : moveActivity env a place fails s = .ok s') :
    s' = s ∨ s' = { s with activity := { s.activity with place } } := by
  unfold moveActivity at h
  simp only [seq_eq_ok, need_eq_ok] at h
  obtain ⟨-, -, -, -, h⟩ := h
  split at h
  · exact Or.inl (pure_eq_ok.mp h).symm
  · simp only [seq_eq_ok, need_eq_ok, pure_eq_ok] at h
    exact Or.inr h.2.2.2.symm

theorem moveActivity_keeps {place : Nat} (h : moveActivity env a place fails s = .ok s') :
    Keeps s s' := by
  rcases moveActivity_spec h with rfl | rfl
  · exact Keeps.refl s'
  · exact Keeps.activity _ (fun _ hcap => Or.inl hcap) id

theorem autoComplete_keeps (env : Env) (grace : Nat) (s : State) :
    Keeps s (autoComplete env grace s) := by
  unfold autoComplete
  split
  · exact Keeps.activity _ (fun _ hcap => Or.inl hcap) id
  · exact Keeps.refl s

theorem join_keeps (h : join env a fails s = .ok s') : Keeps s s' := by
  unfold join at h
  simp only [seq_eq_ok, need_eq_ok, pure_eq_ok] at h
  obtain ⟨-, -, -, -, -, -, -, rfl⟩ := h
  have hrow : Keeps s (s.setMembership a.id ⟨.member, .requested⟩) :=
    Keeps.setMembership a.id (fun h => by cases h) (fun _ h => by cases h)
  exact hrow.trans (Keeps.votes _)

theorem leave_spec (h : leave a fails s = .ok s') :
    ∃ m, s.memberships.get? a.id = some m ∧ m.role ≠ .owner ∧
      s' = s.setMembership a.id { m with state := .removed } := by
  unfold leave at h
  simp only [seq_eq_ok, need_eq_ok] at h
  obtain ⟨-, -, -, h⟩ := h
  split at h
  · cases h
  · next m hget =>
    simp only [seq_eq_ok, need_eq_ok, pure_eq_ok, Bool.and_eq_true, bne_iff_ne] at h
    exact ⟨m, hget, h.1.2, h.2.2.symm⟩

theorem leave_keeps (h : leave a fails s = .ok s') : Keeps s s' := by
  obtain ⟨m, -, -, rfl⟩ := leave_spec h
  exact Keeps.setMembership a.id (fun h => by cases h) (fun h => by cases h)

theorem demoteOwner_spec (u : Nat) (s : State) : demoteOwner u s = s ∨
    ∃ m, s.memberships.get? u = some m ∧ m.isSeat = true ∧
      demoteOwner u s = s.setMembership u { m with role := .member } := by
  unfold demoteOwner
  split
  · next m hget =>
    split
    · next hcond =>
      rw [Bool.and_eq_true, beq_iff_eq, beq_iff_eq] at hcond
      exact Or.inr ⟨m, hget, by simp [Membership.isSeat, hcond.1, hcond.2], rfl⟩
    · exact Or.inl rfl
  · exact Or.inl rfl

theorem demoteOwner_keeps (u : Nat) (s : State) : Keeps s (demoteOwner u s) := by
  rcases demoteOwner_spec u s with h | ⟨m, hget, hseat, h⟩
  · rw [h]
    exact Keeps.refl s
  · rw [h]
    exact Keeps.setRole .member hget hseat

theorem get?_demoteOwner {u v : Nat} (hne : v ≠ u) (s : State) :
    (demoteOwner u s).memberships.get? v = s.memberships.get? v := by
  unfold demoteOwner
  split
  · split
    · rw [State.get?_setMembership, if_neg hne]
    · rfl
  · rfl

variable {target : Nat}

/-- A change of an organizer writes nothing, or it changes the role of a seat of another user. In a
transfer the owner column comes first, then the old owner's row, and last the row of the target. -/
theorem changeOrganizer_spec {action : String}
    (h : changeOrganizer env a target action fails s = .ok s') :
    s' = s ∨ ∃ m, s.memberships.get? target = some m ∧ m.isSeat = true ∧ target ≠ a.id ∧
      s.activity.owner = a.id ∧ s.activity.cohort = .adult ∧
      (s' = s.setMembership target { m with role := .member } ∨
        s' = s.setMembership target { m with role := .coOrganizer } ∨
        s' = (demoteOwner a.id { s with activity := { s.activity with owner := target } }).setMembership
          target { m with role := .owner }) := by
  unfold changeOrganizer at h
  simp only [actorByID_bind_eq_ok, seq_eq_ok, need_eq_ok, Bool.and_eq_true, beq_iff_eq,
    bne_iff_ne] at h
  obtain ⟨-, -, ⟨⟨howner, hadult⟩, hne⟩, user, -, -, -, h⟩ := h
  split at h
  · cases h
  · next m hget =>
    simp only [seq_eq_ok, need_eq_ok] at h
    obtain ⟨hseat, h⟩ := h
    split at h
    · exact Or.inl (pure_eq_ok.mp h).symm
    · obtain ⟨t, hchange, h⟩ := bind_eq_ok.mp h
      simp only [seq_eq_ok, need_eq_ok, pure_eq_ok] at h
      obtain ⟨-, rfl⟩ := h
      refine Or.inr ⟨m, hget, hseat, hne, howner, hadult, ?_⟩
      unfold changeRole at hchange
      split at hchange
      · simp only [seq_eq_ok, need_eq_ok, pure_eq_ok] at hchange
        exact Or.inl hchange.2.symm
      · split at hchange
        · exact Or.inr (Or.inr (Except.ok.inj hchange).symm)
        · split at hchange
          · exact Or.inr (Or.inl (Except.ok.inj hchange).symm)
          · cases hchange

theorem changeOrganizer_keeps {action : String}
    (h : changeOrganizer env a target action fails s = .ok s') : Keeps s s' := by
  rcases changeOrganizer_spec h with rfl | ⟨m, hget, hseat, hne, -, -, rfl | rfl | rfl⟩
  · exact Keeps.refl s'
  · exact Keeps.setRole .member hget hseat
  · exact Keeps.setRole .coOrganizer hget hseat
  · have howner : Keeps s { s with activity := { s.activity with owner := target } } :=
      Keeps.activity _ (fun _ hcap => Or.inl hcap) id
    exact (howner.trans (demoteOwner_keeps a.id _)).trans
      (Keeps.setRole .owner ((get?_demoteOwner hne _).trans hget) hseat)

/-! #### The three paths of admission -/

variable {override : Bool}

theorem ballot_eq_ok {approve : Bool} (h : ballot a target approve override s = .ok s') :
    (override = true ∧ s' = s) ∨
      (s' = s.setVote target a.id approve ∧ s.isSeated a.id = true) := by
  unfold ballot at h
  split at h
  · rename_i hoverride
    simp only [seq_eq_ok, need_eq_ok, pure_eq_ok] at h
    exact Or.inl ⟨hoverride, h.2.symm⟩
  · simp only [seq_eq_ok, need_eq_ok, pure_eq_ok] at h
    exact Or.inr ⟨h.2.2.symm, h.2.1⟩

variable {r : State × List Admission}

theorem decideVote_admits {r : State × List Admission} (hreq : s.isRequested target = true)
    (h : decideVote env target override fails s = .ok r) :
    Admits env s r.2 r.1 ∧ ∀ adm ∈ r.2, adm = ⟨s, target, override⟩ := by
  unfold decideVote at h
  split at h
  · rename_i hclears
    split at h
    · rename_i hsat
      unfold admissionGate at h
      obtain ⟨⟨⟩, hchecks, h⟩ := bind_eq_ok.mp h
      simp only [actorByID_bind_eq_ok, seq_eq_ok, need_eq_ok] at hchecks
      obtain ⟨user, huser, hcohort, hpart, hblocked, hroom⟩ := hchecks
      simp only [seq_eq_ok, need_eq_ok, pure_eq_ok] at h
      obtain ⟨-, rfl⟩ := h
      -- Every check of the gate has passed on the rows just before the update.
      have hgate : Gate env ⟨s, target, override⟩ :=
        { requested := hreq
          cohort := by rw [huser]; exact congrArg some (beq_iff_eq.mp hcohort)
          participates := (participates_of_participate hpart).1
          unblocked := by simpa using hblocked
          room := by simpa using hroom
          supervised := supervisionSatisfied_iff.mp hsat
          quorum := fun hoverride => by
            have hoverride : override = false := hoverride
            simpa [hoverride] using hclears }
      exact ⟨Admits.cons hgate (Admits.nil _), fun adm hadm => List.mem_singleton.mp hadm⟩
    · simp only [seq_eq_ok, need_eq_ok, pure_eq_ok] at h
      obtain ⟨-, -, rfl⟩ := h
      exact ⟨Admits.nil s, fun adm hadm => by cases hadm⟩
  · simp only [seq_eq_ok, need_eq_ok, pure_eq_ok] at h
    obtain ⟨-, rfl⟩ := h
    exact ⟨Admits.nil s, fun adm hadm => by cases hadm⟩

theorem vote_change {approve : Bool} (h : vote env a target approve override fails s = .ok r) :
    ∃ t, ((override = true ∧ t = s) ∨
        (t = s.setVote target a.id approve ∧ s.isSeated a.id = true)) ∧
      s.activity.status = .opened ∧ Admits env t r.2 r.1 ∧
      ∀ adm ∈ r.2, adm = ⟨t, target, override⟩ := by
  unfold vote at h
  simp only [seq_eq_ok, need_eq_ok] at h
  obtain ⟨-, -, -, hopen, h⟩ := h
  obtain ⟨t, hballot, h⟩ := bind_eq_ok.mp h
  rw [Bool.and_eq_true, beq_iff_eq] at hopen
  have ht := ballot_eq_ok hballot
  have hreq : t.isRequested target = true := by
    rcases ht with ⟨-, rfl⟩ | ⟨rfl, -⟩ <;> exact hopen.1
  exact ⟨t, ht, hopen.2, decideVote_admits hreq h⟩

theorem addGuardian_change {r : State × List Admission}
    (hplain : s.RequestsPlain) (h : addGuardian env a target fails s = .ok r) :
    Keeps s (s.setMembership target ⟨.guardian, .member⟩) ∧
      Admits env (s.setMembership target ⟨.guardian, .member⟩) r.2 r.1 := by
  unfold addGuardian at h
  simp only [actorByID_bind_eq_ok, seq_eq_ok, need_eq_ok, pure_eq_ok] at h
  obtain ⟨-, -, -, guardian, -, -, -, -, -, rfl⟩ := h
  have hkeeps : Keeps s (s.setMembership target ⟨.guardian, .member⟩) :=
    Keeps.setMembership target (fun h => by cases h) (fun h => by cases h)
  exact ⟨hkeeps, settlePending_admits (hplain.setMembership target fun h => by cases h)⟩

theorem setSupervision_change {supervised : Bool}
    (hplain : s.RequestsPlain) (h : setSupervision env a supervised fails s = .ok r) :
    s.activity.status = .opened ∧ Keeps s (withSupervision supervised s) ∧
      Admits env (withSupervision supervised s) r.2 r.1 := by
  unfold setSupervision at h
  simp only [seq_eq_ok, need_eq_ok, pure_eq_ok] at h
  obtain ⟨-, -, hcond, -, rfl⟩ := h
  simp only [Bool.and_eq_true, beq_iff_eq, Bool.not_eq_true', Bool.and_eq_false_iff,
    bne_eq_false_iff_eq] at hcond
  obtain ⟨⟨-, hopen⟩, hchild⟩ := hcond
  have hkeeps : Keeps s (withSupervision supervised s) := by
    refine Keeps.activity _ (fun _ hcap => Or.inl hcap) fun hpaired => ⟨fun hacc => ?_, fun hsup => ?_⟩
    · rcases Bool.or_eq_true _ _ ▸ hacc with hsup | hacc
      · rcases hchild with hfalse | hchild
        · rw [hfalse] at hsup
          cases hsup
        · exact hchild
      · exact hpaired.1 hacc
    · show (supervised || s.activity.guardianAccompanied) = true
      have hsup : supervised = true := hsup
      rw [hsup, Bool.true_or]
  exact ⟨hopen, hkeeps, settlePending_admits hplain⟩

end

/-! ### What a step can do -/

/-- Is the operation `AddGuardian`? -/
def Op.isAddGuardian : Op → Bool
  | .addGuardian _ _ _ => true
  | _ => false

variable {env : Env} {s : State}

/-- An operation writes rows that seat nobody, and then admits through the gate. Every path of
admission but `AddGuardian` requires an open activity. -/
theorem operate_change {op : Op} {r : State × List Admission}
    (hplain : s.RequestsPlain) (h : operate env s op = .ok r) :
    ∃ t, Keeps s t ∧ Admits env t r.2 r.1 ∧
      (r.2 = [] ∨ op.isAddGuardian = true ∨ t.activity.status = .opened) := by
  -- An operation without admissions is its own intermediate state.
  have hquiet : ∀ x : Except Error State, quiet x = .ok r → (∀ t, x = .ok t → Keeps s t) →
      ∃ t, Keeps s t ∧ Admits env t r.2 r.1 ∧
        (r.2 = [] ∨ op.isAddGuardian = true ∨ t.activity.status = .opened) := by
    intro x hx hkeeps
    obtain ⟨hstate, hlog⟩ := quiet_eq_ok.mp hx
    exact ⟨r.1, hkeeps r.1 hstate, hlog ▸ Admits.nil r.1, Or.inl hlog⟩
  cases op with
  | create =>
    refine hquiet _ h fun t ht => ?_
    cases ht
    exact Keeps.refl s
  | update => exact hquiet _ h fun _ => updateActivity_keeps
  | cancel => exact hquiet _ h fun _ => cancelActivity_keeps
  | move => exact hquiet _ h fun _ => moveActivity_keeps
  | autoComplete grace =>
    refine hquiet _ h fun t ht => ?_
    cases ht
    exact autoComplete_keeps env grace s
  | join => exact hquiet _ h fun _ => join_keeps
  | leave => exact hquiet _ h fun _ => leave_keeps
  | changeOrganizer => exact hquiet _ h fun _ => changeOrganizer_keeps
  | setHidden =>
    refine hquiet _ h fun t ht => ?_
    cases ht
    exact Keeps.activity _ (fun _ hcap => Or.inl hcap) id
  | erase u =>
    refine hquiet _ h fun t ht => ?_
    cases ht
    exact Keeps.eraseUser s u
  | vote =>
    -- The ballot is stored first; the decision is on the rows with it.
    obtain ⟨t, ht, hopen, hadmits, -⟩ := vote_change h
    have hkeeps : Keeps s t := by
      rcases ht with ⟨-, rfl⟩ | ⟨rfl, -⟩
      · exact Keeps.refl t
      · exact Keeps.votes _
    have hstatus : t.activity.status = .opened := by
      rcases ht with ⟨-, rfl⟩ | ⟨rfl, -⟩ <;> exact hopen
    exact ⟨t, hkeeps, hadmits, Or.inr (Or.inr hstatus)⟩
  | addGuardian =>
    obtain ⟨hkeeps, hadmits⟩ := addGuardian_change hplain h
    exact ⟨_, hkeeps, hadmits, Or.inr (Or.inl rfl)⟩
  | setSupervision =>
    obtain ⟨hopen, hkeeps, hadmits⟩ := setSupervision_change hplain h
    exact ⟨_, hkeeps, hadmits, Or.inr (Or.inr hopen)⟩

/-! ### What a chain of admissions keeps -/

theorem Gate.sound {u : Nat} {override : Bool}
    (h : Gate env ⟨s, u, override⟩) (hs : Sound s) : Sound (s.admitUser u) where
  plain := hs.plain.admitUser u
  within capacity hcap := by
    rw [State.activity_admitUser] at hcap
    rw [State.participantCount_admitUser hs.plain h.requested]
    exact State.isFull_eq_false.mp h.room capacity hcap
  paired := by
    rw [State.activity_admitUser]
    exact hs.paired

/-- A chain of admissions keeps the activity row and the invariant, and seats exactly the users
that it lists. -/
theorem Admits.spec {s' : State} {log : List Admission} (h : Admits env s log s') :
    s'.activity = s.activity ∧ (Sound s → Sound s') ∧
      (∀ u, s'.isSeated u = true → s.isSeated u = true ∨ ∃ adm ∈ log, adm.user = u) ∧
      ∀ adm ∈ log, Gate env adm ∧ adm.before.activity = s.activity := by
  induction h with
  | nil => exact ⟨rfl, id, fun u hu => Or.inl hu, fun adm hadm => by cases hadm⟩
  | @cons s s' u override log gate rest ih =>
    obtain ⟨hactivity, hsound, hseats, hlog⟩ := ih
    rw [State.activity_admitUser] at hactivity
    refine ⟨hactivity, fun hs => hsound (gate.sound hs), fun v hv => ?_, fun adm hadm => ?_⟩
    · rcases hseats v hv with hseated | ⟨adm, hadm, hv⟩
      · by_cases hvu : v = u
        · exact Or.inr ⟨_, List.mem_cons_self, hvu.symm⟩
        · rw [State.isSeated_admitUser_of_ne hvu] at hseated
          exact Or.inl hseated
      · exact Or.inr ⟨adm, List.mem_cons_of_mem _ hadm, hv⟩
    · rcases List.mem_cons.mp hadm with rfl | htail
      · exact ⟨gate, rfl⟩
      · obtain ⟨hgate, hbefore⟩ := hlog adm htail
        exact ⟨hgate, by rw [hbefore, State.activity_admitUser]⟩

/-! ### The creation -/

theorem isSeated_created {a : Actor} {input : ActivityInput} {guardianAccompanied : Bool}
    {u : Nat} : (created a input guardianAccompanied).isSeated u = true ↔ u = a.id := by
  unfold State.isSeated created
  simp only [KeyMap.get?_set, KeyMap.get?_empty]
  split <;> simp_all [Membership.isSeat]

theorem participantCount_created (a : Actor) (input : ActivityInput) (guardianAccompanied : Bool) :
    (created a input guardianAccompanied).participantCount = 1 := by
  have hcount := KeyMap.count_set (KeyMap.empty : KeyMap Nat Membership) a.id
    ⟨.owner, .member⟩ fun _ m => m.isSeat
  have hempty : (KeyMap.empty : KeyMap Nat Membership).count (fun _ m => m.isSeat) = 0 := rfl
  rw [KeyMap.get?_empty, hempty] at hcount
  exact hcount

theorem createActivity_sound {a : Actor} {input : ActivityInput} {fromSeries fails : Bool}
    (h : createActivity env a input fromSeries fails = .ok s) :
    Sound s ∧ participate env a = .ok () ∧
      (∀ capacity, s.activity.capacity = some capacity → 0 < capacity) ∧
      ∃ guardianAccompanied, s = created a input guardianAccompanied := by
  unfold createActivity ActivityInput.validate at h
  obtain ⟨u, hvalid, h⟩ := bind_eq_ok.mp h
  simp only [seq_eq_ok, need_eq_ok, pure_eq_ok] at hvalid h
  obtain ⟨-, hcapacity, -, -⟩ := hvalid
  obtain ⟨hpart, hchild, hacc, -, -, -, -, rfl⟩ := h
  simp only [Bool.and_eq_true] at hcapacity
  -- The validation asks for at least 1, and the column holds the same number.
  have hpos : ∀ capacity, (created a input
      (input.supervised || input.guardianAccompanied)).activity.capacity = some capacity →
      0 < capacity := by
    intro capacity hcap
    obtain ⟨n, hn, rfl⟩ := Option.map_eq_some_iff.mp hcap
    have hle : 1 ≤ n := by simpa [hn] using hcapacity.1.1
    omega
  refine ⟨⟨?_, ?_, ?_, ?_⟩, hpart, hpos, _, rfl⟩
  · intro v m hget hstate
    have hrow : m = ⟨.owner, .member⟩ := by
      simp only [created, KeyMap.get?_set, KeyMap.get?_empty] at hget
      split at hget
      · exact (Option.some.inj hget).symm
      · cases hget
    rw [hrow] at hstate
    cases hstate
  · intro capacity hcap
    rw [participantCount_created]
    exact hpos capacity hcap
  · intro hacc'
    have hacc' : (input.supervised || input.guardianAccompanied) = true := hacc'
    show a.user.cohort = .child
    simpa [hacc'] using hacc
  · intro hsup
    have hsup : input.supervised = true := hsup
    show (input.supervised || input.guardianAccompanied) = true
    rw [hsup, Bool.true_or]

end SocialActivities.Social.Go
