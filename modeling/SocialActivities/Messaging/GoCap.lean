import SocialActivities.Messaging.GoRosters
import SocialActivities.Messaging.Pairs

/-!
# `SocialActivities.Messaging.GoCap`: the size of a conversation (Go)

`Start`, `AddParticipant` and `AddGuardian` count the participants of a conversation before they
seat somebody. A start that reuses a direct chat does not count them, and revives the rows of the
two beside the observers who have come in the meantime; `Post` allows a direct chat no more than
the setting, which may be one.

`Capped` is the invariant. `roomy_run` is the statement about runs: where a start that reuses a chat
finds room in it, and the setting does not keep the two of a direct chat apart (`Fitting`), no
conversation outgrows its bound and no read refuses one. `crowded` has a run that breaks each.
-/

namespace SocialActivities.Messaging.Go

open Lib
open Social (Cohort)
open Social.Go (Actor Error)

/-- No conversation has outgrown its bound, and no read refuses one. -/
structure Roomy (cfg : Config) (s : State) : Prop where
  seats : ∀ c n, s.chats.natureOf c = some n → s.chats.seats c ≤ cfg.cap n.1
  reads : Readable cfg s

/-- A chat that a start reuses has room for the rows that are revived. Where a conversation may have
one member, nobody accepts a direct chat in which somebody is active. -/
structure Fitting (cfg : Config) (s : State) (act : Act) : Prop where
  start : ∀ a b found, Revives cfg s act a b found →
    s.chats.seats found + s.chats.participants.count (s.revived found a.id b.id) ≤ cfg.cap .direct
  accept : cfg.maxMembers = 1 → ∀ x u c cohort, act = .transition x u c .accept →
    (s.transition x u c .accept).isOk = true → s.chats.natureOf c = some (.direct, cohort) →
      s.chats.actives c = 0

/-- What holds of the sizes at all times. -/
structure Capped (cfg : Config) (s : State) : Prop where
  sound : s.chats.Sound
  seats : ∀ c n, s.chats.natureOf c = some n → s.chats.seats c ≤ cfg.cap n.1
  /-- Where a conversation may have one member, one of a direct chat is active, and there are no
  observers. -/
  single : cfg.maxMembers = 1 → ∀ c cohort, s.chats.natureOf c = some (.direct, cohort) →
    s.chats.actives c ≤ 1
  unobserved : cfg.maxMembers = 1 → ∀ key p, s.chats.participants.get? key = some p →
    p.role ≠ .guardian

section
variable {cfg : Config} {s t : State} {act : Act} {x : Reads} {a b : Actor} {c u found : Nat}

theorem Capped.within (h : Capped cfg s) : Within cfg s := by
  refine ⟨h.seats, fun c n hn => ?_⟩
  have hactives := s.chats.actives_le_seats c
  have hseats := h.seats c n hn
  have hone := cfg.one_le_maxMembers
  obtain ⟨kind, cohort⟩ := n
  cases kind with
  | group => exact Nat.le_trans hactives hseats
  | direct =>
    have hcap : s.chats.seats c ≤ max cfg.maxMembers 2 := hseats
    by_cases hmax : cfg.maxMembers = 1
    · have hsingle := h.single hmax c cohort hn
      omega
    · omega

theorem Capped.roomy (h : Capped cfg s) : Roomy cfg s := ⟨h.seats, h.within.readable⟩

theorem Capped.shrinks (hs : Capped cfg s) (h : s.chats.Shrinks t.chats) : Capped cfg t := by
  constructor
  · exact hs.sound.follows h.follows
  · intro c n hn
    rw [h.nature] at hn
    exact Nat.le_trans (h.seats_le c) (hs.seats c n hn)
  · intro hmax c cohort hn
    rw [h.nature] at hn
    exact Nat.le_trans (h.actives_le c) (hs.single hmax c cohort hn)
  · intro hmax key p hp
    obtain ⟨old, hold, hrole, -⟩ := h.rows key p hp
    exact hrole ▸ hs.unobserved hmax key old hold

/-- A row is put that leaves its own conversation within the bound. -/
theorem Capped.put {p : Participant} (hs : Capped cfg s) (hsound : (s.chats.put c u p).Sound)
    (hseats : ∀ n, s.chats.natureOf c = some n → (s.chats.put c u p).seats c ≤ cfg.cap n.1)
    (hsingle : cfg.maxMembers = 1 → ∀ cohort, s.chats.natureOf c = some (.direct, cohort) →
      (s.chats.put c u p).actives c ≤ 1)
    (hrole : cfg.maxMembers = 1 → p.role ≠ .guardian) :
    Capped cfg { s with chats := s.chats.put c u p } := by
  refine ⟨hsound, fun d n hn => ?_, fun hmax d cohort hn => ?_, fun hmax => ?_⟩
  · by_cases hd : d = c
    · exact hd ▸ hseats n (hd ▸ hn)
    · show (s.chats.put c u p).seats d ≤ _
      rw [(s.chats.counts_put_of_ne u p hd).1]
      exact hs.seats d n hn
  · by_cases hd : d = c
    · exact hd ▸ hsingle hmax cohort (hd ▸ hn)
    · show (s.chats.put c u p).actives d ≤ _
      rw [(s.chats.counts_put_of_ne u p hd).2]
      exact hs.single hmax d cohort hn
  · exact KeyMap.forall_set (hrole hmax) (hs.unobserved hmax)

/-! ### A start that reuses a chat -/

theorem seats_revive_le (s : State) (found a b c : Nat) :
    (s.revive found a b).chats.seats c ≤ s.chats.seats c +
      (if c = found then s.chats.participants.count (s.revived found a b) else 0) := by
  unfold Chats.seats State.revive
  dsimp only
  rw [KeyMap.count_mapRows]
  split
  · refine Nat.le_trans (KeyMap.count_le_count fun key p _ hseat => ?_)
      (KeyMap.count_or_le _ _ (s.revived found a b))
    rw [Bool.or_eq_true]
    cases hrevived : s.revived found a b key p with
    | true => exact Or.inr rfl
    | false =>
      rw [hrevived] at hseat
      exact Or.inl hseat
  · rename_i hc
    rw [Nat.add_zero]
    refine KeyMap.count_le_count fun key p _ hseat => ?_
    cases hrevived : s.revived found a b key p with
    | true =>
      -- The row would be in the chat that is reused.
      unfold State.revived at hrevived
      simp only [Bool.and_eq_true, beq_iff_eq] at hrevived hseat
      exact absurd (hseat.1.symm.trans hrevived.1.1.1) hc
    | false =>
      rw [hrevived] at hseat
      exact hseat

theorem active_of_revive {key : Nat × Nat} {p : Participant} {a b : Nat}
    (h : (s.revive found a b).chats.participants.get? key = some p) (hactive : p.isActive = true) :
    ∃ old, s.chats.participants.get? key = some old ∧
      (old.isActive = true ∨ key.2 = a ∧ s.revived found a b key old = true) := by
  have hmap : (s.chats.participants.mapRows _).get? key = some p := h
  rw [KeyMap.get?_mapRows] at hmap
  obtain ⟨old, hold, rfl⟩ := Option.map_eq_some_iff.mp hmap
  refine ⟨old, hold, ?_⟩
  cases hrevived : s.revived found a b key old with
  | false =>
    rw [hrevived] at hactive
    exact Or.inl hactive
  | true =>
    rw [hrevived, if_pos rfl] at hactive
    by_cases ha : key.2 = a
    · exact Or.inr ⟨ha, rfl⟩
    · -- The peer is invited.
      rw [if_neg ha] at hactive
      cases hactive

theorem Capped.actives_revive (hs : Capped cfg s) (hreuses : Reuses s x a b found)
    (hmax : cfg.maxMembers = 1) {cohort : Cohort}
    (hn : s.chats.natureOf c = some (.direct, cohort)) :
    (s.revive found a.id b.id).chats.actives c ≤ 1 := by
  by_cases hstarter : ∃ old, s.chats.participants.get? (c, a.id) = some old ∧
      s.revived found a.id b.id (c, a.id) old = true
  · -- The starter is the only active one, as the peer is not.
    obtain ⟨old, hold, hrevived⟩ := hstarter
    have hone : (s.revive found a.id b.id).chats.actives c ≤ [(c, a.id)].length := by
      refine KeyMap.count_le_length fun key p hp hfound => ?_
      rw [Bool.and_eq_true, beq_iff_eq] at hfound
      obtain ⟨rfl, hactive⟩ := hfound
      obtain ⟨row, hrow, hcase⟩ := active_of_revive hp hactive
      unfold State.revived at hrevived
      simp only [Bool.and_eq_true, Bool.or_eq_true, beq_iff_eq, Bool.not_eq_true'] at hrevived
      obtain ⟨⟨⟨hc, -⟩, -⟩, hpeer⟩ := hrevived
      have hab : a.id ≠ b.id := (pair_spec hreuses.pair).1
      have hquiet := hpeer.resolve_left hab
      obtain ⟨-, -, -, ⟨p₁, h₁⟩, ⟨p₂, h₂⟩⟩ := Chats.directOf_spec hreuses.found
      have hfounders : key.2 = a.id ∨ key.2 = b.id :=
        hs.sound.founders_eq hn hab (hc ▸ h₁) (hs.unobserved hmax _ p₁ h₁) (hc ▸ h₂)
          (hs.unobserved hmax _ p₂ h₂) hrow (hs.unobserved hmax _ row hrow)
      rcases hfounders with ha | hb
      · exact List.mem_singleton.mpr (Prod.ext rfl ha)
      · exfalso
        rcases hcase with hwas | ⟨ha, -⟩
        · have hkey : key = (found, b.id) := Prod.ext hc hb
          rw [← hkey, hrow, Option.any_some, hwas] at hquiet
          cases hquiet
        · exact hab (ha.symm.trans hb)
    exact hone
  · refine Nat.le_trans (KeyMap.count_le_of_keys fun key p hp hfound => ?_)
      (hs.single hmax c cohort hn)
    rw [Bool.and_eq_true, beq_iff_eq] at hfound
    obtain ⟨rfl, hactive⟩ := hfound
    obtain ⟨old, hold, hwas | ⟨ha, hrevived⟩⟩ := active_of_revive hp hactive
    · exact ⟨old, hold, by simp [hwas]⟩
    · have hkey : key = (key.1, a.id) := Prod.ext rfl ha
      exact absurd ⟨old, hkey ▸ hold, hkey ▸ hrevived⟩ hstarter

theorem Capped.revive (hs : Capped cfg s) (hreuses : Reuses s x a b found)
    (hroom : s.chats.seats found + s.chats.participants.count (s.revived found a.id b.id) ≤
      cfg.cap .direct) : Capped cfg (s.revive found a.id b.id) := by
  constructor
  · exact hs.sound.follows (follows_revive s found a.id b.id)
  · intro c n hn
    have hn' : s.chats.natureOf c = some n := hn
    have hcount := seats_revive_le s found a.id b.id c
    split at hcount
    · rename_i hc
      obtain ⟨v, hv, hdirect, -⟩ := Chats.directOf_spec hreuses.found
      have hkind : n.1 = .direct := by
        rw [hc] at hn'
        have hnature : s.chats.natureOf found = some (v.kind, v.cohort) := by
          show (s.chats.conversations.get? found).map _ = _
          rw [hv]
          rfl
        rw [hnature] at hn'
        rw [← Option.some.inj hn', ← hdirect]
      rw [hkind]
      rw [hc] at hcount ⊢
      exact Nat.le_trans hcount hroom
    · exact Nat.le_trans hcount (hs.seats c n hn')
  · intro hmax c cohort hn
    exact hs.actives_revive hreuses hmax hn
  · intro hmax key p hp
    obtain ⟨old, hold, hrole⟩ := (follows_revive s found a.id b.id).rows key p hp
    exact hrole ▸ hs.unobserved hmax key old hold

/-! ### Runs -/

theorem Capped.opening (hs : Capped cfg s) {kind : Kind} {targets : List Actor}
    (hopens : Opens cfg s x a kind targets) (text : String) (now : Nat)
    (hsound : (s.chats.start kind text a.user.cohort a.id (targets.map Actor.id) now).Sound) :
    Capped cfg { s with
      chats := s.chats.start kind text a.user.cohort a.id (targets.map Actor.id) now } := by
  have hnew := hs.sound.counts_start kind text a.user.cohort a.id (targets.map Actor.id) now
  rw [List.length_map] at hnew
  refine ⟨hsound, fun c n hn => ?_, fun hmax c cohort hn => ?_, fun hmax key p hp => ?_⟩
  · have hn' := (Chats.natureOf_start ..).symm.trans hn
    split at hn'
    · rename_i hc
      cases hn'
      refine hc ▸ Nat.le_trans hnew.1 ?_
      cases kind with
      | group => exact hopens.group rfl
      | direct =>
        obtain ⟨b, rfl, -⟩ := hopens.direct rfl
        exact Nat.le_max_right _ _
    · rename_i hc
      exact Nat.le_trans (Chats.counts_start_of_ne _ _ _ _ _ _ _ hc).1 (hs.seats c n hn')
  · have hn' := (Chats.natureOf_start ..).symm.trans hn
    split at hn'
    · rename_i hc
      exact hc ▸ hnew.2
    · rename_i hc
      exact Nat.le_trans (Chats.counts_start_of_ne _ _ _ _ _ _ _ hc).2 (hs.single hmax c cohort hn')
  · have hp' := hp
    rw [Chats.get?_start] at hp'
    split at hp'
    · cases hp'
      exact PartRole.noConfusion
    · split at hp'
      · cases hp'
        exact PartRole.noConfusion
      · exact hs.unobserved hmax key p hp'

theorem capped_step (hs : Capped cfg s) (hguard : Fitting cfg s act) :
    Capped cfg (s.step cfg act) := by
  have hsound : (s.step cfg act).chats.Sound := sound_step hs.sound act
  generalize ht : s.step cfg act = t at hsound
  have heffect : Effect cfg s act t := ht ▸ effect_step cfg s act
  cases heffect with
  | ends _ _ hends => exact hs.shrinks hends.shrinks
  | reuse _ a b found hrevives =>
    have hroom := hguard.start a b found hrevives
    obtain ⟨x, kind, names, title, t', -, -, hreuses, -⟩ := hrevives
    exact hs.revive hreuses hroom
  | opening x a kindText names title kind targets text hopens =>
    exact hs.opening hopens text x.env.now hsound
  | join x a c p kind hfresh hrow hinvited hnature hok =>
    have hseats := s.chats.seats_put c a.id { p with state := .active, joinedAt := some x.env.now }
    have hactives := s.chats.actives_put c a.id { p with
      state := .active, joinedAt := some x.env.now }
    have hwas : p.isSeated = true ∧ p.isActive = false := by
      simp [Participant.isSeated, Participant.isActive, hinvited]
    -- The row had a seat and was not active.
    rw [hrow, Option.any_some, hwas.1, if_pos rfl, if_pos (by rfl)] at hseats
    rw [hrow, Option.any_some, hwas.2, if_neg Bool.false_ne_true, if_pos (by rfl)] at hactives
    have hput : Capped cfg { s with chats := s.chats.put c a.id { p with
        state := .active, joinedAt := some x.env.now } } := by
      refine hs.put (hs.sound.follows (Chats.Follows.put hrow rfl)) (fun n hn => ?_)
        (fun hmax cohort hn => ?_) fun hmax => hs.unobserved hmax (c, a.id) p hrow
      · have hbound := hs.seats c n hn
        omega
      · have hquiet := hguard.accept hmax x a.id c cohort rfl hok hn
        omega
    exact hput.shrinks (shrinks_pruneObservers _ c)
  | add x a c username b htarget hgroup hassigned hout hroom hok =>
    have hseats := s.chats.seats_put c b.id (s.addedRow c b.id a.id)
    have hle : (if (s.addedRow c b.id a.id).isSeated = true then 1 else 0) ≤ 1 := by
      split
      · exact Nat.le_refl 1
      · exact Nat.zero_le 1
    refine hs.put hsound (fun n hn => ?_) (fun hmax cohort hn => ?_) fun hmax => ?_
    · rw [hgroup] at hn
      cases hn
      show _ ≤ cfg.maxMembers
      omega
    · rw [hgroup] at hn
      cases hn
    · exact guardian_addedRow hout fun p hp _ => hs.unobserved hmax (c, b.id) p hp
  | observe x u c heligible hout hroom =>
    have hseats := s.chats.seats_put c u (s.observerRow c u x.env.now)
    have hle : (if (s.observerRow c u x.env.now).isSeated = true then 1 else 0) ≤ 1 := by
      split
      · exact Nat.le_refl 1
      · exact Nat.zero_le 1
    -- The ward has a seat, so there is no room for an observer where one may have a seat.
    have hward : 0 < s.chats.seats c := by
      obtain ⟨key, q, hq, hfound⟩ := KeyMap.anyRow_eq_true.mp (guardianEligible_spec heligible).2.2
      simp only [Bool.and_eq_true] at hfound
      refine KeyMap.count_pos_of_get? hq ?_
      rw [Bool.and_eq_true]
      exact ⟨hfound.1.1.1.1, Participant.isSeated_of_isActive hfound.1.1.1.2⟩
    refine hs.put hsound (fun n hn => ?_) (fun hmax cohort hn => ?_) fun hmax => ?_
    · have hcap := cfg.maxMembers_le_cap n.1
      omega
    · omega
    · omega

theorem capped_empty (cfg : Config) : Capped cfg State.empty :=
  ⟨Chats.sound_empty, fun _ _ h => (by cases h), fun _ _ _ h => (by cases h),
    fun _ _ _ h => (by cases h)⟩

/-- In a run whose steps all fit, no conversation outgrows its bound, and no read refuses one. -/
theorem roomy_run (cfg : Config) (acts : List Act)
    (hguard : ∀ q ∈ Machine.steps (State.step cfg) State.empty acts, Fitting cfg q.1 q.2) :
    ∀ before rest, acts = before ++ rest → Roomy cfg (after cfg before) := by
  intro before rest hacts
  have hcapped : Capped cfg (after cfg before) := by
    refine @Machine.run_guarded _ _ (State.step cfg) (Capped cfg) (Fitting cfg)
      (fun s act hs hg => capped_step hs hg) _ (capped_empty cfg) _ fun q hq => hguard q ?_
    rw [hacts, Machine.steps_append]
    exact List.mem_append_left _ hq
  exact hcapped.roomy

theorem fitting_of (hstart : ∀ x u kind names title, act ≠ .start x u kind names title)
    (hmax : cfg.maxMembers ≠ 1) : Fitting cfg s act := by
  refine ⟨fun a b found h => ?_, fun hone => absurd hone hmax⟩
  obtain ⟨x, kind, names, title, t', hact, -⟩ := h
  exact absurd hact (hstart _ _ _ _ _)

end

/-- One of two teenagers leaves their chat, and the other one invites them again. -/
def reinvited : List Act :=
  opened ++ [.transition sampleReads 2 1 .leave, .start sampleReads 1 "direct" ["two"] ""]

/-- There is room for the two in their chat. -/
theorem roomy_reinvited : Roomy ⟨2⟩ (after ⟨2⟩ reinvited) := by
  refine roomy_run ⟨2⟩ reinvited ?_ reinvited [] (List.append_nil _).symm
  have hfirst : Fitting ⟨2⟩ (after ⟨2⟩ (reinvited.take 4))
      (.start sampleReads 1 "direct" ["two"] "") := by
    refine ⟨fun a b found h => ?_, fun hone => absurd hone (by decide)⟩
    obtain ⟨-, hnames, hfound⟩ := h.of_start
    have hread : (after ⟨2⟩ (reinvited.take 4)).target "two" =
        .ok ⟨2, ⟨.age1617, .teen, "user", true, true, false, false⟩⟩ := by decide +kernel
    have hnone : (after ⟨2⟩ (reinvited.take 4)).chats.directOf id 1 2 = none := by decide +kernel
    rw [Except.ok.inj ((hnames "two" (by simp)).symm.trans hread), hnone] at hfound
    cases hfound
  have hagain : Fitting ⟨2⟩ (after ⟨2⟩ (reinvited.take 7))
      (.start sampleReads 1 "direct" ["two"] "") := by
    refine ⟨fun a b found h => ?_, fun hone => absurd hone (by decide)⟩
    obtain ⟨hone, hnames, hfound⟩ := h.of_start
    have hread : (after ⟨2⟩ (reinvited.take 7)).target "two" =
        .ok ⟨2, ⟨.age1617, .teen, "user", true, true, false, false⟩⟩ := by decide +kernel
    have hchat : (after ⟨2⟩ (reinvited.take 7)).chats.directOf id 1 2 = some 1 := by
      decide +kernel
    rw [Except.ok.inj ((hnames "two" (by simp)).symm.trans hread)] at hfound ⊢
    rw [hchat] at hfound
    cases hfound
    rw [hone]
    decide +kernel
  simp only [reinvited, opened, List.cons_append, List.nil_append, Machine.steps,
    List.forall_mem_cons]
  have hmax : (⟨2⟩ : Config).maxMembers ≠ 1 := by decide
  exact ⟨fitting_of (by simp) hmax, fitting_of (by simp) hmax, fitting_of (by simp) hmax,
    fitting_of (by simp) hmax, hfirst, fitting_of (by simp) hmax, fitting_of (by simp) hmax, hagain,
    fun q hq => (by cases hq)⟩

/-- A child leaves a chat, the guardian of the other child observes it, and the other child invites
the first one again. -/
def filled : List Act :=
  observed.take 16 ++ [.transition sampleReads 4 1 .leave, .addGuardian sampleReads 1 1,
    .start sampleReads 3 "direct" ["friend"] ""]

/-- Three have seats where two may, and the two of a direct chat cannot write to each other where a
conversation may have one member. -/
theorem crowded : ¬Roomy ⟨2⟩ (after ⟨2⟩ filled) ∧ ¬Roomy ⟨1⟩ (after ⟨1⟩ opened) := by
  constructor
  · intro hroomy
    have hnature : (after ⟨2⟩ filled).chats.natureOf 1 = some (.direct, .child) := by
      decide +kernel
    have hseats : (after ⟨2⟩ filled).chats.seats 1 = 3 := by decide +kernel
    have hbound := hroomy.seats 1 _ hnature
    rw [hseats] at hbound
    exact absurd hbound (by decide)
  · intro hroomy
    have hwrite : (after ⟨1⟩ opened).canWrite sampleReads 1 1 = .ok () := by decide +kernel
    have hmembers : (after ⟨1⟩ opened).members 1 = [1, 2] := by decide +kernel
    have hposts := hroomy.reads.posts sampleReads 1 1 [⟨1, true⟩, ⟨2, true⟩] rfl rfl hwrite
      (by rw [hmembers]; exact List.Perm.refl _) (by simp)
    have hrefused : ((after ⟨1⟩ opened).post sampleReads ⟨1⟩ 1 1 [⟨1, true⟩, ⟨2, true⟩]
        true).isOk = false := by decide +kernel
    rw [hrefused] at hposts
    cases hposts

end SocialActivities.Messaging.Go
