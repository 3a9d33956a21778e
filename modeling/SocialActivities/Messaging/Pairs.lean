import SocialActivities.Messaging.GoEffects
import SocialActivities.Messaging.PyConversations

/-!
# `SocialActivities.Messaging.Pairs`: a direct chat belongs to its pair (Go and Python)

`Go.PairLaw` and `Py.PairLaw` say of a run that every start of a direct chat that succeeds returns
the chat of its pair in their cohort, and that no start changes an observer's row.

Both services look for a direct chat in which the two have any rows, whatever their roles, and
whatever the cohort of the chat. So the law holds exactly in the runs in which every such start
finds the tables clear (`pair_law`). Two guardians who observe their children's chat, and two
users who have come of age together, break it (`observers_handed`, `grown_handed`).
-/

namespace SocialActivities.Messaging

open Lib
open Social (Cohort)
open Social.Go (Actor)

namespace Go

/-- A step starts a direct chat of `a` with `b`, and returns `c`. -/
def StartsDirect (cfg : Config) (s : State) (act : Act) (a b : Actor) (c : Nat) : Prop :=
  ∃ x u kind names title t, act = .start x u kind names title ∧
    State.parseKind kind = some .direct ∧ s.accounts.actor u = .ok a ∧
    names ≠ [] ∧ (∀ name ∈ names, s.target name = .ok b) ∧
    s.start x cfg u kind names title = .ok (t, c)

/-- What the law says about a run. -/
structure PairLaw (cfg : Config) (acts : List Act) : Prop where
  pair : ∀ q ∈ Machine.steps (State.step cfg) State.empty acts, ∀ a b c,
    StartsDirect cfg q.1 q.2 a b c →
      Belongs q.1.chats (q.1.step cfg q.2).chats c a.id b.id a.user.cohort
  observers : ∀ q ∈ Machine.steps (State.step cfg) State.empty acts, ∀ x u kind names title,
    q.2 = .start x u kind names title → ∀ key p, q.1.chats.participants.get? key = some p →
      p.role = .guardian →
        ∃ p', (q.1.step cfg q.2).chats.participants.get? key = some p' ∧ p'.state = p.state

/-- The state after a run. -/
def after (cfg : Config) (acts : List Act) : State := Machine.run (State.step cfg) State.empty acts

/-- Every direct start of a run finds the tables clear. -/
def StartsClear (cfg : Config) (acts : List Act) : Prop :=
  ∀ q ∈ Machine.steps (State.step cfg) State.empty acts, ∀ a b c,
    StartsDirect cfg q.1 q.2 a b c → Clear q.1.chats id a.id b.id a.user.cohort

section
variable {cfg : Config} {s t : State} {act : Act} {a b : Actor} {c : Nat}

theorem revive_rows (s : State) (found a b : Nat) (key : Nat × Nat) :
    ((s.revive found a b).chats.participants.get? key).map Participant.role =
        (s.chats.participants.get? key).map Participant.role ∧
      (key ≠ (found, a) → key ≠ (found, b) →
        (s.revive found a b).chats.participants.get? key = s.chats.participants.get? key) := by
  have hrow : (s.revive found a b).chats.participants.get? key =
      (s.chats.participants.get? key).map fun p =>
        if s.revived found a b key p then
          if key.2 = a then { p with state := .active }
          else { p with state := .invited, invitedBy := some a }
        else p := KeyMap.get?_mapRows ..
  rw [hrow]
  cases s.chats.participants.get? key with
  | none => exact ⟨rfl, fun _ _ => rfl⟩
  | some p =>
    constructor
    · show some (Participant.role (if _ then _ else _)) = some p.role
      split
      · split
        · rfl
        · rfl
      · rfl
    · intro hna hnb
      -- The update selects rows of the two only.
      have hnot : s.revived found a b key p = false := by
        unfold State.revived
        by_cases hc : key.1 = found
        · have ha : key.2 ≠ a := fun h => hna (Prod.ext hc h)
          have hb : key.2 ≠ b := fun h => hnb (Prod.ext hc h)
          simp [ha, hb]
        · simp [hc]
      show some (if _ then _ else _) = some p
      rw [hnot]
      rfl

theorem follows_revive (s : State) (found a b : Nat) :
    s.chats.Follows (s.revive found a b).chats := by
  refine ⟨rfl, fun _ => rfl, fun key p hp => ?_⟩
  have hroles := (revive_rows s found a b key).1
  rw [hp] at hroles
  obtain ⟨old, hold, hrole⟩ := Option.map_eq_some_iff.mp hroles.symm
  exact ⟨old, hold, hrole.symm⟩

theorem sound_step (hs : s.chats.Sound) (act : Act) : (s.step cfg act).chats.Sound := by
  generalize ht : s.step cfg act = t
  have heffect : Effect cfg s act t := ht ▸ effect_step cfg s act
  cases heffect with
  | ends _ _ h => exact hs.follows h.shrinks.follows
  | reuse _ a b found =>
    exact hs.follows (follows_revive s found a.id b.id)
  | opening x a kindText names title kind targets text h =>
    refine hs.start _ _ a.id _ fun hdirect => ?_
    obtain ⟨b, hsingle, -⟩ := h.direct hdirect
    exact ⟨b.id, by rw [hsingle]; rfl⟩
  | join x a c p kind hfresh hrow =>
    have hput : (s.chats.put c a.id { p with
        state := .active, joinedAt := some x.env.now }).Sound :=
      hs.follows (Chats.Follows.put hrow rfl)
    exact hput.follows (shrinks_pruneObservers { s with chats := s.chats.put c a.id _ } c).follows
  | add x a c username b htarget hgroup =>
    exact hs.put (hs.conversations c _ hgroup) (Or.inr ⟨_, hgroup⟩)
  | observe x u c heligible =>
    obtain ⟨-, ⟨k, hchild⟩, -⟩ := guardianEligible_spec heligible
    refine hs.put (hs.conversations c _ hchild) (Or.inl ?_)
    unfold State.observerRow
    split <;> rfl

theorem sound_steps (cfg : Config) (acts : List Act) :
    ∀ q ∈ Machine.steps (State.step cfg) State.empty acts, q.1.chats.Sound :=
  @Machine.steps_invariant _ _ (State.step cfg) (fun s => s.chats.Sound)
    (fun _ act hs => sound_step hs act) _ Chats.sound_empty acts

theorem StartsDirect.belongs_iff (hs : s.chats.Sound) (h : StartsDirect cfg s act a b c) :
    Belongs s.chats (s.step cfg act).chats c a.id b.id a.user.cohort ↔
      Clear s.chats id a.id b.id a.user.cohort := by
  obtain ⟨x, u, kind, names, title, t, rfl, hkind, hactor, hsome, hnames, hstart⟩ := h
  have hstep : s.step cfg (.start x u kind names title) = t := by
    show ((s.start x cfg u kind names title).toOption.map Prod.fst).getD s = t
    rw [hstart]
    rfl
  rw [hstep]
  obtain ⟨-, k, a', hkind', rfl, hcase⟩ := start_spec hstart
  rw [hkind] at hkind'
  cases hkind'
  obtain ⟨name, rest, rfl⟩ := List.exists_cons_of_ne_nil hsome
  have hpeer : ∀ {b'}, (∀ n ∈ name :: rest, s.target n = .ok b') → b' = b := by
    intro b' hb'
    have htarget := hb' name List.mem_cons_self
    rw [hnames name List.mem_cons_self] at htarget
    exact (Except.ok.inj htarget).symm
  rcases hcase with ⟨-, b', hreuses, hb', rfl⟩ | ⟨targets, hopens, rfl, hb', text, rfl⟩
  · have hsame := hpeer hb'
    subst hsame
    have hself : a' = a := by
      rw [hreuses.fresh] at hactor
      exact Except.ok.inj hactor
    subst hself
    exact belongs_reuse_iff hs (pair_spec hreuses.pair).1 hreuses.found rfl
      (fun key => (revive_rows s c _ _ key).1) (fun key => (revive_rows s c _ _ key).2)
  · obtain ⟨b', hsingle, hnone⟩ := hopens.direct rfl
    have hsame := hpeer (hb' b' rfl hsingle)
    subst hsame
    have hself : a' = a := by
      rw [hopens.fresh] at hactor
      exact Except.ok.inj hactor
    subst hself
    rw [hsingle]
    constructor
    · intro _ d hd
      rw [hnone] at hd
      cases hd
    · intro _
      exact belongs_start hs text x.env.now

theorem pairLaw_iff (cfg : Config) (acts : List Act) :
    PairLaw cfg acts ↔ StartsClear cfg acts := by
  constructor
  · intro hlaw q hq a b c hstarts
    exact (hstarts.belongs_iff (sound_steps cfg acts q hq)).mp (hlaw.pair q hq a b c hstarts)
  · intro hclear
    have hpair : ∀ q ∈ Machine.steps (State.step cfg) State.empty acts, ∀ a b c,
        StartsDirect cfg q.1 q.2 a b c →
          Belongs q.1.chats (q.1.step cfg q.2).chats c a.id b.id a.user.cohort := by
      intro q hq a b c hstarts
      exact (hstarts.belongs_iff (sound_steps cfg acts q hq)).mpr (hclear q hq a b c hstarts)
    refine ⟨hpair, ?_⟩
    intro q hq x u kind names title hact key p hp hguardian
    have hs := sound_steps cfg acts q hq
    have hstep : q.1.step cfg q.2 =
        ((q.1.start x cfg u kind names title).toOption.map Prod.fst).getD q.1 := by
      rw [hact]
      rfl
    cases hstart : q.1.start x cfg u kind names title with
    | error =>
      rw [hstep, hstart]
      exact ⟨p, hp, rfl⟩
    | ok result =>
      obtain ⟨t, c⟩ := result
      obtain ⟨hsome, k, a, hkind, hid, hcase⟩ := start_spec hstart
      rcases hcase with ⟨rfl, b, hreuses, hnames, -⟩ | ⟨targets, hopens, -, -, text, ht⟩
      · -- A reuse is a direct start, so the promise covers the observers.
        have hstarts : StartsDirect cfg q.1 q.2 a b c :=
          ⟨x, u, kind, names, title, t, hact, hkind, hid ▸ hreuses.fresh, hsome, hnames, hstart⟩
        exact (hpair q hq a b c hstarts).observers key p hp hguardian
      · rw [hstep, hstart, ht]
        exact ⟨p, hs.start_keeps hp, rfl⟩

end

end Go

namespace Py

/-- The state after a run. -/
def after (acts : List Act) : State := Machine.run State.step State.empty acts

/-- A step starts a direct chat of `a` with `b`, and returns `c`. -/
def StartsDirect (s : State) (act : Act) (x : Reads) (a b c : Nat) : Prop :=
  act = .startDirect x a b ∧ ∃ t, s.startDirect x a b = .ok (t, c)

/-- A step starts a conversation. -/
def Act.IsStart : Act → Prop
  | .startDirect _ _ _ => True
  | .startGroup _ _ _ _ _ => True
  | _ => False

/-- What the law says about a run. -/
structure PairLaw (acts : List Act) : Prop where
  pair : ∀ q ∈ Machine.steps State.step State.empty acts, ∀ x a b c,
    StartsDirect q.1 q.2 x a b c → Belongs q.1.chats (q.1.step q.2).chats c a b (q.1.cohort a)
  observers : ∀ q ∈ Machine.steps State.step State.empty acts, q.2.IsStart →
    ∀ key p, q.1.chats.participants.get? key = some p → p.role = .guardian →
      ∃ p', (q.1.step q.2).chats.participants.get? key = some p' ∧ p'.state = p.state

/-- Every direct start of a run finds the tables clear. -/
def StartsClear (acts : List Act) : Prop :=
  ∀ q ∈ Machine.steps State.step State.empty acts, ∀ x a b c,
    StartsDirect q.1 q.2 x a b c → Clear q.1.chats x.tie a b (q.1.cohort a)

section
variable {s : State} {act : Act} {x : Reads} {a b c : Nat}

theorem sound_steps (acts : List Act) :
    ∀ q ∈ Machine.steps State.step State.empty acts, q.1.chats.Sound :=
  @Machine.steps_invariant _ _ State.step (fun s => s.chats.Sound)
    (fun _ act hs => sound_step hs act) _ Chats.sound_empty acts

theorem StartsDirect.belongs_iff (hs : s.chats.Sound) (h : StartsDirect s act x a b c) :
    Belongs s.chats (s.step act).chats c a b (s.cohort a) ↔
      Clear s.chats x.tie a b (s.cohort a) := by
  obtain ⟨rfl, t, hstart⟩ := h
  have hstep : s.step (.startDirect x a b) = t := by
    show ((s.startDirect x a b).toOption.map Prod.fst).getD s = t
    rw [hstart]
    rfl
  rw [hstep]
  obtain ⟨hcan, ⟨hfound, rfl⟩ | ⟨hnone, rfl, rfl⟩⟩ := startDirect_spec hstart
  · have hne : a ≠ b := by
      unfold State.canMessage at hcan
      simp only [Bool.and_eq_true, bne_iff_ne] at hcan
      exact hcan.1.1.1.1.1.1.1
    exact belongs_reuse_iff hs hne hfound rfl (fun _ => rfl) fun _ _ _ => rfl
  · constructor
    · intro _ d hd
      rw [hnone] at hd
      cases hd
    · intro _
      exact belongs_start hs "" x.env.now

theorem start_keeps (hs : s.chats.Sound) (hstart : act.IsStart) {key : Nat × Nat} {p : Participant}
    (hp : s.chats.participants.get? key = some p) :
    (s.step act).chats.participants.get? key = some p := by
  cases act with
  | startDirect x a b =>
    show (((s.startDirect x a b).toOption.map Prod.fst).getD s).chats.participants.get? key = _
    cases hresult : s.startDirect x a b with
    | error => exact hp
    | ok result =>
      obtain ⟨t, c⟩ := result
      obtain ⟨-, ⟨-, rfl⟩ | ⟨-, -, rfl⟩⟩ := startDirect_spec hresult
      · exact hp
      · exact hs.start_keeps hp
  | startGroup x maxMembers a targets title =>
    show (((s.startGroup x maxMembers a targets title).toOption.map
      Prod.fst).getD s).chats.participants.get? key = _
    cases hresult : s.startGroup x maxMembers a targets title with
    | error => exact hp
    | ok result =>
      obtain ⟨t, c⟩ := result
      unfold State.startGroup at hresult
      rw [seq_eq_ok, seq_eq_ok, seq_eq_ok, seq_eq_ok, seq_eq_ok, pure_eq_ok] at hresult
      obtain ⟨rfl, rfl⟩ := Prod.mk.inj hresult.2.2.2.2.2
      exact hs.start_keeps hp
  | _ => cases hstart

theorem pairLaw_iff (acts : List Act) : PairLaw acts ↔ StartsClear acts := by
  constructor
  · intro hlaw q hq x a b c hstarts
    exact (hstarts.belongs_iff (sound_steps acts q hq)).mp (hlaw.pair q hq x a b c hstarts)
  · intro hclear
    constructor
    · intro q hq x a b c hstarts
      exact (hstarts.belongs_iff (sound_steps acts q hq)).mpr (hclear q hq x a b c hstarts)
    · intro q hq hstart key p hp _
      exact ⟨p, start_keeps (sound_steps acts q hq) hstart hp, rfl⟩

end

end Py

/-- A run of either service keeps the law exactly when all its direct starts find the tables
clear. -/
theorem pair_law (cfg : Go.Config) (acts : List Go.Act) (acts' : List Py.Act) :
    (Go.PairLaw cfg acts ↔ Go.StartsClear cfg acts) ∧ (Py.PairLaw acts' ↔ Py.StartsClear acts') :=
  ⟨Go.pairLaw_iff cfg acts, Py.pairLaw_iff acts'⟩

/-! ### Chats of others -/

/-- A run that ends with a start that returns a chat of others breaks the law. -/
theorem Go.not_pairLaw {cfg : Go.Config} {acts : List Go.Act} {x : Go.Reads} {a b : Actor}
    {name : String} {c : Nat} (ha : (Go.after cfg acts).accounts.actor a.id = .ok a)
    (hb : (Go.after cfg acts).target name = .ok b)
    (hresult : ((Go.after cfg acts).start x cfg a.id "direct" [name] "").toOption.map Prod.snd =
      some c)
    (hclear : ¬Clear (Go.after cfg acts).chats id a.id b.id a.user.cohort) :
    ¬Go.PairLaw cfg (acts ++ [.start x a.id "direct" [name] ""]) := by
  intro hlaw
  have hstep : (Go.after cfg acts, .start x a.id "direct" [name] "") ∈
      Machine.steps (Go.State.step cfg) Go.State.empty
        (acts ++ [.start x a.id "direct" [name] ""]) :=
    (Machine.mem_steps _).mpr ⟨acts, [], rfl, rfl⟩
  refine hclear ((Go.pairLaw_iff cfg _).mp hlaw _ hstep a b c ?_)
  cases hstart : (Go.after cfg acts).start x cfg a.id "direct" [name] "" with
  | error =>
    rw [hstart] at hresult
    cases hresult
  | ok result =>
    rw [hstart] at hresult
    cases hresult
    exact ⟨x, a.id, "direct", [name], "", result.1, rfl, rfl, ha, List.cons_ne_nil _ _,
      fun n hn => List.mem_singleton.mp hn ▸ hb, hstart⟩

def Go.sampleReads : Go.Reads := ⟨Guardians.Go.sampleEnv, fun _ => true, true, false⟩

/-- Two children have a direct chat, and a guardian of each of them observes it. -/
def Go.observed : List Go.Act :=
  [.account 1 (Guardians.Go.newAccount "mother"), .ageVerify Go.sampleReads 1 true true,
    .account 2 (Guardians.Go.newAccount "father"), .ageVerify Go.sampleReads 2 true true,
    .account 3 (Guardians.Go.newAccount "child"), .ageVerify Go.sampleReads 3 false false,
    .account 4 (Guardians.Go.newAccount "friend"), .ageVerify Go.sampleReads 4 false false,
    .inviteWard Go.sampleReads Guardians.Go.sampleConfig 5 1 3 "" "one",
    .acceptGuardian Go.sampleReads Guardians.Go.sampleConfig 5 3 "one",
    .inviteWard Go.sampleReads Guardians.Go.sampleConfig 5 2 4 "" "two",
    .acceptGuardian Go.sampleReads Guardians.Go.sampleConfig 5 4 "two",
    .grantConsent Go.sampleReads Guardians.Go.sampleConfig 5 1 3,
    .grantConsent Go.sampleReads Guardians.Go.sampleConfig 5 2 4,
    .start Go.sampleReads 3 "direct" ["friend"] "", .transition Go.sampleReads 4 1 .accept,
    .addGuardian Go.sampleReads 1 1, .addGuardian Go.sampleReads 2 1]

/-- Two teenagers open a direct chat. -/
def Go.opened : List Go.Act :=
  [.account 1 (Guardians.Go.newAccount "one"), .ageVerify Go.sampleReads 1 true false,
    .account 2 (Guardians.Go.newAccount "two"), .ageVerify Go.sampleReads 2 true false,
    .start Go.sampleReads 1 "direct" ["two"] "", .transition Go.sampleReads 2 1 .accept]

/-- Two teenagers have a direct chat, and come of age. -/
def Go.grown : List Go.Act :=
  [.account 1 (Guardians.Go.newAccount "one"), .ageVerify Go.sampleReads 1 true false,
    .account 2 (Guardians.Go.newAccount "two"), .ageVerify Go.sampleReads 2 true false,
    .start Go.sampleReads 1 "direct" ["two"] "", .transition Go.sampleReads 2 1 .accept,
    .ageVerify Go.sampleReads 1 true true, .ageVerify Go.sampleReads 2 true true]

def Py.sampleReads : Py.Reads :=
  ⟨⟨5, fun _ => true⟩, fun _ => true, fun _ _ => false, fun _ => true, true, id, false⟩

def Py.grown : List Py.Act :=
  [.accounts (.signUp 1), .applyAssurance 1 .age1617 true, .accounts (.signUp 2),
    .applyAssurance 2 .age1617 true, .startDirect Py.sampleReads 1 2,
    .acceptInvite Py.sampleReads 2 1, .applyAssurance 1 .adult true,
    .applyAssurance 2 .adult true]

/-- The account of an adult, as the runs here leave it. -/
def Go.grownUp (u : Nat) : Actor := ⟨u, ⟨.adult, .adult, "user", true, true, false, false⟩⟩

/-- Two guardians are handed the chat of the children whom they observe, and two users who have come
of age are handed a chat that is no longer in their cohort. -/
theorem chats_handed :
    ¬Go.PairLaw ⟨256⟩ (Go.observed ++ [.start Go.sampleReads 1 "direct" ["father"] ""]) ∧
      ¬Go.PairLaw ⟨256⟩ (Go.grown ++ [.start Go.sampleReads 1 "direct" ["two"] ""]) ∧
      ¬Py.PairLaw (Py.grown ++ [.startDirect Py.sampleReads 1 2]) := by
  refine ⟨?_, ?_, fun hlaw => ?_⟩
  · refine Go.not_pairLaw (a := Go.grownUp 1) (b := Go.grownUp 2) (c := 1) (by decide +kernel)
      (by decide +kernel) (by decide +kernel) fun hclear => ?_
    have hfound : (Go.after ⟨256⟩ Go.observed).chats.directOf id 1 2 = some 1 := by decide +kernel
    have hrow : (Go.after ⟨256⟩ Go.observed).chats.participants.get? (1, 1) =
        some ⟨.active, .guardian, none, some 5⟩ := by decide +kernel
    exact (hclear 1 hfound).2 1 _ (Or.inl rfl) hrow rfl
  · refine Go.not_pairLaw (a := Go.grownUp 1) (b := Go.grownUp 2) (c := 1) (by decide +kernel)
      (by decide +kernel) (by decide +kernel) fun hclear => ?_
    have hfound : (Go.after ⟨256⟩ Go.grown).chats.directOf id 1 2 = some 1 := by decide +kernel
    have hteen : (Go.after ⟨256⟩ Go.grown).chats.natureOf 1 = some (.direct, .teen) := by
      decide +kernel
    have hadult := (hclear 1 hfound).1
    rw [hteen] at hadult
    cases hadult
  · have hstep : (Py.after Py.grown, .startDirect Py.sampleReads 1 2) ∈
        Machine.steps Py.State.step Py.State.empty (Py.grown ++ [.startDirect Py.sampleReads 1 2]) :=
      (Machine.mem_steps _).mpr ⟨Py.grown, [], rfl, rfl⟩
    have hresult : ((Py.after Py.grown).startDirect Py.sampleReads 1 2).toOption.isSome = true := by
      decide +kernel
    cases hstart : (Py.after Py.grown).startDirect Py.sampleReads 1 2 with
    | error =>
      rw [hstart] at hresult
      cases hresult
    | ok result =>
      have hclear := (Py.pairLaw_iff _).mp hlaw _ hstep Py.sampleReads 1 2 result.2
        ⟨rfl, result.1, hstart⟩
      have hfound : (Py.after Py.grown).chats.directOf id 1 2 = some 1 := by decide +kernel
      have hteen : (Py.after Py.grown).chats.natureOf 1 = some (.direct, .teen) := by decide +kernel
      have hcohort : (Py.after Py.grown).cohort 1 = .adult := by decide +kernel
      have hadult := (hclear 1 hfound).1
      rw [hteen, hcohort] at hadult
      cases hadult

end SocialActivities.Messaging
