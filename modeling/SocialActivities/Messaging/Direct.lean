import SocialActivities.Messaging.Rows

/-!
# `SocialActivities.Messaging.Direct`: the direct chat of a pair

What a start of a direct chat promises, over the tables that both services write. `Belongs` is the
promise: the chat is the pair's, it is in their cohort, and no observer's row has changed. `Clear`
is a condition on the tables before: the chat that the start finds first, if there is one, is in
the cohort, and neither of the two is an observer there.

`belongs_start` says that a new chat keeps the promise. `belongs_reuse_iff` says that a chat that is
reused keeps it exactly when the tables are clear. Both need `Chats.Sound`: that nobody but its two
founders has a row of another role than `guardian`.
-/

namespace SocialActivities.Messaging

open Lib
open Social (Cohort)

/-- The promise of a start by `a` with `b` that leads from `m` to `m'` and returns `c`. -/
structure Belongs (m m' : Chats) (c a b : Nat) (cohort : Cohort) : Prop where
  chat : m'.natureOf c = some (.direct, cohort)
  pair : ∀ u, (∃ p, m'.participants.get? (c, u) = some p ∧ p.role ≠ .guardian) ↔ u = a ∨ u = b
  observers : ∀ key p, m.participants.get? key = some p → p.role = .guardian →
    ∃ p', m'.participants.get? key = some p' ∧ p'.state = p.state

/-- The direct chat that a start by `a` with `b` finds, if there is one, is in the cohort, and
neither of the two is an observer there. -/
def Clear (m : Chats) (tie : Nat → Nat) (a b : Nat) (cohort : Cohort) : Prop :=
  ∀ c, m.directOf tie a b = some c → m.natureOf c = some (.direct, cohort) ∧
    ∀ u p, u = a ∨ u = b → m.participants.get? (c, u) = some p → p.role ≠ .guardian

section
variable {m m' : Chats} {tie : Nat → Nat} {a b c : Nat} {cohort : Cohort}

theorem Chats.Sound.start_keeps (hm : m.Sound) {kind : Kind} {title : String} {creator now : Nat}
    {members : List Nat} {key : Nat × Nat} {p : Participant}
    (h : m.participants.get? key = some p) :
    (m.start kind title cohort creator members now).participants.get? key = some p := by
  have hold : key.1 ≠ m.next := Nat.ne_of_lt (hm.participants key p h)
  rw [Chats.get?_start_of_ne m _ _ _ _ _ _ hold]
  exact h

theorem belongs_start (hm : m.Sound) (title : String) (now : Nat) :
    Belongs m (m.start .direct title cohort a [b] now) m.next a b cohort := by
  constructor
  · rw [Chats.natureOf_start, if_pos rfl]
  · intro u
    constructor
    · intro ⟨p, hp, _⟩
      rcases hm.get?_start hp with ⟨hu, -⟩ | ⟨hu, -⟩
      · exact Or.inr (List.mem_singleton.mp hu)
      · exact Or.inl hu
    · intro hu
      rw [Chats.get?_start]
      by_cases hb : u = b
      · exact ⟨Chats.invitation a, by simp [hb], PartRole.noConfusion⟩
      · have ha : u = a := hu.resolve_right hb
        refine ⟨⟨.active, .admin, none, some now⟩, ?_, PartRole.noConfusion⟩
        rw [if_neg fun h => hb (List.mem_singleton.mp h.2), if_pos (by rw [ha])]
  · intro key p hp _
    exact ⟨p, hm.start_keeps hp, rfl⟩

/-- The founders of a direct chat are the two users with rows of another role than `guardian`. -/
theorem Chats.Sound.founders_eq (hm : m.Sound) (hc : m.natureOf c = some (.direct, cohort))
    (hab : a ≠ b) {p q : Participant} (ha : m.participants.get? (c, a) = some p)
    (hp : p.role ≠ .guardian) (hb : m.participants.get? (c, b) = some q) (hq : q.role ≠ .guardian)
    {u : Nat} {r : Participant} (hu : m.participants.get? (c, u) = some r)
    (hr : r.role ≠ .guardian) : u = a ∨ u = b := by
  obtain ⟨x, y, hxy⟩ := hm.founders c cohort hc
  have hxa := hxy a p ha hp
  have hxb := hxy b q hb hq
  have hxu := hxy u r hu hr
  omega

/-- A chat that is reused belongs to its pair exactly when the tables were clear. The rows of the
pair may change in everything but their roles. -/
theorem belongs_reuse_iff (hm : m.Sound) (hab : a ≠ b) (hfound : m.directOf tie a b = some c)
    (hnature : m'.natureOf c = m.natureOf c)
    (hroles : ∀ key, (m'.participants.get? key).map Participant.role =
      (m.participants.get? key).map Participant.role)
    (hothers : ∀ key, key ≠ (c, a) → key ≠ (c, b) →
      m'.participants.get? key = m.participants.get? key) :
    Belongs m m' c a b cohort ↔ Clear m tie a b cohort := by
  -- A row after the start has the role that it had before.
  have hrole : ∀ {key p}, m'.participants.get? key = some p →
      ∃ q, m.participants.get? key = some q ∧ q.role = p.role := by
    intro key p hp
    have hmap := hroles key
    rw [hp] at hmap
    exact Option.map_eq_some_iff.mp hmap.symm
  have hrole' : ∀ {key p}, m.participants.get? key = some p →
      ∃ q, m'.participants.get? key = some q ∧ q.role = p.role := by
    intro key p hp
    have hmap := hroles key
    rw [hp] at hmap
    exact Option.map_eq_some_iff.mp hmap
  constructor
  · intro h d hd
    have hsame : d = c := Option.some.inj (hd.symm.trans hfound)
    subst hsame
    refine ⟨hnature ▸ h.chat, fun u p hu hp => ?_⟩
    obtain ⟨q, hq, hnot⟩ := (h.pair u).mpr hu
    obtain ⟨p', hp', hsame⟩ := hrole hq
    rw [hp] at hp'
    cases hp'
    rw [hsame]
    exact hnot
  · intro h
    obtain ⟨hchat, hpair⟩ := h c hfound
    obtain ⟨v, -, -, ⟨p, hp⟩, ⟨q, hq⟩⟩ := Chats.directOf_spec hfound
    have hpa := hpair a p (Or.inl rfl) hp
    have hqb := hpair b q (Or.inr rfl) hq
    refine ⟨hnature.trans hchat, fun u => ⟨?_, ?_⟩, fun key r hr hguardian => ?_⟩
    · intro ⟨r, hr, hnot⟩
      obtain ⟨r', hr', hsame⟩ := hrole hr
      exact hm.founders_eq hchat hab hp hpa hq hqb hr' (hsame ▸ hnot)
    · intro hu
      have hrow : ∃ r, m.participants.get? (c, u) = some r ∧ r.role ≠ .guardian := by
        rcases hu with hu | hu
        · exact ⟨p, hu ▸ hp, hpa⟩
        · exact ⟨q, hu ▸ hq, hqb⟩
      obtain ⟨r, hr, hnot⟩ := hrow
      obtain ⟨r', hr', hsame⟩ := hrole' hr
      exact ⟨r', hr', hsame ▸ hnot⟩
    · -- An observer's row is none of the two.
      have hna : key ≠ (c, a) := by
        intro hkey
        rw [hkey, hp] at hr
        cases hr
        exact hpa hguardian
      have hnb : key ≠ (c, b) := by
        intro hkey
        rw [hkey, hq] at hr
        cases hr
        exact hqb hguardian
      exact ⟨r, (hothers key hna hnb).trans hr, rfl⟩

end

end SocialActivities.Messaging
