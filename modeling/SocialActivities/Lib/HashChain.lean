import Mathlib.Data.Set.Function
import Mathlib.Data.List.Induction

/-!
# `SocialActivities.Lib.HashChain`: verifying a chain of digests

A verification walks over rows with a state: the digest, and whatever else it keeps, of the last
row that passed. At every row `check` gives the next state, says that the row is broken, or fails
with an error. `walk` is the whole verification.

`walk_append` is the rule for checkpoints: what verifies a log from the start goes on from the
state after a verified part. The rest is about tampering. A check is `Linked` when a row that
passes names the digest before it and carries the digest of one of its texts chained to that one.
Where the hash does not collide on the strings that two verifications hash, no digest comes twice
in a verified chain (`last_ne_of_walk`), and a row that was changed, or whose predecessors were
removed, does not pass where it did (`check_tampered`).
-/

namespace SocialActivities.Lib.HashChain

variable {ε κ ρ : Type}

/-- Verify rows from a state: whether all passed, and the state after the last that did. -/
def walk (check : κ → ρ → Except ε (Option κ)) : κ → List ρ → Except ε (Bool × κ)
  | k, [] => .ok (true, k)
  | k, r :: rs =>
    match check k r with
    | .error e => .error e
    | .ok none => .ok (false, k)
    | .ok (some k') => walk check k' rs

variable {check : κ → ρ → Except ε (Option κ)}

variable {r : ρ} {k' k : κ}

theorem walk_cons_of_pass (h : check k r = .ok (some k')) (rs : List ρ) :
    walk check k (r :: rs) = walk check k' rs := by
  rw [walk, h]

variable {as : List ρ}

theorem walk_append (h : walk check k as = .ok (true, k'))
    (bs : List ρ) : walk check k (as ++ bs) = walk check k' bs := by
  induction as generalizing k with
  | nil =>
    obtain ⟨-, rfl⟩ := Prod.mk.inj (Except.ok.inj h)
    rfl
  | cons r rs ih =>
    rw [walk] at h
    split at h
    · cases h
    · cases h
    · next k'' hcheck =>
      rw [List.cons_append, walk_cons_of_pass hcheck, ih h]

theorem walk_of_append {bs : List ρ}
    (h : walk check k (as ++ bs) = .ok (true, k')) : ∃ m, walk check k as = .ok (true, m) := by
  induction as generalizing k with
  | nil => exact ⟨k, rfl⟩
  | cons r rs ih =>
    rw [List.cons_append, walk] at h
    split at h
    · cases h
    · cases h
    · next k'' hcheck =>
      obtain ⟨m, hm⟩ := ih h
      exact ⟨m, (walk_cons_of_pass hcheck rs).trans hm⟩

theorem pass_of_walk {rs : List ρ} (h : walk check k (r :: rs) = .ok (true, k')) :
    ∃ m, check k r = .ok (some m) ∧ walk check m rs = .ok (true, k') := by
  rw [walk] at h
  split at h
  · cases h
  · cases h
  · next m hcheck => exact ⟨m, hcheck, h⟩

theorem walk_ne_true (h : walk check k as = .ok (true, k'))
    (hr : ∀ m, check k' r ≠ .ok (some m)) (bs : List ρ) (m : κ) :
    walk check k (as ++ r :: bs) ≠ .ok (true, m) := by
  rw [walk_append h]
  intro hwalk
  obtain ⟨m', hpass, -⟩ := pass_of_walk hwalk
  exact hr m' hpass

theorem walk_concat {k'' : κ} (h : walk check k as = .ok (true, k'))
    (hr : check k' r = .ok (some k'')) : walk check k (as ++ [r]) = .ok (true, k'') := by
  rw [walk_append h, walk_cons_of_pass hr]
  rfl

theorem exists_last_step {rows : List ρ} (h : walk check k rows = .ok (true, k'))
    (hne : rows ≠ []) : ∃ as r m, rows = as ++ [r] ∧ walk check k as = .ok (true, m) ∧
      check m r = .ok (some k') := by
  induction rows using List.reverseRecOn with
  | nil => exact absurd rfl hne
  | append_singleton as r =>
    obtain ⟨m, hm⟩ := walk_of_append h
    rw [walk_append hm] at h
    obtain ⟨m', hr, hend⟩ := pass_of_walk h
    obtain ⟨-, rfl⟩ := Prod.mk.inj (Except.ok.inj hend)
    exact ⟨as, r, m, rfl, hm, hr⟩

theorem walk_end {state : ρ → κ} (hstate : ∀ k k' r, check k r = .ok (some k') → k' = state r)
    {rows : List ρ} (h : walk check k rows = .ok (true, k')) :
    k' = (rows.getLast?.map state).getD k := by
  induction rows generalizing k with
  | nil => exact (Prod.mk.inj (Except.ok.inj h)).2.symm
  | cons r rs ih =>
    obtain ⟨m, hpass, hrest⟩ := pass_of_walk h
    rw [ih hrest, hstate _ _ _ hpass]
    cases rs with
    | nil => rfl
    | cons s rs => rw [List.getLast?_cons_cons, List.getLast?_eq_some_getLast (List.cons_ne_nil s rs)]
                   rfl

theorem map_fst_walk {l : κ} (h : ∀ r, check k r = check l r) (rows : List ρ) :
    (walk check k rows).map Prod.fst = (walk check l rows).map Prod.fst := by
  cases rows with
  | nil => rfl
  | cons r =>
    rw [walk, walk, h r]
    cases check l r with
    | error => rfl
    | ok next => cases next <;> rfl

/-! ### Linked rows -/

variable {α : Type}

/-- The digest of a text, chained to the digest before it. -/
def chained (sha : List α → List α) (prev text : List α) : List α := sha (prev ++ sha text)

/-- The strings that are hashed for the texts of rows. -/
def hashed (sha : List α → List α) (prev : ρ → List α) (texts : ρ → Set (List α))
    (rows : Set ρ) : Set (List α) :=
  { s | ∃ r ∈ rows, ∃ t ∈ texts r, s = t ∨ s = prev r ++ sha t }

/-- A row that passes names the digest before it, and carries the digest of one of its texts
chained to that one. The next state has its digest. -/
structure Linked (sha : List α → List α) (last : κ → List α) (prev hash : ρ → List α)
    (texts : ρ → Set (List α)) (check : κ → ρ → Except ε (Option κ)) : Prop where
  prev_eq : ∀ {k k' r}, check k r = .ok (some k') → prev r = last k
  last_eq : ∀ {k k' r}, check k r = .ok (some k') → last k' = hash r
  text : ∀ {k k' r}, check k r = .ok (some k') → ∃ t ∈ texts r, hash r = chained sha (last k) t

variable {sha : List α → List α} {last : κ → List α} {prev hash : ρ → List α}
  {texts : ρ → Set (List α)}

theorem chained_inj {n : Nat} {rows : Set ρ} (hlen : ∀ s, (sha s).length = n)
    (hinj : Set.InjOn sha (hashed sha prev texts rows)) {r' : ρ} (hr : r ∈ rows)
    (hr' : r' ∈ rows) {t t' : List α} (ht : t ∈ texts r) (ht' : t' ∈ texts r')
    (h : chained sha (prev r) t = chained sha (prev r') t') : prev r = prev r' ∧ t = t' := by
  have houter : prev r ++ sha t = prev r' ++ sha t' :=
    hinj ⟨r, hr, t, ht, Or.inr rfl⟩ ⟨r', hr', t', ht', Or.inr rfl⟩ h
  obtain ⟨hprev, hdigest⟩ := List.append_inj' houter ((hlen t).trans (hlen t').symm)
  exact ⟨hprev, hinj ⟨r, hr, t, ht, Or.inl rfl⟩ ⟨r', hr', t', ht', Or.inl rfl⟩ hdigest⟩

theorem isChain_of_walk (hlinked : Linked sha last prev hash texts check)
    {rows : List ρ} (h : walk check k rows = .ok (true, k')) :
    (∀ r ∈ rows.head?, prev r = last k) ∧ rows.IsChain fun r s => prev s = hash r := by
  induction rows generalizing k with
  | nil => exact ⟨fun r hr => (by cases hr), .nil⟩
  | cons r rs ih =>
    obtain ⟨m, hpass, hrest⟩ := pass_of_walk h
    obtain ⟨hhead, hchain⟩ := ih hrest
    refine ⟨fun s hs => Option.some.inj hs ▸ hlinked.prev_eq hpass, ?_⟩
    cases rs with
    | nil => exact .singleton r
    | cons s => exact .cons_cons ((hhead s rfl).trans (hlinked.last_eq hpass)) hchain

section Linked

variable (hlinked : Linked sha last prev hash texts check) {n : Nat}
  (hlen : ∀ s, (sha s).length = n) {rows : Set ρ}
  (hinj : Set.InjOn sha (hashed sha prev texts rows))

include hlinked hlen hinj

/-- In a log that is verified from the empty digest no digest comes twice. By induction on the
first part from its end: two rows with one digest have one predecessor. -/
theorem last_ne_of_walk {k k' k'' : κ} {as bs : List ρ} (hstart : last k = []) (hn : 0 < n)
    (has : ∀ a ∈ as, a ∈ rows) (hbs : ∀ b ∈ bs, b ∈ rows)
    (hwalk : walk check k as = .ok (true, k')) (hmore : walk check k' bs = .ok (true, k''))
    (hne : bs ≠ []) : last k'' ≠ last k' := by
  intro heq
  -- Equal digests give equal digests one row earlier on both sides, down to the start, where a
  -- digest would be empty.
  induction as using List.reverseRecOn generalizing k' k'' bs with
  | nil =>
    obtain ⟨-, rfl⟩ := Prod.mk.inj (Except.ok.inj hwalk)
    obtain ⟨bs', b, m, rfl, -, hb⟩ := exists_last_step hmore hne
    obtain ⟨t, -, hdigest⟩ := hlinked.text hb
    have hlength := hlen (last m ++ sha t)
    rw [show sha (last m ++ sha t) = hash b from hdigest.symm, ← hlinked.last_eq hb, heq,
      hstart] at hlength
    exact absurd hlength.symm (Nat.pos_iff_ne_zero.mp hn)
  | append_singleton as a ih =>
    obtain ⟨m, hm⟩ := walk_of_append hwalk
    have hlast := hwalk
    rw [walk_append hm] at hlast
    obtain ⟨m', ha, hend⟩ := pass_of_walk hlast
    obtain ⟨-, rfl⟩ := Prod.mk.inj (Except.ok.inj hend)
    obtain ⟨bs', b, l, rfl, hl, hb⟩ := exists_last_step hmore hne
    have harows : a ∈ rows := has a (List.mem_append_right _ List.mem_cons_self)
    have hbrows : b ∈ rows := hbs b (List.mem_append_right _ List.mem_cons_self)
    obtain ⟨t, ht, hdigest⟩ := hlinked.text ha
    obtain ⟨u, hu, hdigest'⟩ := hlinked.text hb
    rw [hlinked.last_eq ha, hlinked.last_eq hb] at heq
    have hboth : chained sha (prev b) u = chained sha (prev a) t := by
      rw [hlinked.prev_eq ha, hlinked.prev_eq hb, ← hdigest, ← hdigest', heq]
    have hprev := (chained_inj hlen hinj hbrows harows hu ht hboth).1
    rw [hlinked.prev_eq ha, hlinked.prev_eq hb] at hprev
    have hmid : walk check m (a :: bs') = .ok (true, l) := (walk_cons_of_pass ha bs').trans hl
    refine ih (fun x hx => has x (List.mem_append_left _ hx)) (fun x hx => ?_) hm hmid
      (List.cons_ne_nil a bs') hprev
    rcases List.mem_cons.mp hx with rfl | hx
    · exact harows
    · exact hbs x (List.mem_append_left _ hx)

/-- A row that keeps its digest does not pass any more where rows before it are gone, or where it
names another digest before it, or has none of the texts it had. -/
theorem check_tampered {k l m o : κ} {as gone : List ρ} {r r' : ρ} (hstart : last k = [])
    (hn : 0 < n) (has : ∀ a ∈ as, a ∈ rows) (hgone : ∀ b ∈ gone, b ∈ rows) (hr : r ∈ rows)
    (hr' : r' ∈ rows) (hwalk : walk check k as = .ok (true, l))
    (hmore : walk check l gone = .ok (true, m)) (hpass : check m r = .ok (some o))
    (hhash : hash r' = hash r)
    (hchange : gone ≠ [] ∨ prev r' ≠ prev r ∨ ∀ t ∈ texts r, t ∉ texts r') (o' : κ) :
    check l r' ≠ .ok (some o') := by
  intro hpass'
  obtain ⟨t, ht, hdigest⟩ := hlinked.text hpass
  obtain ⟨t', ht', hdigest'⟩ := hlinked.text hpass'
  have hboth : chained sha (prev r) t = chained sha (prev r') t' := by
    rw [hlinked.prev_eq hpass, hlinked.prev_eq hpass', ← hdigest, ← hdigest', hhash]
  obtain ⟨hprev, rfl⟩ := chained_inj hlen hinj hr hr' ht ht' hboth
  rcases hchange with hne | hne | htexts
  · rw [hlinked.prev_eq hpass, hlinked.prev_eq hpass'] at hprev
    exact last_ne_of_walk hlinked hlen hinj hstart hn has hgone hwalk hmore hne hprev
  · exact hne hprev.symm
  · exact htexts t ht ht'

end Linked

end SocialActivities.Lib.HashChain
