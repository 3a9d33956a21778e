/-!
# `SocialActivities.Lib.Checked`: operations as checks and writes

An operation that can fail is a computation in `Except ε`: checks, reads and a result, each of
which may return an error instead. `need` is a check. The rules read such an operation from its
success: every check held, every read gave a value, and the rest succeeded. A proof rewrites a
success with `seq_eq_ok` and `need_eq_ok`, takes a read apart with `bind_eq_ok` (and `elim_eq_ok`,
where it reads a row that must be there), and has the conditions of the operation as hypotheses.

An error that an operation never returns is one that none of its parts returns (`Avoids`). `Ends` speaks
of the errors as well as of the result, and its rules follow the operation: `ends_bind`, `ends_need`,
`ends_foldlM` for a loop over a list, and `ends_rounds` for one with a bound that a round may end
(`rounds`).
-/

namespace SocialActivities.Lib

variable {ε α β : Type}

/-- Go on if the condition holds, else fail with the error. -/
def need (e : ε) (condition : Bool) : Except ε Unit :=
  if condition then .ok () else .error e

variable {e : ε}

@[simp] theorem need_eq_ok {condition : Bool} :
    need e condition = .ok () ↔ condition = true := by
  unfold need
  cases condition <;> simp

theorem need_true (e : ε) : need e true = .ok () := rfl

theorem ok_bind (a : α) (f : α → Except ε β) : (.ok a >>= f) = f a := rfl

theorem toOption_eq_some {x : Except ε α} {a : α} : x.toOption = some a ↔ x = .ok a := by
  cases x <;> simp [Except.toOption]

theorem toOption_eq_none {x : Except ε α} : x.toOption = none ↔ ∃ e, x = .error e := by
  cases x <;> simp [Except.toOption]

theorem seq_eq_ok {x : Except ε Unit} {f : Unit → Except ε β} {r : β} :
    (x >>= f) = .ok r ↔ x = .ok () ∧ f () = .ok r := by
  cases x with
  | error => exact ⟨fun h => (by cases h), fun h => (by cases h.1)⟩
  | ok => exact ⟨fun h => ⟨rfl, h⟩, fun h => h.2⟩

theorem bind_eq_ok {x : Except ε α} {f : α → Except ε β} {r : β} :
    (x >>= f) = .ok r ↔ ∃ a, x = .ok a ∧ f a = .ok r := by
  cases x with
  | error => exact ⟨fun h => (by cases h), fun ⟨a, h, _⟩ => (by cases h)⟩
  | ok u => exact ⟨fun h => ⟨u, rfl, h⟩, fun ⟨a, ha, h⟩ => (by cases ha; exact h)⟩

@[simp] theorem pure_eq_ok {a r : α} : (pure a : Except ε α) = .ok r ↔ a = r :=
  ⟨fun h => Except.ok.inj h, fun h => congrArg Except.ok h⟩

theorem elim_eq_ok {x : Option α} {a : α} :
    x.elim (.error e) .ok = (.ok a : Except ε α) ↔ x = some a := by
  cases x with
  | none => exact ⟨fun h => (by cases h), fun h => (by cases h)⟩
  | some =>
    exact ⟨fun h => congrArg some (Except.ok.inj h), fun h => congrArg Except.ok (Option.some.inj h)⟩

/-! ### Errors that do not occur -/

/-- The operation does not fail with `e`. -/
def Avoids (e : ε) (x : Except ε α) : Prop := x ≠ .error e

theorem avoids_bind {x : Except ε α} {f : α → Except ε β} (hx : Avoids e x)
    (hf : ∀ a, x = .ok a → Avoids e (f a)) : Avoids e (x >>= f) := by
  cases x with
  | error => exact fun h => hx (congrArg Except.error (Except.error.inj h))
  | ok a => exact hf a rfl

theorem avoids_ok (e : ε) (a : α) : Avoids e (.ok a : Except ε α) := fun h => by cases h

theorem avoids_need {e' : ε} (h : e' ≠ e) (condition : Bool) : Avoids e (need e' condition) := by
  cases condition with
  | false => exact fun heq => h (Except.error.inj heq)
  | true => exact avoids_ok e ()

theorem avoids_elim {e' : ε} (h : e' ≠ e) (x : Option α) :
    Avoids e (x.elim (.error e') .ok : Except ε α) := by
  cases x with
  | none => exact fun heq => h (Except.error.inj heq)
  | some a => exact avoids_ok e a

/-! ### Loops -/

/-- At most `n` rounds, the first of them with number `i`, up to one that says that it is the last. -/
def rounds {σ : Type} (round : Nat → σ → Except ε (σ × Bool)) (exceeded : σ → ε) :
    Nat → Nat → σ → Except ε σ
  | 0, _, s => .error (exceeded s)
  | n + 1, i, s => do
    let (s, last) ← round i s
    if last then .ok s else rounds round exceeded n (i + 1) s

/-! ### What an operation comes to -/

/-- The operation ends with a result of which `P` holds, or with an error of which `E` holds. -/
def Ends (P : α → Prop) (E : ε → Prop) : Except ε α → Prop
  | .ok a => P a
  | .error e => E e

variable {P : α → Prop} {Q : β → Prop} {E : ε → Prop}

theorem ends_bind {x : Except ε α} {f : α → Except ε β} (hx : Ends P E x)
    (hf : ∀ a, x = .ok a → P a → Ends Q E (f a)) : Ends Q E (x >>= f) := by
  cases x with
  | error => exact hx
  | ok a => exact hf a rfl hx

theorem ends_need (he : E e) (condition : Bool) : Ends (fun _ => condition = true) E (need e condition) := by
  cases condition with
  | false => exact he
  | true => exact rfl

theorem ends_elim (he : E e) (x : Option α) :
    Ends (fun a => x = some a) E (x.elim (.error e) .ok) := by
  cases x with
  | none => exact he
  | some => exact rfl

/-- What every element keeps when it is taken in, all of them keep. `I` may speak of the elements that
were taken in so far. -/
theorem ends_foldlM {σ : Type} {f : σ → α → Except ε σ} {I : List α → σ → Prop} {before as : List α} {s : σ}
    (hstep : ∀ before a s, a ∈ as → I before s → Ends (I (before ++ [a])) E (f s a)) (hs : I before s) :
    Ends (I (before ++ as)) E (as.foldlM f s) := by
  induction as generalizing before s with
  | nil =>
    rw [List.append_nil]
    exact hs
  | cons a as ih =>
    have hrest : before ++ a :: as = before ++ [a] ++ as := by simp
    rw [hrest]
    refine ends_bind (hstep before a s List.mem_cons_self hs) fun next _ hnext => ih ?_ hnext
    exact fun before b s hb => hstep before b s (List.mem_cons_of_mem a hb)

/-- What every round keeps, and the last one turns into the result, holds of the result. -/
theorem ends_rounds {σ : Type} {round : Nat → σ → Except ε (σ × Bool)} {exceeded : σ → ε}
    {Going : Nat → σ → Prop} {Done : σ → Prop} {limit : Nat}
    (hround : ∀ i s, i < limit → Going i s →
      Ends (fun r => if r.2 then Done r.1 else Going (i + 1) r.1) E (round i s))
    (hexceeded : ∀ s, Going limit s → E (exceeded s)) {n i : Nat} {s : σ} (hlimit : i + n = limit)
    (hs : Going i s) : Ends Done E (rounds round exceeded n i s) := by
  induction n generalizing i s with
  | zero =>
    have hi : i = limit := by omega
    exact hexceeded s (hi ▸ hs)
  | succ n ih =>
    apply ends_bind (hround i s (by omega) hs)
    intro (next, last) _ hkept
    cases last with
    | true => exact hkept
    | false => exact ih (by omega) hkept

theorem forM_eq_ok {check : α → Except ε Unit} {as : List α} :
    as.forM check = .ok () ↔ ∀ a ∈ as, check a = .ok () := by
  induction as with
  | nil => exact ⟨fun _ a ha => (by cases ha), fun _ => rfl⟩
  | cons a as ih =>
    show (check a >>= fun _ => as.forM check) = .ok () ↔ _
    rw [seq_eq_ok, ih, List.forall_mem_cons]

end SocialActivities.Lib
