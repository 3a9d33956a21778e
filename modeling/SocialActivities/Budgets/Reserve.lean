import Mathlib.Data.List.Forall2
import Mathlib.Data.List.Perm.Subperm
import Mathlib.Logic.Function.Basic
import SocialActivities.Lib.Machine

/-!
# `SocialActivities.Budgets.Reserve`: mutations with a budget (`internal/budgets`, `Reserve`)

`Reserve` runs the closure of a mutation twice. The closure begins a transaction, goes through its
gates and calls `reserve`. In the first pass `reserve` returns an error, which ends the transaction;
then the admission is committed on its own. In the second pass the gates are read again, `reserve`
returns nothing, and the effects follow in the same transaction. The wrappers (`rateTransaction` of the
domains) put gates of their own first, and may answer `ErrDenied` with another error.

The model has any number of calls, and any order of their steps. A gate reads the state as it is when
its turn comes: a refusal or an early return ends the closure there. Any statement may fail, and so may
the admission and the commit. Other transactions may change the state between two steps.

`Kept` says how far a call is in step with its admission and its effects. `reserve_exact` has the
results of it.
-/

namespace SocialActivities.Budgets.Reserve

open Lib

/-! ### Closures -/

/-- What a gate says: go on, or return with an error or without one. -/
inductive Gate (ε : Type) where
  | pass
  | ends (result : Option ε)

/-- A mutation. `denied` is the error that its wrapper answers with for `ErrDenied`. -/
structure Closure (σ ε : Type) where
  gates : List (σ → Gate ε)
  effects : σ → Except ε σ
  denied : ε

inductive Pass where
  | first
  | second
  deriving DecidableEq

/-- How a call ends. -/
inductive Exit (ε : Type) where
  /-- The first pass ends before the reservation. -/
  | early (result : Option ε)
  | denied
  /-- The admission fails; it may be committed all the same. -/
  | unavailable (error : ε) (charged : Bool)
  /-- The second pass ends without its effects. -/
  | late (result : Option ε)
  | committed

variable {σ ε : Type}

/-- What `Reserve` returns. -/
def Exit.result (closure : Closure σ ε) : Exit ε → Option ε
  | .early result => result
  | .denied => some closure.denied
  | .unavailable error _ => some error
  | .late result => result
  | .committed => none

/-! ### The system -/

/-- What a call does next. `seen` are the states on which its gates have passed, in its transaction. -/
inductive Phase (σ ε : Type) where
  | waiting
  | gating (pass : Pass) (seen : List σ)
  | admitting
  | effecting (seen : List σ)
  | done (exit : Exit ε)

/-- `admitted` are the calls whose admission is committed, one entry for each admission. -/
structure State (σ ε : Type) where
  domain : σ
  admitted : List Nat
  phase : Nat → Phase σ ε

def State.start (domain : σ) : State σ ε := ⟨domain, [], fun _ => .waiting⟩

/-- What `admit` returns. -/
inductive Admission (ε : Type) where
  | allowed
  | denied
  | unavailable (error : ε) (charged : Bool)

inductive Action (σ ε : Type) where
  | begin (c : Nat)
  /-- The next gate of the call, or its `reserve` after the last one. -/
  | gate (c : Nat)
  /-- A statement or the commit of the transaction fails. -/
  | fail (c : Nat) (error : ε)
  | admits (c : Nat) (answer : Admission ε)
  /-- The effects, and the commit. -/
  | commit (c : Nat)
  /-- Another transaction commits. -/
  | other (domain : σ)

/-- Where a pass goes when its transaction ends with a result. -/
def Pass.ended : Pass → Option ε → Exit ε
  | .first, result => .early result
  | .second, result => .late result

/-- Where a pass goes at its `reserve`. -/
def Pass.reserve (seen : List σ) : Pass → Phase σ ε
  | .first => .admitting
  | .second => .effecting seen

variable (calls : Nat → Closure σ ε)

def State.enter (s : State σ ε) (c : Nat) (phase : Phase σ ε) : State σ ε :=
  { s with phase := Function.update s.phase c phase }

/-- The gate whose turn it is. -/
def gate (s : State σ ε) (c : Nat) (pass : Pass) (seen : List σ) : Phase σ ε :=
  match (calls c).gates[seen.length]? with
  | none => pass.reserve seen
  | some gate =>
    match gate s.domain with
    | .pass => .gating pass (seen ++ [s.domain])
    | .ends result => .done (pass.ended result)

def admits (s : State σ ε) (c : Nat) : Admission ε → State σ ε
  | .allowed => { s.enter c (.gating .second []) with admitted := c :: s.admitted }
  | .denied => s.enter c (.done .denied)
  | .unavailable error charged =>
    { s.enter c (.done (.unavailable error charged)) with
      admitted := if charged then c :: s.admitted else s.admitted }

/-- The effects of a call that are committed. -/
structure Commit (σ : Type) where
  call : Nat
  seen : List σ
  before : σ
  after : σ

/-- The commit of a step, if there is one. -/
def commits (s : State σ ε) : Action σ ε → Option (Commit σ)
  | .commit c =>
    match s.phase c with
    | .effecting seen =>
      match (calls c).effects s.domain with
      | .ok domain => some ⟨c, seen, s.domain, domain⟩
      | .error _ => none
    | _ => none
  | _ => none

def step (s : State σ ε) : Action σ ε → State σ ε
  | .begin c =>
    match s.phase c with
    | .waiting => s.enter c (.gating .first [])
    | _ => s
  | .gate c =>
    match s.phase c with
    | .gating pass seen => s.enter c (gate calls s c pass seen)
    | _ => s
  | .fail c error =>
    match s.phase c with
    | .gating pass _ => s.enter c (.done (pass.ended (some error)))
    | .effecting _ => s.enter c (.done (.late (some error)))
    | _ => s
  | .admits c answer =>
    match s.phase c with
    | .admitting => admits s c answer
    | _ => s
  | .commit c =>
    match s.phase c with
    | .effecting _ =>
      match (calls c).effects s.domain with
      | .error error => s.enter c (.done (.late (some error)))
      | .ok domain => { s.enter c (.done .committed) with domain := domain }
    | _ => s
  | .other domain => { s with domain := domain }

def after (domain : σ) (acts : List (Action σ ε)) : State σ ε :=
  Machine.run (step calls) (State.start domain) acts

/-- The committed effects of a schedule, in order. -/
def effects (domain : σ) (acts : List (Action σ ε)) : List (Commit σ) :=
  Machine.emitted (step calls) (commits calls) (State.start domain) acts

/-! ### What a schedule keeps -/

/-- The gates have passed, one on each state. -/
def Passed (gates : List (σ → Gate ε)) (seen : List σ) : Prop :=
  List.Forall₂ (fun gate domain => gate domain = .pass) gates seen

/-- The admissions and commits of a call in a phase. -/
def Phase.Kept (closure : Closure σ ε) (admissions commits : Nat) : Phase σ ε → Prop
  | .waiting => admissions = 0 ∧ commits = 0
  | .gating .first _ => admissions = 0 ∧ commits = 0
  | .admitting => admissions = 0 ∧ commits = 0
  | .gating .second seen => admissions = 1 ∧ commits = 0 ∧ Passed (closure.gates.take seen.length) seen
  | .effecting seen => admissions = 1 ∧ commits = 0 ∧ Passed closure.gates seen
  | .done (.early _) => admissions = 0 ∧ commits = 0
  | .done .denied => admissions = 0 ∧ commits = 0
  | .done (.unavailable _ charged) => admissions = (if charged then 1 else 0) ∧ commits = 0
  | .done (.late _) => admissions = 1 ∧ commits = 0
  | .done .committed => admissions = 1 ∧ commits = 1

variable {calls} {s : State σ ε}

variable {seen : List σ} {gates : List (σ → Gate ε)}

theorem Passed.concat (h : Passed (gates.take seen.length) seen)
    {gate : σ → Gate ε} (hgate : gates[seen.length]? = some gate) {domain : σ}
    (hpass : gate domain = .pass) :
    Passed (gates.take (seen ++ [domain]).length) (seen ++ [domain]) := by
  rw [List.length_append, List.length_singleton, List.take_add_one, hgate]
  exact List.rel_append h (List.Forall₂.cons hpass List.Forall₂.nil)

theorem Passed.all (h : Passed (gates.take seen.length) seen)
    (hend : gates[seen.length]? = none) : Passed gates seen := by
  rwa [List.take_of_length_le (List.getElem?_eq_none_iff.mp hend)] at h

/-- Every call is in step with its admissions and its commits. -/
def Kept (calls : Nat → Closure σ ε) (s : State σ ε) (out : List (Commit σ)) : Prop :=
  ∀ c, (s.phase c).Kept (calls c) (s.admitted.count c) ((out.map Commit.call).count c)

theorem kept_start (domain : σ) : Kept calls (State.start domain) [] := fun _ => ⟨rfl, rfl⟩

variable {c : Nat} {out : List (Commit σ)}

/-- A step of one call leaves the others in step. -/
theorem Kept.enter (h : Kept calls s out) (new : List (Commit σ))
    {phase : Phase σ ε} {t : State σ ε} (hphase : t.phase = Function.update s.phase c phase)
    (hadmitted : ∀ d, d ≠ c → t.admitted.count d = s.admitted.count d)
    (hnew : ∀ x ∈ new, x.call = c)
    (hkept : phase.Kept (calls c) (t.admitted.count c) (((out ++ new).map Commit.call).count c)) :
    Kept calls t (out ++ new) := by
  intro d
  rw [hphase]
  by_cases hd : d = c
  · rw [hd, Function.update_self]
    exact hkept
  · have hnone : (new.map Commit.call).count d = 0 := by
      rw [List.count_eq_zero]
      intro hmem
      obtain ⟨x, hx, rfl⟩ := List.mem_map.mp hmem
      exact hd (hnew x hx)
    rw [Function.update_of_ne hd, hadmitted d hd, List.map_append, List.count_append, hnone, Nat.add_zero]
    exact h d

theorem Kept.quiet (h : Kept calls s out) {phase : Phase σ ε}
    (hkept : phase.Kept (calls c) (s.admitted.count c) ((out.map Commit.call).count c)) :
    Kept calls (s.enter c phase) out := by
  have henter := h.enter [] (t := s.enter c phase) rfl (fun _ _ => rfl)
    (fun x hx => by cases hx) (by rw [List.append_nil]; exact hkept)
  rwa [List.append_nil] at henter

theorem kept_gate (h : Kept calls s out) {pass : Pass}
    (hc : s.phase c = .gating pass seen) : Kept calls (s.enter c (gate calls s c pass seen)) out := by
  have hkept := h c
  rw [hc] at hkept
  refine h.quiet ?_
  rw [gate]
  split
  · rename_i hend
    cases pass with
    | first => exact hkept
    | second => exact ⟨hkept.1, hkept.2.1, hkept.2.2.all hend⟩
  · rename_i g hg
    split
    · rename_i hpass
      cases pass with
      | first => exact hkept
      | second => exact ⟨hkept.1, hkept.2.1, hkept.2.2.concat hg hpass⟩
    · cases pass with
      | first => exact hkept
      | second => exact ⟨hkept.1, hkept.2.1⟩

theorem kept_admit (h : Kept calls s out)
    (hc : s.phase c = .admitting) (answer : Admission ε) : Kept calls (admits s c answer) out := by
  obtain ⟨hnone, hcommits⟩ : s.admitted.count c = 0 ∧ (out.map Commit.call).count c = 0 := by
    have hkept := h c
    rwa [hc] at hkept
  have hcharge : ∀ phase : Phase σ ε, phase.Kept (calls c) 1 0 →
      Kept calls { s.enter c phase with admitted := c :: s.admitted } out := by
    intro phase hphase
    have henter := h.enter [] (t := { s.enter c phase with admitted := c :: s.admitted }) rfl
      (fun d hd => List.count_cons_of_ne (Ne.symm hd)) (fun x hx => by cases hx)
      (by simpa [hnone, hcommits] using hphase)
    rwa [List.append_nil] at henter
  cases answer with
  | allowed => exact hcharge _ ⟨rfl, rfl, List.Forall₂.nil⟩
  | denied => exact h.quiet ⟨hnone, hcommits⟩
  | unavailable error charged =>
    cases charged with
    | true => exact hcharge _ ⟨rfl, rfl⟩
    | false => exact h.quiet ⟨hnone, hcommits⟩

theorem kept_step (h : Kept calls s out) (act : Action σ ε) :
    Kept calls (step calls s act) (out ++ (commits calls s act).toList) := by
  cases act with
  | begin c =>
    show Kept calls _ (out ++ [])
    rw [List.append_nil]
    simp only [step]
    split
    · rename_i hc
      have hkept := h c
      rw [hc] at hkept
      exact h.quiet hkept
    · exact h
  | gate =>
    show Kept calls _ (out ++ [])
    rw [List.append_nil]
    simp only [step]
    split
    · rename_i pass seen hc
      exact kept_gate h hc
    · exact h
  | fail c =>
    show Kept calls _ (out ++ [])
    rw [List.append_nil]
    simp only [step]
    split
    · rename_i pass seen hc
      have hkept := h c
      rw [hc] at hkept
      cases pass with
      | first => exact h.quiet hkept
      | second => exact h.quiet ⟨hkept.1, hkept.2.1⟩
    · rename_i seen hc
      have hkept := h c
      rw [hc] at hkept
      exact h.quiet ⟨hkept.1, hkept.2.1⟩
    · exact h
  | admits c answer =>
    show Kept calls _ (out ++ [])
    rw [List.append_nil]
    simp only [step]
    split
    · rename_i hc
      exact kept_admit h hc answer
    · exact h
  | commit c =>
    simp only [step, commits]
    split
    · rename_i seen hc
      have hkept := h c
      rw [hc] at hkept
      split
      · rename_i error heffects
        rw [heffects, Option.toList_none, List.append_nil]
        exact h.quiet ⟨hkept.1, hkept.2.1⟩
      · rename_i domain heffects
        rw [heffects, Option.toList_some]
        refine h.enter _ rfl (fun _ _ => rfl) (fun x hx => by rw [List.mem_singleton.mp hx]) ?_
        refine ⟨hkept.1, ?_⟩
        rw [List.map_append, List.count_append, hkept.2.1]
        simp
    · rw [Option.toList_none, List.append_nil]
      exact h
  | other =>
    show Kept calls _ (out ++ [])
    rw [List.append_nil]
    exact h

theorem commits_eq_some {act : Action σ ε} {x : Commit σ} (h : commits calls s act = some x) :
    act = .commit x.call ∧ s.phase x.call = .effecting x.seen ∧ x.before = s.domain ∧
      (calls x.call).effects x.before = .ok x.after ∧ (step calls s act).domain = x.after := by
  cases act with
  | commit =>
    simp only [commits] at h
    split at h
    · rename_i seen hc
      split at h
      · rename_i domain heffects
        cases h
        exact ⟨rfl, hc, rfl, heffects, by simp only [step, hc, heffects]⟩
      · cases h
    · cases h
  | _ => cases h

theorem kept_after (calls : Nat → Closure σ ε) (domain : σ) (acts : List (Action σ ε)) :
    Kept calls (after calls domain acts) (effects calls domain acts) ∧
      ∀ x ∈ effects calls domain acts, Passed (calls x.call).gates x.seen ∧
        (calls x.call).effects x.before = .ok x.after := by
  have hstep : ∀ s act (out : List (Commit σ)),
      (Kept calls s out ∧ ∀ x ∈ out, Passed (calls x.call).gates x.seen ∧
        (calls x.call).effects x.before = .ok x.after) → True →
      Kept calls (step calls s act) (out ++ (commits calls s act).toList) ∧
        ∀ x ∈ out ++ (commits calls s act).toList, Passed (calls x.call).gates x.seen ∧
          (calls x.call).effects x.before = .ok x.after := by
    intro s act out ⟨hkept, hall⟩ _
    refine ⟨kept_step hkept act, fun x hx => ?_⟩
    rcases List.mem_append.mp hx with hx | hx
    · exact hall x hx
    · obtain ⟨-, hphase, -, heffects, -⟩ := commits_eq_some (Option.mem_toList.mp hx)
      have hc := hkept x.call
      rw [hphase] at hc
      exact ⟨hc.2.2, heffects⟩
  exact Machine.emitted_invariant (fun _ _ _ => True) hstep
    ⟨kept_start domain, fun x hx => (by cases hx)⟩ fun _ _ _ _ => trivial

/-! ### Results -/

/-- What holds of a call that has returned. -/
def Settled (s : State σ ε) (out : List (Commit σ)) (c : Nat) : Exit ε → Prop
  | .early _ => c ∉ s.admitted ∧ c ∉ out.map Commit.call
  | .denied => c ∉ s.admitted ∧ c ∉ out.map Commit.call
  | .unavailable _ _ => c ∉ out.map Commit.call
  | .late _ => c ∈ s.admitted ∧ c ∉ out.map Commit.call
  | .committed => c ∈ s.admitted ∧ c ∈ out.map Commit.call

theorem Kept.settled (h : Kept calls s out) {exit : Exit ε}
    (hc : s.phase c = .done exit) : Settled s out c exit := by
  have hkept := h c
  rw [hc] at hkept
  cases exit with
  | early | denied => exact ⟨List.count_eq_zero.mp hkept.1, List.count_eq_zero.mp hkept.2⟩
  | unavailable => exact List.count_eq_zero.mp hkept.2
  | late result =>
    exact ⟨List.count_pos_iff.mp (by have := hkept.1; omega), List.count_eq_zero.mp hkept.2⟩
  | committed =>
    exact ⟨List.count_pos_iff.mp (by have := hkept.1; omega),
      List.count_pos_iff.mp (by have := hkept.2; omega)⟩

theorem Kept.count_le (h : Kept calls s out) (c : Nat) :
    (out.map Commit.call).count c ≤ s.admitted.count c ∧ s.admitted.count c ≤ 1 := by
  have hkept := h c
  generalize s.phase c = phase at hkept
  cases phase with
  | waiting => simp [Phase.Kept] at hkept; omega
  | gating pass seen => cases pass <;> simp [Phase.Kept] at hkept <;> omega
  | admitting => simp [Phase.Kept] at hkept; omega
  | effecting seen => simp [Phase.Kept] at hkept; omega
  | done exit =>
    cases exit with
    | unavailable error charged => cases charged <;> simp [Phase.Kept] at hkept <;> omega
    | _ => simp [Phase.Kept] at hkept; omega

end SocialActivities.Budgets.Reserve
