import SocialActivities.Lib.Machine
import SocialActivities.Lib.Windows
import Mathlib.Algebra.Order.Ring.Int
import Mathlib.Logic.Function.Basic

/-!
# `SocialActivities.Budgets.FixedWindow`: fixed-window limiters

Three limiters answer a call from the count and the end of one window for each key:

* `allow` (`internal/safety`): one upsert, that leaves the row as it is when it denies.
* `admitPeer` (`internal/accounts`): one upsert, that counts every attempt.
* `allow_action` (`apps/safety`): `cache.add`, then `cache.incr` if there is a window, then
  `cache.set` if that is gone again.

The calls for one key are modelled; those for another key are about another row. A Go call reads the
clock before it waits for the row, and expired rows are deleted at the readings of other calls. So a
schedule is a list of row operations, each with its reading, in the order in which they get the row.
A failed transaction is no step.

`fixed_windows` says when the answers are those of fixed windows. The Python fallback admits a call and
starts the window again, even if another call has started it in between (`raced`). In Go a call with
an old reading may come after the deletion of its window (`late`).
-/

namespace SocialActivities.Budgets.FixedWindow

open Lib
open Lib.Windows (Answer Exact windows place)

namespace Fixed

/-- A count, and the end of its window: `until`, or `expires_at`. -/
structure Row where
  count : Nat
  expiresAt : Int
  deriving DecidableEq

end Fixed

open Fixed (Row)

/-! ### The Go limiters -/

/-- A policy that passes `Valid`; its window is in nanoseconds. -/
structure Policy where
  limit : Nat
  window : Int
  valid : 1 ≤ limit ∧ limit ≤ 10000 ∧ 10 ^ 9 ≤ window ∧ window ≤ 86400 * 10 ^ 9 ∧ window % 1000 = 0

/-- A time as the database stores it, in microseconds. -/
def stored (time : Int) : Int := time / 1000

/-- What a limiter answers, and the row that it leaves. -/
structure Admitted where
  allowed : Bool
  retry : Int
  row : Row
  deriving DecidableEq

/-- The statement of `allow`. -/
def allow (p : Policy) (now : Int) : Option Row → Admitted
  | none => ⟨true, 0, ⟨1, stored (now + p.window)⟩⟩
  | some r =>
    if r.expiresAt ≤ stored now ∨ r.count < p.limit then
      ⟨true, 0,
        { count := if r.expiresAt ≤ stored now then 1 else r.count + 1
          expiresAt := if r.expiresAt ≤ stored now then stored (now + p.window) else r.expiresAt }⟩
    else ⟨false, 0, r⟩

/-- The row that the statement of `admitPeer` returns. -/
def peerRow (p : Policy) (now : Int) : Option Row → Row
  | none => ⟨1, stored (now + p.window)⟩
  | some r =>
    { count := if r.expiresAt ≤ stored now then 1 else min (r.count + 1) 1000000
      expiresAt := if r.expiresAt ≤ stored now then stored (now + p.window) else r.expiresAt }

def admitPeer (p : Policy) (now : Int) (row : Option Row) : Admitted :=
  let r := peerRow p now row
  if r.count ≤ p.limit then ⟨true, 0, r⟩
  else ⟨false, max (10 ^ 9) (1000 * r.expiresAt - now), r⟩

namespace Go

/-- A row operation, with the clock that its call has read. -/
inductive Action where
  | call (now : Int)
  /-- `pruneExpiredActionBudgets`, or `sweepAuthState`, gets to the row. -/
  | prune (now : Int)
  deriving DecidableEq

def Action.now : Action → Int
  | .call now => now
  | .prune now => now

variable (limiter : Int → Option Row → Admitted)

def step (row : Option Row) : Action → Option Row
  | .call now => some (limiter now row).row
  | .prune now => row.filter fun r => stored now < r.expiresAt

def answer (row : Option Row) : Action → Option Answer
  | .call now => some ⟨stored now, (limiter now row).allowed⟩
  | .prune _ => none

def after (acts : List Action) : Option Row := Machine.run (step limiter) none acts

/-- The answers of a schedule, in the order of the row operations. -/
def answers (acts : List Action) : List Answer :=
  Machine.emitted (step limiter) (answer limiter) none acts

end Go

/-! ### `allow_action` -/

namespace Py

/-- What a worker does next in its call. -/
inductive Stage where
  | adds
  | increments
  | sets
  deriving DecidableEq

structure State where
  row : Option Row
  stage : Nat → Stage

def State.start : State := ⟨none, fun _ => .adds⟩

/-- A cache operation of a worker, at the clock of the cache. -/
structure Action where
  worker : Nat
  now : Int
  deriving DecidableEq

/-- The key as the cache has it at a time: an expired key is absent. -/
def live (now : Int) (row : Option Row) : Option Row := row.filter fun r => now < r.expiresAt

variable (limit : Int) (window : Int)

/-- The next operation of the worker's call: the state after it, and the answer if the call returns. -/
def perform (s : State) (act : Action) : State × Option Bool :=
  let next (row : Option Row) (stage : Stage) : State := ⟨row, Function.update s.stage act.worker stage⟩
  match s.stage act.worker with
  | .adds =>
    if limit ≤ 0 then (s, some false)
    else
      match live act.now s.row with
      | none => (next (some ⟨1, act.now + window⟩) .adds, some true)
      | some _ => (next s.row .increments, none)
  | .increments =>
    match live act.now s.row with
    | none => (next s.row .sets, none)
    | some r => (next (some { r with count := r.count + 1 }) .adds, some (decide ((r.count + 1 : Int) ≤ limit)))
  | .sets => (next (some ⟨1, act.now + window⟩) .adds, some true)

def step (s : State) (act : Action) : State := (perform limit window s act).1

def answer (s : State) (act : Action) : Option Answer :=
  (perform limit window s act).2.map fun allowed => ⟨act.now, allowed⟩

def answers (acts : List Action) : List Answer :=
  Machine.emitted (step limit window) (answer limit window) State.start acts

end Py

/-! ### The Go limiters count windows -/

namespace Policy

variable (p : Policy)

/-- The length of a window, as the database stores times. -/
def length : Int := p.window / 1000

theorem stored_add (now : Int) : stored (now + p.window) = stored now + p.length := by
  have hwhole := p.valid.2.2.2.2
  simp only [stored, length]
  omega

end Policy

/-- A limiter starts a window when the row is absent or has expired, and counts the calls in it up to
`cap`. -/
structure Counts (p : Policy) (cap : Nat) (limiter : Int → Option Row → Admitted) : Prop where
  limit_le : p.limit ≤ cap
  fresh : ∀ now row, (∀ r, row = some r → r.expiresAt ≤ stored now) →
    (limiter now row).allowed = true ∧ (limiter now row).row = ⟨1, stored now + p.length⟩
  live : ∀ now r, stored now < r.expiresAt → r.count ≤ cap →
    (limiter now (some r)).allowed = decide (r.count < p.limit) ∧
      (limiter now (some r)).row = ⟨min (r.count + 1) cap, r.expiresAt⟩

theorem counts_allow (p : Policy) : Counts p p.limit (allow p) where
  limit_le := le_rfl
  fresh now row hrow := by
    cases row with
    | none => exact ⟨rfl, by simp [allow, p.stored_add]⟩
    | some r => simp [allow, hrow r rfl, p.stored_add]
  live now r hlive hcap := by
    have hnot : ¬r.expiresAt ≤ stored now := Int.not_le.mpr hlive
    by_cases hroom : r.count < p.limit
    · have hmin : min (r.count + 1) p.limit = r.count + 1 := by omega
      simp [allow, hnot, hroom, hmin]
    · -- A full row keeps its count, which is the limit.
      have hmin : min (r.count + 1) p.limit = r.count := by omega
      simp [allow, hnot, hroom, hmin]

theorem counts_admitPeer (p : Policy) : Counts p 1000000 (admitPeer p) where
  limit_le := by
    have := p.valid.2.1
    omega
  fresh now row hrow := by
    have hpeer : peerRow p now row = ⟨1, stored now + p.length⟩ := by
      cases row with
      | none => simp [peerRow, p.stored_add]
      | some r => simp [peerRow, hrow r rfl, p.stored_add]
    simp [admitPeer, hpeer, p.valid.1]
  live now r hlive hcap := by
    have hlimit := p.valid.2.1
    have hpeer : peerRow p now (some r) = ⟨min (r.count + 1) 1000000, r.expiresAt⟩ := by
      simp [peerRow, Int.not_le.mpr hlive]
    simp only [admitPeer, hpeer]
    split
    · rename_i hroom
      have hlt : r.count < p.limit := by
        change min (r.count + 1) 1000000 ≤ p.limit at hroom
        omega
      exact ⟨(decide_eq_true hlt).symm, rfl⟩
    · rename_i hfull
      have hge : ¬r.count < p.limit := by
        change ¬min (r.count + 1) 1000000 ≤ p.limit at hfull
        omega
      exact ⟨(decide_eq_false hge).symm, rfl⟩

namespace Go

/-- A call that finds no row reads a clock at which the window before has ended. -/
def InTime (p : Policy) (row : Option Row) (act : Action) (log : List Answer) : Prop :=
  row = none → ∀ now, act = .call now →
    ∀ x, (windows p.length log).head? = some x → x.finish p.length ≤ stored now

/-- The answers are exact, and a row is about the last window. -/
structure Inv (p : Policy) (cap : Nat) (row : Option Row) (log : List Answer) : Prop where
  exact : Exact p.length p.limit log
  row : ∀ r, row = some r → ∃ x, (windows p.length log).head? = some x ∧
    r.expiresAt = x.finish p.length ∧ r.count = min x.calls.length cap

variable {p : Policy} {cap : Nat} {limiter : Int → Option Row → Admitted}

theorem Inv.step (hlimiter : Counts p cap limiter) {row : Option Row} {log : List Answer}
    (h : Inv p cap row log) {act : Action} (htime : InTime p row act log) :
    Inv p cap (step limiter row act) (log ++ (answer limiter row act).toList) := by
  cases act with
  | prune =>
    rw [answer, Option.toList_none, List.append_nil]
    exact ⟨h.exact, fun r hr => h.row r (Option.filter_eq_some_iff.mp hr).1⟩
  | call now =>
    have hcap : 1 ≤ cap := p.valid.1.trans hlimiter.limit_le
    rw [answer, Option.toList_some, Go.step]
    by_cases hfresh : ∀ r, row = some r → r.expiresAt ≤ stored now
    · obtain ⟨hallowed, hrow⟩ := hlimiter.fresh now row hfresh
      -- The window before has ended too, if there is one.
      have hended : ∀ x, (windows p.length log).head? = some x → x.finish p.length ≤ stored now := by
        intro x hx
        cases row with
        | none => exact htime rfl now rfl x hx
        | some r =>
          obtain ⟨y, hy, hend, -⟩ := h.row r rfl
          obtain rfl : y = x := Option.some.inj (hy.symm.trans hx)
          exact hend ▸ hfresh r rfl
      refine ⟨h.exact.concat ?_, fun r hr => ?_⟩
      · rw [Windows.place_fresh hended, hallowed]
        exact (decide_eq_true p.valid.1).symm
      · rw [hrow] at hr
        cases hr
        rw [Windows.windows_fresh (c := ⟨stored now, (limiter now row).allowed⟩) hended]
        exact ⟨_, rfl, rfl, by simp [Windows.Window.calls, hcap]⟩
    · push Not at hfresh
      obtain ⟨r, rfl, hlive⟩ := hfresh
      obtain ⟨x, hx, hend, hcount⟩ := h.row r rfl
      obtain ⟨hallowed, hrow⟩ := hlimiter.live now r hlive (hcount ▸ min_le_right _ _)
      rw [hend] at hlive
      refine ⟨h.exact.concat ?_, fun r' hr => ?_⟩
      · have hlimit := hlimiter.limit_le
        have hroom : r.count < p.limit ↔ x.calls.length < p.limit := by omega
        rw [Windows.place_open hx hlive, hallowed, decide_eq_decide]
        exact hroom
      · rw [hrow] at hr
        cases hr
        rw [Windows.windows_open (c := ⟨stored now, (limiter now (some r)).allowed⟩) hx hlive]
        refine ⟨_, rfl, hend, ?_⟩
        simp only [Windows.Window.calls, List.length_cons, List.length_append, List.length_nil] at hcount ⊢
        omega

theorem exact_answers (hlimiter : Counts p cap limiter) {acts : List Action}
    (htime : ∀ before act rest, acts = before ++ act :: rest →
      InTime p (after limiter before) act (answers limiter before)) :
    Exact p.length p.limit (answers limiter acts) := by
  have hstep : ∀ row act log, Inv p cap row log → InTime p row act log →
      Inv p cap (Go.step limiter row act) (log ++ (answer limiter row act).toList) :=
    fun row act log h hact => h.step hlimiter hact
  have hstart : Inv p cap none [] := ⟨Windows.exact_nil _, fun r hr => (by cases hr)⟩
  exact (Machine.emitted_invariant (InTime p) hstep hstart htime).exact

theorem inv_of_pairwise (hlimiter : Counts p cap limiter) (acts : List Action)
    (hsorted : acts.Pairwise fun a b => a.now ≤ b.now) :
    Inv p cap (after limiter acts) (answers limiter acts) ∧
      ∀ now, (∀ act ∈ acts, act.now ≤ now) → InTime p (after limiter acts) (.call now) (answers limiter acts) := by
  induction acts using List.reverseRecOn with
  | nil =>
    refine ⟨⟨Windows.exact_nil _, fun r hr => (by cases hr)⟩, ?_⟩
    intro _ _ _ _ _ x hx
    cases hx
  | append_singleton acts act ih =>
    obtain ⟨hbefore, -, hlast⟩ := List.pairwise_append.mp hsorted
    obtain ⟨hinv, htime⟩ := ih hbefore
    have hact : InTime p (after limiter acts) act (answers limiter acts) := by
      cases act with
      | call now => exact htime now fun a ha => hlast a ha _ (List.mem_singleton_self _)
      | prune => exact fun _ _ hcall => by cases hcall
    have hnext := hinv.step hlimiter hact
    rw [after, answers, Machine.run_concat, Machine.emitted_concat]
    refine ⟨hnext, fun now hnow hgone _ hcall x hx => ?_⟩
    cases hcall
    cases act with
    | call => cases hgone
    | prune now' =>
      rw [answer, Option.toList_none, List.append_nil] at hx
      have hearlier : ∀ a ∈ acts, a.now ≤ now := fun a ha => hnow a (List.mem_append_left _ ha)
      cases hrow : after limiter acts with
      | none => exact htime now hearlier hrow now rfl x hx
      | some r =>
        obtain ⟨y, hy, hend, -⟩ := hinv.row r hrow
        obtain rfl : y = x := Option.some.inj (hy.symm.trans hx)
        change (after limiter acts).filter (fun r => decide (stored now' < r.expiresAt)) = none at hgone
        rw [hrow, Option.filter_some, ite_eq_right_iff] at hgone
        have hpruned : ¬stored now' < r.expiresAt := fun hlive => by simpa using hgone (by simpa using hlive)
        have hle : now' ≤ now := hnow (.prune now') (by simp)
        simp only [stored] at hpruned ⊢
        omega

theorem inTime_of_pairwise (hlimiter : Counts p cap limiter) {acts : List Action}
    (hsorted : acts.Pairwise fun a b => a.now ≤ b.now) :
    ∀ before act rest, acts = before ++ act :: rest →
      InTime p (after limiter before) act (answers limiter before) := by
  rintro before act rest rfl hgone now rfl
  obtain ⟨hbefore, -, hlast⟩ := List.pairwise_append.mp hsorted
  exact (inv_of_pairwise hlimiter before hbefore).2 now
    (fun a ha => hlast a ha _ List.mem_cons_self) hgone now rfl

end Go

/-! ### `allow_action` counts windows, but for its fallback -/

namespace Py

/-- A call that starts the window in place of one that is gone finds none open. -/
def InTime (s : State) (act : Action) : Prop :=
  s.stage act.worker = .sets → live act.now s.row = none

variable {now : Int}

theorem live_eq_none {row : Option Row} :
    live now row = none ↔ ∀ r, row = some r → r.expiresAt ≤ now := by
  simp [live, Option.filter_eq_none_iff]

theorem live_eq_some {row : Option Row} {r : Row} :
    live now row = some r ↔ row = some r ∧ now < r.expiresAt := by
  simp [live, Option.filter_eq_some_iff]

variable {limit window : Int}

structure Inv (limit window : Int) (s : State) (log : List Answer) : Prop where
  exact : Exact window limit.toNat log
  /-- Without a limit no call gets past its first check. -/
  idle : limit ≤ 0 → s.row = none ∧ ∀ w, s.stage w = .adds
  absent : 0 < limit → s.row = none → log = []
  row : ∀ r, s.row = some r → ∃ x, (windows window log).head? = some x ∧
    r.expiresAt = x.finish window ∧ r.count = x.calls.length

variable {s : State} {log : List Answer}

theorem Inv.ended (h : Inv limit window s log) (hlimit : 0 < limit)
    (hlive : live now s.row = none) :
    ∀ x, (windows window log).head? = some x → x.finish window ≤ now := by
  intro x hx
  cases hrow : s.row with
  | none =>
    rw [h.absent hlimit hrow] at hx
    cases hx
  | some r =>
    obtain ⟨y, hy, hend, -⟩ := h.row r hrow
    obtain rfl : y = x := Option.some.inj (hy.symm.trans hx)
    exact hend ▸ live_eq_none.mp hlive r hrow

theorem Inv.started (h : Inv limit window s log) (hlimit : 0 < limit)
    (hlive : live now s.row = none) (stage : Nat → Stage) :
    Inv limit window ⟨some ⟨1, now + window⟩, stage⟩ (log ++ [⟨now, true⟩]) where
  exact := by
    refine h.exact.concat ?_
    rw [Windows.place_fresh (h.ended hlimit hlive)]
    exact (decide_eq_true (by omega)).symm
  idle hnone := by omega
  absent _ hrow := by cases hrow
  row r hr := by
    cases hr
    rw [Windows.windows_fresh (c := ⟨now, true⟩) (h.ended hlimit hlive)]
    exact ⟨_, rfl, rfl, rfl⟩

theorem Inv.step (h : Inv limit window s log) {act : Action} (htime : InTime s act) :
    Inv limit window (step limit window s act) (log ++ (answer limit window s act).toList) := by
  have hpast : s.stage act.worker ≠ .adds → 0 < limit := by
    intro hne
    by_contra hlimit
    exact hne ((h.idle (by omega)).2 _)
  simp only [Py.step, answer, perform]
  split
  · split
    · rename_i hlimit
      have hzero : limit.toNat = 0 := by omega
      refine ⟨h.exact.concat (by simp [hzero]), h.idle, fun hpos => by omega, fun r hr => ?_⟩
      rw [(h.idle hlimit).1] at hr
      cases hr
    · rename_i hlimit
      split
      · rename_i hlive
        exact h.started (by omega) hlive _
      · simp only [Option.map_none, Option.toList_none, List.append_nil]
        exact ⟨h.exact, fun hnone => by omega, h.absent, h.row⟩
  · rename_i hstage
    have hlimit : 0 < limit := hpast (by simp [hstage])
    split
    · simp only [Option.map_none, Option.toList_none, List.append_nil]
      exact ⟨h.exact, fun hnone => by omega, h.absent, h.row⟩
    · rename_i r hlive
      obtain ⟨hrow, hopen⟩ := live_eq_some.mp hlive
      obtain ⟨x, hx, hend, hcount⟩ := h.row r hrow
      rw [hend] at hopen
      refine ⟨h.exact.concat ?_, fun hnone => by omega, fun _ hrow => (by cases hrow), fun r' hr => ?_⟩
      · show decide ((r.count + 1 : Int) ≤ limit) = _
        rw [Windows.place_open hx hopen, decide_eq_decide]
        omega
      · cases hr
        rw [Option.map_some, Option.toList_some,
          Windows.windows_open (c := ⟨act.now, decide ((r.count + 1 : Int) ≤ limit)⟩) hx hopen]
        exact ⟨_, rfl, hend, by simp [Windows.Window.calls, hcount]⟩
  · rename_i hstage
    exact h.started (hpast (by simp [hstage])) (htime hstage) _

instance (s : State) (act : Action) : Decidable (InTime s act) :=
  inferInstanceAs (Decidable (_ → _))

theorem exact_answers {acts : List Action}
    (htime : ∀ q ∈ Machine.steps (step limit window) State.start acts, InTime q.1 q.2) :
    Exact window limit.toNat (answers limit window acts) := by
  have hstep : ∀ s act log, Inv limit window s log → InTime s act →
      Inv limit window (Py.step limit window s act) (log ++ (answer limit window s act).toList) :=
    fun s act log h hact => h.step hact
  have hstart : Inv limit window State.start [] :=
    ⟨Windows.exact_nil _, fun _ => ⟨rfl, fun _ => rfl⟩, fun _ _ => rfl, fun r hr => (by cases hr)⟩
  exact (Machine.emitted_invariant (fun s act _ => InTime s act) hstep hstart
    fun before act rest heq => htime (_, act) ((Machine.mem_steps _).mpr ⟨before, rest, heq, rfl⟩)).exact

end Py

/-! ### Fixed windows -/

/-- In each schedule whose steps are in time, the answers of every limiter are those of fixed windows: in
the window that an admitted call starts, the first calls are admitted up to the limit, and no others. -/
theorem fixed_windows (p : Policy) :
    (∀ acts : List Go.Action,
      (∀ before act rest, acts = before ++ act :: rest →
        Go.InTime p (Go.after (allow p) before) act (Go.answers (allow p) before)) →
      Exact p.length p.limit (Go.answers (allow p) acts)) ∧
    (∀ acts : List Go.Action,
      (∀ before act rest, acts = before ++ act :: rest →
        Go.InTime p (Go.after (admitPeer p) before) act (Go.answers (admitPeer p) before)) →
      Exact p.length p.limit (Go.answers (admitPeer p) acts)) ∧
    ∀ (limit window : Int) (acts : List Py.Action),
      (∀ q ∈ Machine.steps (Py.step limit window) Py.State.start acts, Py.InTime q.1 q.2) →
      Exact window limit.toNat (Py.answers limit window acts) :=
  ⟨fun _ htime => Go.exact_answers (counts_allow p) htime,
    fun _ htime => Go.exact_answers (counts_admitPeer p) htime,
    fun _ _ _ htime => Py.exact_answers htime⟩

/-- One call in a second. -/
def samplePolicy : Policy := ⟨1, 10 ^ 9, by decide⟩

/-- Two calls in one window, and a later one; a window that ends between two operations of a call. -/
theorem fixed_windows_sample :
    Exact samplePolicy.length samplePolicy.limit
      (Go.answers (allow samplePolicy) [.call 0, .call 5000, .prune (10 ^ 9), .call (10 ^ 9)]) ∧
    Exact samplePolicy.length samplePolicy.limit
      (Go.answers (admitPeer samplePolicy) [.call 0, .call 5000, .call (10 ^ 9)]) ∧
    Exact 10 1 (Py.answers 1 10 [⟨0, 0⟩, ⟨1, 9⟩, ⟨1, 9⟩, ⟨1, 9⟩, ⟨1, 10⟩, ⟨1, 10⟩]) :=
  ⟨(fixed_windows samplePolicy).1 _ (Go.inTime_of_pairwise (counts_allow _) (by decide)),
    (fixed_windows samplePolicy).2.1 _ (Go.inTime_of_pairwise (counts_admitPeer _) (by decide)),
    (fixed_windows samplePolicy).2.2 1 10 _ (by decide)⟩

/-- A call is admitted; two more find its window, which ends before they count. -/
def raced : List Py.Action := [⟨0, 0⟩, ⟨1, 9⟩, ⟨2, 9⟩, ⟨1, 10⟩, ⟨2, 10⟩, ⟨1, 10⟩, ⟨2, 10⟩]

/-- A call is admitted; the next one reads the clock in its window, and gets to the row after another
call has deleted it. -/
def late : List Go.Action := [.call 0, .prune (10 ^ 9), .call (10 ^ 9 - 1000), .call (10 ^ 9)]

/-- Two callers start the same window, and one call too many is admitted in it. A late call is admitted
in a window that is full, and the call in the next window is denied. -/
theorem fixed_windows_raced :
    Py.answers 1 10 raced = [⟨0, true⟩, ⟨10, true⟩, ⟨10, true⟩] ∧
    ¬Exact 10 1 (Py.answers 1 10 raced) ∧
    Go.answers (allow samplePolicy) late = [⟨0, true⟩, ⟨999999, true⟩, ⟨1000000, false⟩] ∧
    ¬Exact samplePolicy.length samplePolicy.limit (Go.answers (allow samplePolicy) late) := by
  decide

end SocialActivities.Budgets.FixedWindow
