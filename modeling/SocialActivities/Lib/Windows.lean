import Mathlib.Data.List.Basic

/-!
# `SocialActivities.Lib.Windows`: fixed windows of a log of answers

A limiter answers calls one after another. `windows` cuts its log: the first call starts a window of
a given length, the calls before the end of the window belong to it, and the first call at the end or
later starts the next one. `Exact` says that in every window the first calls, up to the limit, are
admitted, and no others; so their number is the smaller one of the limit and the calls
(`Exact.count`).

`place` is the number of calls that share the window of a new call. A limiter is exact when it admits
a call exactly if its place is under the limit (`Exact.concat`). `windows_concat` says what a call
adds.
-/

namespace SocialActivities.Lib.Windows

/-- The time of a call, and whether it was admitted. -/
structure Answer where
  time : Int
  admitted : Bool
  deriving DecidableEq

structure Window where
  first : Answer
  rest : List Answer
  deriving DecidableEq

def Window.calls (x : Window) : List Answer := x.first :: x.rest

variable (length : Int)

def Window.finish (x : Window) : Int := x.first.time + length

/-- One more call. The windows stand latest first. -/
def extend (xs : List Window) (c : Answer) : List Window :=
  match xs with
  | [] => [⟨c, []⟩]
  | x :: earlier =>
    if x.finish length ≤ c.time then ⟨c, []⟩ :: x :: earlier
    else { x with rest := x.rest ++ [c] } :: earlier

/-- The windows of a log, latest first. -/
def windows (log : List Answer) : List Window := log.foldl (extend length) []

/-- In every window the first `limit` calls are admitted, and no others. -/
def Exact (limit : Nat) (log : List Answer) : Prop :=
  ∀ x ∈ windows length log,
    x.calls.map Answer.admitted = (List.range x.calls.length).map fun i => decide (i < limit)

instance (limit : Nat) (log : List Answer) : Decidable (Exact length limit log) :=
  inferInstanceAs (Decidable (∀ x ∈ windows length log, _))

/-- The number of calls so far in the window of a call at a time. -/
def place (log : List Answer) (time : Int) : Nat :=
  match (windows length log).head? with
  | none => 0
  | some x => if x.finish length ≤ time then 0 else x.calls.length

variable {length}

theorem windows_concat (log : List Answer) (c : Answer) :
    windows length (log ++ [c]) = extend length (windows length log) c := by
  simp [windows]

variable {log : List Answer} {c : Answer}

theorem windows_fresh {c : Answer}
    (h : ∀ x, (windows length log).head? = some x → x.finish length ≤ c.time) :
    windows length (log ++ [c]) = ⟨c, []⟩ :: windows length log := by
  rw [windows_concat]
  cases hlog : windows length log with
  | nil => rfl
  | cons x =>
    have hended : x.finish length ≤ c.time := h x (by rw [hlog]; rfl)
    simp [extend, hended]

theorem windows_open {x : Window}
    (hhead : (windows length log).head? = some x) (h : c.time < x.finish length) :
    windows length (log ++ [c]) =
      { x with rest := x.rest ++ [c] } :: (windows length log).tail := by
  rw [windows_concat]
  cases hlog : windows length log with
  | nil => simp [hlog] at hhead
  | cons y =>
    rw [hlog] at hhead
    obtain rfl : y = x := Option.some.inj hhead
    simp [extend, Int.not_le.mpr h]

theorem place_fresh {time : Int}
    (h : ∀ x, (windows length log).head? = some x → x.finish length ≤ time) :
    place length log time = 0 := by
  rw [place]
  split
  · rfl
  · rename_i x hx
    exact if_pos (h x hx)

theorem place_open {time : Int} {x : Window}
    (hhead : (windows length log).head? = some x) (h : time < x.finish length) :
    place length log time = x.calls.length := by
  simp [place, hhead, Int.not_le.mpr h]

theorem exact_nil (limit : Nat) : Exact length limit [] := by
  intro x hx
  cases hx

theorem Exact.concat {limit : Nat} (h : Exact length limit log)
    (hc : c.admitted = decide (place length log c.time < limit)) :
    Exact length limit (log ++ [c]) := by
  intro x hx
  by_cases hended : ∀ y, (windows length log).head? = some y → y.finish length ≤ c.time
  · rw [windows_fresh hended] at hx
    rcases List.mem_cons.mp hx with rfl | hx
    · rw [place_fresh hended] at hc
      simp [Window.calls, hc]
    · exact h x hx
  · obtain ⟨y, hended⟩ := not_forall.mp hended
    obtain ⟨hhead, hended⟩ := Classical.not_imp.mp hended
    have hopen : c.time < y.finish length := Int.not_le.mp hended
    rw [windows_open hhead hopen] at hx
    rcases List.mem_cons.mp hx with rfl | hx
    · -- The window gets one more call, at the place that the answer follows.
      have hy := h y (List.mem_of_mem_head? hhead)
      have hcalls : ({ y with rest := y.rest ++ [c] } : Window).calls = y.calls ++ [c] := rfl
      rw [place_open hhead hopen] at hc
      rw [hcalls, List.map_append, hy, List.length_append, List.length_singleton, List.range_succ,
        List.map_append, List.map_singleton, List.map_singleton, hc]
    · exact h x (List.mem_of_mem_tail hx)

end SocialActivities.Lib.Windows
