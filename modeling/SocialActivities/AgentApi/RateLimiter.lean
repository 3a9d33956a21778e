import Mathlib.Algebra.Order.Field.Rat
import Mathlib.Tactic.Linarith
import Mathlib.Tactic.Positivity
import Mathlib.Tactic.NormNum
import SocialActivities.Lib.KeyMap
import SocialActivities.Lib.Machine

/-!
# `SocialActivities.AgentApi.RateLimiter`: the token buckets of the public API

`RateLimiter` of `services/agentapi/middleware.go`, with the bounds of `LoadConfig`. Each call of `Allow`
reads the clock before it takes the lock, so a run is a list of requests in the order of the lock, and
the readings may go back. Times are in nanoseconds, and tokens are rationals.

A sweep drops a bucket that was idle for `idleTTL`, and the next request of its client makes a full one.
That is no more than the bucket would have by then if a burst is refilled within `idleTTL`, and if the
request does not carry a reading from before the sweep (`Ordered`).

The proof of `limiter_bounds` is by `allowance`: what a client may still get admitted until `hi`. No
request adds to it, and each that is admitted takes one off.
-/

namespace SocialActivities.AgentApi

open Lib

/-- The check of `LoadConfig` on a field. -/
def inBounds (value max : Int) : Bool := !(decide (value < 1) || decide (max < value))

/-- What `LoadConfig` accepts. -/
structure Config where
  ratePerMin : Int
  rateBurst : Int
  accepted : (inBounds ratePerMin 1000000 && inBounds rateBurst 10000) = true

abbrev Key := List UInt8

def maxLimiterClients : Nat := 10000

def minute : Int := 60 * 10 ^ 9

def idleTTL : Int := 10 * minute

structure TokenBucket where
  tokens : ℚ
  last : Int
  deriving DecidableEq

structure RateLimiter where
  buckets : KeyMap Key TokenBucket
  lastSweep : Option Int

def RateLimiter.new : RateLimiter := ⟨KeyMap.empty, none⟩

/-- `len(rl.buckets)`. -/
def RateLimiter.size (rl : RateLimiter) : Nat := rl.buckets.count fun _ _ => true

def sweepLocked (now : Int) (rl : RateLimiter) : RateLimiter :=
  if rl.lastSweep.any fun t => decide (now - t < minute) then rl
  else
    { buckets := rl.buckets.removeIf fun _ b => decide (idleTTL < now - b.last)
      lastSweep := some now }

/-- The tokens that come back in a time. -/
def Config.refill (cfg : Config) (elapsed : Int) : ℚ := elapsed * cfg.ratePerMin / minute

/-- The bucket at the time of a request. -/
def TokenBucket.refilled (cfg : Config) (now : Int) (b : TokenBucket) : TokenBucket :=
  if 0 < now - b.last then ⟨min cfg.rateBurst (b.tokens + cfg.refill (now - b.last)), now⟩ else b

/-- A token is taken if there is one. -/
def take (key : Key) (b : TokenBucket) (rl : RateLimiter) : RateLimiter × Bool :=
  if 1 ≤ b.tokens then ({ rl with buckets := rl.buckets.set key { b with tokens := b.tokens - 1 } }, true)
  else ({ rl with buckets := rl.buckets.set key b }, false)

/-- A request, with the reading of its clock. -/
structure Request where
  now : Int
  key : Key
  deriving DecidableEq

/-- The keys that get a bucket. -/
def Valid (key : Key) : Prop := ¬(128 < key.length ∨ key = [])

instance (key : Key) : Decidable (Valid key) := inferInstanceAs (Decidable ¬_)

def allow (cfg : Config) (rl : RateLimiter) (r : Request) : RateLimiter × Bool :=
  if 128 < r.key.length ∨ r.key = [] then (rl, false)
  else
    let rl := sweepLocked r.now rl
    match rl.buckets.get? r.key with
    | none =>
      if maxLimiterClients ≤ rl.size then (rl, false) else take r.key ⟨cfg.rateBurst, r.now⟩ rl
    | some b => take r.key (b.refilled cfg r.now) rl

def step (cfg : Config) (rl : RateLimiter) (r : Request) : RateLimiter := (allow cfg rl r).1

abbrev after (cfg : Config) (rs : List Request) : RateLimiter := Machine.run (step cfg) .new rs

/-- The request is one of the client, and it is admitted. -/
def admits (cfg : Config) (key : Key) (rl : RateLimiter) (r : Request) : Option Request :=
  if r.key = key ∧ (allow cfg rl r).2 = true then some r else none

/-- The requests of a client that a stretch of a run admits. -/
def admitted (cfg : Config) (key : Key) (rl : RateLimiter) (rs : List Request) : List Request :=
  Machine.emitted (step cfg) (admits cfg key) rl rs

variable {cfg : Config} {rl : RateLimiter} {key : Key} {r : Request}

theorem Config.one_le_rate (cfg : Config) : (1 : ℚ) ≤ cfg.ratePerMin := by
  have h := cfg.accepted
  simp [inBounds] at h
  exact_mod_cast h.1.1

theorem Config.one_le_burst (cfg : Config) : (1 : ℚ) ≤ cfg.rateBurst := by
  have h := cfg.accepted
  simp [inBounds] at h
  exact_mod_cast h.2.1

theorem minute_pos : (0 : ℚ) < (minute : ℚ) := by norm_num [minute]

theorem Config.refill_mono (cfg : Config) {x y : Int} (h : x ≤ y) : cfg.refill x ≤ cfg.refill y := by
  have hrate := cfg.one_le_rate
  have hxy : (x : ℚ) ≤ y := by exact_mod_cast h
  exact div_le_div_of_nonneg_right (mul_le_mul_of_nonneg_right hxy (by linarith)) minute_pos.le

theorem Config.refill_add (cfg : Config) (x y : Int) : cfg.refill (x + y) = cfg.refill x + cfg.refill y := by
  rw [Config.refill, Int.cast_add, add_mul, add_div]
  rfl

theorem Config.refill_nonneg (cfg : Config) {x : Int} (h : 0 ≤ x) : 0 ≤ cfg.refill x := by
  have hmono := cfg.refill_mono h
  simpa [Config.refill] using hmono

/-! ### What a request does -/

/-- The bucket after a request. -/
def TokenBucket.spent (b : TokenBucket) : TokenBucket :=
  if 1 ≤ b.tokens then { b with tokens := b.tokens - 1 } else b

theorem take_eq (key : Key) (b : TokenBucket) (rl : RateLimiter) :
    take key b rl = ({ rl with buckets := rl.buckets.set key b.spent }, decide (1 ≤ b.tokens)) := by
  rw [take, TokenBucket.spent]
  split <;> simp [*]

/-- A request that is not refused takes from the bucket of its client, or from a new one. -/
theorem allow_cases (cfg : Config) (rl : RateLimiter) (r : Request) :
    (¬Valid r.key ∧ allow cfg rl r = (rl, false)) ∨
      ((sweepLocked r.now rl).buckets.get? r.key = none ∧
        maxLimiterClients ≤ (sweepLocked r.now rl).size ∧ allow cfg rl r = (sweepLocked r.now rl, false)) ∨
      ∃ b, ((sweepLocked r.now rl).buckets.get? r.key = none ∧
            (sweepLocked r.now rl).size < maxLimiterClients ∧ b = ⟨cfg.rateBurst, r.now⟩ ∨
          ∃ old, (sweepLocked r.now rl).buckets.get? r.key = some old ∧ b = old.refilled cfg r.now) ∧
        allow cfg rl r = take r.key b (sweepLocked r.now rl) := by
  rw [allow]
  by_cases hvalid : 128 < r.key.length ∨ r.key = []
  · rw [if_pos hvalid]
    exact Or.inl ⟨fun h => h hvalid, rfl⟩
  · rw [if_neg hvalid]
    dsimp only
    cases hget : (sweepLocked r.now rl).buckets.get? r.key with
    | none =>
      dsimp only
      by_cases hfull : maxLimiterClients ≤ (sweepLocked r.now rl).size
      · rw [if_pos hfull]
        exact Or.inr (Or.inl ⟨rfl, hfull, rfl⟩)
      · rw [if_neg hfull]
        exact Or.inr (Or.inr ⟨_, Or.inl ⟨rfl, by omega, rfl⟩, rfl⟩)
    | some old => exact Or.inr (Or.inr ⟨_, Or.inr ⟨old, rfl, rfl⟩, rfl⟩)

/-- A sweep leaves a bucket alone, or drops one that was idle. -/
theorem get?_sweepLocked (now : Int) (rl : RateLimiter) (key : Key) :
    ((sweepLocked now rl).buckets.get? key = rl.buckets.get? key ∧
      ((sweepLocked now rl).lastSweep = rl.lastSweep ∨ (sweepLocked now rl).lastSweep = some now)) ∨
      ∃ b, rl.buckets.get? key = some b ∧ idleTTL < now - b.last ∧
        (sweepLocked now rl).buckets.get? key = none ∧ (sweepLocked now rl).lastSweep = some now := by
  rw [sweepLocked]
  split
  · exact Or.inl ⟨rfl, Or.inl rfl⟩
  · dsimp only
    rw [KeyMap.get?_removeIf]
    cases rl.buckets.get? key with
    | none => exact Or.inl ⟨rfl, Or.inr rfl⟩
    | some b =>
      by_cases hidle : idleTTL < now - b.last
      · exact Or.inr ⟨b, rfl, hidle, by simp; omega, rfl⟩
      · exact Or.inl ⟨by simp [hidle], Or.inr rfl⟩

theorem get?_of_sweepLocked {now : Int} {b : TokenBucket}
    (h : (sweepLocked now rl).buckets.get? key = some b) : rl.buckets.get? key = some b := by
  rcases get?_sweepLocked now rl key with ⟨hsame, _⟩ | ⟨_, _, _, hnone, _⟩
  · rw [← hsame, h]
  · rw [hnone] at h
    cases h

theorem size_sweepLocked (now : Int) (rl : RateLimiter) : (sweepLocked now rl).size ≤ rl.size := by
  rw [sweepLocked]
  split
  · exact Nat.le_refl _
  · rw [RateLimiter.size, KeyMap.count_removeIf]
    exact KeyMap.count_le_count fun _ _ _ _ => rfl

/-! ### Reachable limiters -/

/-- The buckets hold at most a burst, their times are readings of requests, and they are not too many. -/
structure Sound (cfg : Config) (rs : List Request) (rl : RateLimiter) : Prop where
  tokens : ∀ key b, rl.buckets.get? key = some b → 0 ≤ b.tokens ∧ b.tokens ≤ cfg.rateBurst
  read : ∀ key b, rl.buckets.get? key = some b → ∃ r ∈ rs, r.key = key ∧ r.now = b.last
  swept : ∀ t, rl.lastSweep = some t → ∃ r ∈ rs, r.now = t
  size : rl.size ≤ maxLimiterClients

theorem refilled_bounds {b : TokenBucket} (h : 0 ≤ b.tokens ∧ b.tokens ≤ cfg.rateBurst) (now : Int) :
    0 ≤ (b.refilled cfg now).tokens ∧ (b.refilled cfg now).tokens ≤ cfg.rateBurst := by
  rw [TokenBucket.refilled]
  split
  · have hrefill := cfg.refill_nonneg (x := now - b.last) (by omega)
    have hburst := cfg.one_le_burst
    exact ⟨le_min (by linarith) (by linarith), min_le_left _ _⟩
  · exact h

theorem spent_bounds {b : TokenBucket} (h : 0 ≤ b.tokens ∧ b.tokens ≤ cfg.rateBurst) :
    0 ≤ b.spent.tokens ∧ b.spent.tokens ≤ cfg.rateBurst := by
  rw [TokenBucket.spent]
  split
  · exact ⟨sub_nonneg.mpr ‹_›, by have := h.2; dsimp only; linarith⟩
  · exact h

theorem last_spent (b : TokenBucket) : b.spent.last = b.last := by
  rw [TokenBucket.spent]
  split <;> rfl

theorem last_refilled (cfg : Config) (now : Int) (b : TokenBucket) :
    (b.refilled cfg now).last = max b.last now := by
  rw [TokenBucket.refilled]
  split
  · show now = _
    omega
  · omega

theorem sound_step {rs : List Request} (h : Sound cfg rs rl) (r : Request) :
    Sound cfg (rs ++ [r]) (step cfg rl r) := by
  have hread : ∀ key b, rl.buckets.get? key = some b → ∃ q ∈ rs ++ [r], q.key = key ∧ q.now = b.last := by
    intro key b hget
    obtain ⟨q, hq, hsame⟩ := h.read key b hget
    exact ⟨q, List.mem_append_left _ hq, hsame⟩
  have hsweep : ∀ t, (sweepLocked r.now rl).lastSweep = some t → ∃ q ∈ rs ++ [r], q.now = t := by
    intro t ht
    rcases get?_sweepLocked r.now rl r.key with ⟨_, hlast | hlast⟩ | ⟨_, _, _, _, hlast⟩ <;>
      rw [hlast] at ht
    · obtain ⟨q, hq, hsame⟩ := h.swept t ht
      exact ⟨q, List.mem_append_left _ hq, hsame⟩
    · exact ⟨r, by simp, Option.some.inj ht⟩
    · exact ⟨r, by simp, Option.some.inj ht⟩
  have hswept : (sweepLocked r.now rl).size ≤ maxLimiterClients := (size_sweepLocked r.now rl).trans h.size
  rw [step]
  rcases allow_cases cfg rl r with ⟨_, heq⟩ | ⟨_, _, heq⟩ | ⟨b, hb, heq⟩ <;> rw [heq]
  · refine ⟨h.tokens, hread, fun t ht => ?_, h.size⟩
    obtain ⟨q, hq, hsame⟩ := h.swept t ht
    exact ⟨q, List.mem_append_left _ hq, hsame⟩
  · exact ⟨fun key b hget => h.tokens key b (get?_of_sweepLocked hget),
      fun key b hget => hread key b (get?_of_sweepLocked hget), hsweep, hswept⟩
  · have hnew : ∃ q ∈ rs ++ [r], q.key = r.key ∧ q.now = r.now := ⟨r, by simp, rfl, rfl⟩
    -- What the request takes from.
    have hbucket : (0 ≤ b.tokens ∧ b.tokens ≤ cfg.rateBurst) ∧
        ∃ q ∈ rs ++ [r], q.key = r.key ∧ q.now = b.last := by
      rcases hb with ⟨_, _, rfl⟩ | ⟨old, hold, rfl⟩
      · have hburst := cfg.one_le_burst
        exact ⟨⟨by dsimp only; linarith, le_refl _⟩, hnew⟩
      · refine ⟨refilled_bounds (h.tokens _ _ (get?_of_sweepLocked hold)) r.now, ?_⟩
        rw [last_refilled]
        rcases max_choice old.last r.now with hmax | hmax <;> rw [hmax]
        · exact hread _ _ (get?_of_sweepLocked hold)
        · exact hnew
    rw [take_eq]
    refine ⟨fun key c hget => ?_, fun key c hget => ?_, hsweep, ?_⟩
    · rcases KeyMap.of_get?_set hget with ⟨-, rfl⟩ | hget
      · exact spent_bounds hbucket.1
      · exact h.tokens key c (get?_of_sweepLocked hget)
    · rcases KeyMap.of_get?_set hget with ⟨rfl, rfl⟩ | hget
      · rw [last_spent]
        exact hbucket.2
      · exact hread key c (get?_of_sweepLocked hget)
    · have hcount := KeyMap.count_set (sweepLocked r.now rl).buckets r.key b.spent fun _ _ => true
      rw [RateLimiter.size] at hswept
      show ((sweepLocked r.now rl).buckets.set r.key b.spent).count _ ≤ _
      rcases hb with ⟨_, hroom, _⟩ | ⟨old, hold, _⟩
      · rw [RateLimiter.size] at hroom
        simp only [if_true] at hcount
        omega
      · simp only [hold, Option.any_some, if_true] at hcount
        omega

theorem sound_after (cfg : Config) (rs : List Request) : Sound cfg rs (after cfg rs) := by
  induction rs using List.reverseRecOn with
  | nil => exact ⟨fun _ _ h => (by cases h), fun _ _ h => (by cases h), fun _ h => (by cases h), Nat.zero_le _⟩
  | append_singleton rs r ih =>
    rw [after, Machine.run_concat]
    exact sound_step ih r

/-! ### What may still be admitted -/

/-- The request does not carry a reading from before the last sweep. -/
def Ordered (rl : RateLimiter) (r : Request) : Prop := ∀ t, rl.lastSweep = some t → t ≤ r.now

/-- What a client with this bucket may get admitted at readings from `lo` to `hi`. Without a bucket, it
gets a full one, but not before the last sweep. -/
def allowance (cfg : Config) (lo hi : Int) (sweep : Option Int) : Option TokenBucket → ℚ
  | none => cfg.rateBurst + cfg.refill (max 0 (hi - max lo (sweep.getD lo)))
  | some b =>
    if b.last < lo then cfg.rateBurst + cfg.refill (hi - lo)
    else b.tokens + cfg.refill (max 0 (hi - b.last))

/-- The allowance of a client in a state. -/
def RateLimiter.allowance (cfg : Config) (lo hi : Int) (key : Key) (rl : RateLimiter) : ℚ :=
  AgentApi.allowance cfg lo hi rl.lastSweep (rl.buckets.get? key)

variable {lo hi : Int} {rs : List Request}

theorem allowance_le (h : Sound cfg rs rl) (hle : lo ≤ hi) (key : Key) :
    rl.allowance cfg lo hi key ≤ cfg.rateBurst + cfg.refill (hi - lo) := by
  rw [RateLimiter.allowance]
  cases hget : rl.buckets.get? key with
  | none => exact add_le_add_right (cfg.refill_mono (by omega)) _
  | some b =>
    rw [allowance]
    split
    · exact le_refl _
    · exact add_le_add (h.tokens key b hget).2 (cfg.refill_mono (by omega))

theorem allowance_nonneg (h : Sound cfg rs rl) (hle : lo ≤ hi) (key : Key) :
    0 ≤ rl.allowance cfg lo hi key := by
  have hburst := cfg.one_le_burst
  rw [RateLimiter.allowance]
  cases hget : rl.buckets.get? key with
  | none => exact add_nonneg (by linarith) (cfg.refill_nonneg (le_max_left _ _))
  | some b =>
    rw [allowance]
    split
    · exact add_nonneg (by linarith) (cfg.refill_nonneg (by omega))
    · exact add_nonneg (h.tokens key b hget).1 (cfg.refill_nonneg (le_max_left _ _))

theorem burst_le_refill (hrefills : cfg.rateBurst ≤ 10 * cfg.ratePerMin) {x : Int} (h : idleTTL ≤ x) :
    (cfg.rateBurst : ℚ) ≤ cfg.refill x := by
  have hcast : (cfg.rateBurst : ℚ) ≤ 10 * cfg.ratePerMin := by exact_mod_cast hrefills
  have hidle : cfg.refill idleTTL = 10 * cfg.ratePerMin := by
    rw [Config.refill, idleTTL, Int.cast_mul, mul_assoc, mul_comm (minute : ℚ), ← mul_assoc,
      mul_div_assoc, div_self minute_pos.ne', mul_one]
    rfl
  exact hcast.trans (hidle ▸ cfg.refill_mono h)

theorem allowance_sweepLocked (hrefills : cfg.rateBurst ≤ 10 * cfg.ratePerMin) (h : Sound cfg rs rl)
    {now : Int} (hordered : ∀ t, rl.lastSweep = some t → t ≤ now) (hlo : lo ≤ now) (hhi : now ≤ hi)
    (key : Key) : (sweepLocked now rl).allowance cfg lo hi key ≤ rl.allowance cfg lo hi key := by
  rw [RateLimiter.allowance, RateLimiter.allowance]
  rcases get?_sweepLocked now rl key with ⟨hsame, hsweep⟩ | ⟨b, hget, hidle, hnone, hsweep⟩
  · rw [hsame]
    cases rl.buckets.get? key with
    | some b => exact le_refl _
    | none =>
      rcases hsweep with hsweep | hsweep <;> rw [hsweep]
      refine add_le_add_right (cfg.refill_mono ?_) _
      have hlast : rl.lastSweep.getD lo ≤ now := by
        cases hold : rl.lastSweep with
        | none => exact hlo
        | some t => exact hordered t hold
      rw [Option.getD_some]
      omega
  · rw [hget, hnone, hsweep, allowance, allowance, Option.getD_some]
    have hrest : cfg.refill (max 0 (hi - max lo now)) = cfg.refill (hi - now) := by congr 1; omega
    rw [hrest]
    split
    · exact add_le_add_right (cfg.refill_mono (by omega)) _
    · have hdropped : cfg.refill (max 0 (hi - b.last)) = cfg.refill (now - b.last) + cfg.refill (hi - now) := by
        rw [← Config.refill_add]
        congr 1
        rw [idleTTL, minute] at hidle
        omega
      -- By the time of the sweep the bucket would have been full again.
      have hfull := burst_le_refill hrefills hidle.le
      have htokens := (h.tokens key b hget).1
      rw [hdropped]
      linarith

theorem allowance_spent {b : TokenBucket} (sweep : Option Int) (hlast : lo ≤ b.last) :
    allowance cfg lo hi sweep (some b.spent) + (if 1 ≤ b.tokens then 1 else 0)
      = allowance cfg lo hi sweep (some b) := by
  have hnot : ¬b.last < lo := by omega
  simp only [allowance, if_neg hnot, TokenBucket.spent]
  split
  · dsimp only
    linarith
  · rw [add_zero]

theorem allowance_refilled (b : TokenBucket) (sweep : Option Int) {now : Int} (hlo : lo ≤ now)
    (hhi : now ≤ hi) :
    allowance cfg lo hi sweep (some (b.refilled cfg now)) ≤ allowance cfg lo hi sweep (some b) := by
  rw [allowance, allowance, last_refilled, if_neg (by omega), TokenBucket.refilled]
  split
  · rename_i hlater
    have hrest : cfg.refill (max 0 (hi - max b.last now)) = cfg.refill (hi - now) := by congr 1; omega
    rw [hrest]
    split
    · exact add_le_add (min_le_left _ _) (cfg.refill_mono (by omega))
    · have hsplit : cfg.refill (max 0 (hi - b.last)) = cfg.refill (now - b.last) + cfg.refill (hi - now) := by
        rw [← Config.refill_add]
        congr 1
        omega
      rw [hsplit, ← add_assoc]
      exact add_le_add_left (min_le_right _ _) _
  · rename_i hearlier
    rw [if_neg (by omega)]
    exact add_le_add_right (cfg.refill_mono (by omega)) _

theorem allowance_step (hrefills : cfg.rateBurst ≤ 10 * cfg.ratePerMin) (h : Sound cfg rs rl)
    (hordered : Ordered rl r) (hlo : lo ≤ r.now) (hhi : r.now ≤ hi) (key : Key) :
    (step cfg rl r).allowance cfg lo hi key + (admits cfg key rl r).toList.length
      ≤ rl.allowance cfg lo hi key := by
  have hswept := allowance_sweepLocked hrefills h hordered hlo hhi key
  rw [step, admits]
  rcases allow_cases cfg rl r with ⟨_, heq⟩ | ⟨_, _, heq⟩ | ⟨b, hb, heq⟩ <;> rw [heq]
  · simp
  · simpa using hswept
  · rw [take_eq]
    refine le_trans ?_ hswept
    rw [RateLimiter.allowance, RateLimiter.allowance]
    dsimp only
    rw [KeyMap.get?_set]
    by_cases hkey : r.key = key
    · rw [if_pos hkey.symm]
      have hcount : ((if r.key = key ∧ decide (1 ≤ b.tokens) = true then some r else none).toList.length : ℚ)
          = if 1 ≤ b.tokens then 1 else 0 := by
        by_cases hpos : 1 ≤ b.tokens <;> simp [hkey, hpos]
      rw [hcount]
      rcases hb with ⟨hnone, _, rfl⟩ | ⟨old, hold, rfl⟩
      · rw [allowance_spent _ hlo, ← hkey, hnone, allowance, allowance, if_neg (by dsimp only; omega)]
        refine add_le_add_right (cfg.refill_mono ?_) _
        have hlast : (sweepLocked r.now rl).lastSweep.getD lo ≤ r.now := by
          rcases get?_sweepLocked r.now rl key with ⟨_, hsweep | hsweep⟩ | ⟨_, _, _, _, hsweep⟩ <;>
            rw [hsweep]
          · cases hold : rl.lastSweep with
            | none => exact hlo
            | some t => exact hordered t hold
          · exact le_refl _
          · exact le_refl _
        dsimp only
        omega
      · rw [allowance_spent _ (by rw [last_refilled]; omega), ← hkey, hold]
        exact allowance_refilled old _ hlo hhi
    · simp [hkey, Ne.symm hkey]

theorem admitted_add_le (hrefills : cfg.rateBurst ≤ 10 * cfg.ratePerMin) {stretch : List Request}
    (h : Sound cfg rs rl) (hordered : ∀ q ∈ Machine.steps (step cfg) rl stretch, Ordered q.1 q.2)
    (hwithin : ∀ r ∈ stretch, lo ≤ r.now ∧ r.now ≤ hi) (hle : lo ≤ hi) (key : Key) :
    ((admitted cfg key rl stretch).length : ℚ) ≤ rl.allowance cfg lo hi key := by
  induction stretch generalizing rs rl with
  | nil => simpa [admitted, Machine.emitted, Machine.steps] using allowance_nonneg h hle key
  | cons r stretch ih =>
    simp only [Machine.steps, List.forall_mem_cons] at hordered hwithin
    have hrest := ih (sound_step h r) hordered.2 hwithin.2
    have hfirst := allowance_step hrefills h hordered.1 hwithin.1.1 hwithin.1.2 key
    have hsplit : admitted cfg key rl (r :: stretch)
        = (admits cfg key rl r).toList ++ admitted cfg key (step cfg rl r) stretch := by
      rw [admitted, ← List.singleton_append, Machine.emitted_append, Machine.emitted_singleton]
      rfl
    rw [hsplit, List.length_append, Nat.cast_add]
    linarith

theorem stretch_bounded (hrefills : cfg.rateBurst ≤ 10 * cfg.ratePerMin) {before stretch : List Request}
    (hordered : ∀ q ∈ Machine.steps (step cfg) .new (before ++ stretch), Ordered q.1 q.2)
    (hwithin : ∀ r ∈ stretch, lo ≤ r.now ∧ r.now ≤ hi) (hle : lo ≤ hi) (key : Key) :
    ((admitted cfg key (after cfg before) stretch).length : ℚ)
      ≤ cfg.rateBurst + cfg.refill (hi - lo) := by
  rw [Machine.steps_append] at hordered
  have hsound := sound_after cfg before
  exact (admitted_add_le hrefills hsound (fun q hq => hordered q (List.mem_append_right _ hq)) hwithin hle
    key).trans (allowance_le hsound hle key)

theorem mem_admitted {stretch : List Request} (h : r ∈ admitted cfg key rl stretch) : r ∈ stretch := by
  obtain ⟨⟨s, q⟩, hq, hemits⟩ := List.mem_filterMap.mp h
  obtain ⟨before, rest, rfl, -⟩ := (Machine.mem_steps _).mp hq
  simp only [admits, Option.ite_none_right_eq_some, Option.some.injEq] at hemits
  simp [← hemits.2]

theorem ordered_of_sorted (hsorted : rs.Pairwise fun q r => q.now ≤ r.now) :
    ∀ q ∈ Machine.steps (step cfg) .new rs, Ordered q.1 q.2 := by
  rintro ⟨s, r⟩ hq t ht
  obtain ⟨before, rest, rfl, rfl⟩ := (Machine.mem_steps _).mp hq
  obtain ⟨q, hmem, rfl⟩ := (sound_after cfg before).swept t ht
  exact (List.pairwise_append.mp hsorted).2.2 q hmem r List.mem_cons_self

theorem split_sorted (early : Int → Bool) {P Q : Int → Prop}
    (hsorted : rs.Pairwise fun q r => q.now ≤ r.now)
    (hdown : ∀ s t, s ≤ t → early t = true → early s = true) (hP : ∀ t, early t = true → P t)
    (hQ : ∀ t, early t = false → Q t) :
    ∃ before later, rs = before ++ later ∧ (∀ r ∈ before, P r.now) ∧ ∀ r ∈ later, Q r.now := by
  induction rs with
  | nil => exact ⟨[], [], rfl, by simp, by simp⟩
  | cons r rs ih =>
    obtain ⟨hfirst, hrest⟩ := List.pairwise_cons.mp hsorted
    obtain ⟨before, later, rfl, hbefore, hlater⟩ := ih hrest
    cases hr : early r.now with
    | true => exact ⟨r :: before, later, rfl, by simpa using ⟨hP _ hr, hbefore⟩, hlater⟩
    | false =>
      refine ⟨[], _, rfl, by simp, fun q hq => hQ _ ?_⟩
      rcases List.mem_cons.mp hq with rfl | hq
      · exact hr
      · rw [Bool.eq_false_iff]
        intro hearly
        rw [hdown _ _ (hfirst q hq) hearly] at hr
        cases hr

theorem interval_bounded (hrefills : cfg.rateBurst ≤ 10 * cfg.ratePerMin)
    (hsorted : rs.Pairwise fun q r => q.now ≤ r.now) (hle : lo ≤ hi) (key : Key) :
    (((admitted cfg key .new rs).filter fun r => decide (lo ≤ r.now ∧ r.now ≤ hi)).length : ℚ)
      ≤ cfg.rateBurst + cfg.refill (hi - lo) := by
  obtain ⟨before, later, rfl, hbefore, hlater⟩ : ∃ before later, rs = before ++ later ∧
      (∀ r ∈ before, r.now < lo) ∧ ∀ r ∈ later, lo ≤ r.now :=
    split_sorted (P := (· < lo)) (Q := (lo ≤ ·)) (fun t => decide (t < lo)) hsorted (by simp; omega)
      (by simp) (by simp)
  obtain ⟨stretch, rest, rfl, hstretch, hrest⟩ : ∃ stretch rest, later = stretch ++ rest ∧
      (∀ r ∈ stretch, r.now ≤ hi) ∧ ∀ r ∈ rest, hi < r.now :=
    split_sorted (P := (· ≤ hi)) (Q := (hi < ·)) (fun t => decide (t ≤ hi))
      (List.pairwise_append.mp hsorted).2.1 (by simp; omega) (by simp) (by simp)
  have hordered := @ordered_of_sorted cfg _ hsorted
  rw [← List.append_assoc, Machine.steps_append] at hordered
  have hbound := stretch_bounded hrefills (fun q hq => hordered q (List.mem_append_left _ hq))
    (fun r hr => ⟨hlater r (List.mem_append_left _ hr), hstretch r hr⟩) hle key
  refine le_trans ?_ hbound
  simp only [admitted, Machine.emitted_append, List.filter_append]
  -- What is admitted before the stretch or after it lies outside the interval.
  have hnone : ∀ (rl : RateLimiter) (part : List Request), (∀ r ∈ part, ¬(lo ≤ r.now ∧ r.now ≤ hi)) →
      (Machine.emitted (step cfg) (admits cfg key) rl part).filter
        (fun r => decide (lo ≤ r.now ∧ r.now ≤ hi)) = [] := by
    intro rl part hpart
    rw [List.filter_eq_nil_iff]
    intro r hr
    have hmem : r ∈ part := @mem_admitted cfg rl key r part hr
    simpa using hpart r hmem
  rw [hnone _ before fun r hr => by have := hbefore r hr; omega,
    hnone _ rest fun r hr => by have := hrest r hr; omega, List.nil_append, List.append_nil]
  exact_mod_cast List.length_filter_le _ _

theorem idle_admitted (rs : List Request) (hvalid : Valid r.key)
    (hidle : ∀ q ∈ rs, q.key = r.key → minute ≤ cfg.ratePerMin * (r.now - q.now))
    (hroom : (after cfg rs).size < maxLimiterClients) : (allow cfg (after cfg rs) r).2 = true := by
  have hsound := sound_after cfg rs
  rcases allow_cases cfg (after cfg rs) r with ⟨hnot, _⟩ | ⟨_, hfull, _⟩ | ⟨b, hb, heq⟩
  · exact absurd hvalid hnot
  · have := size_sweepLocked r.now (after cfg rs)
    omega
  · rw [heq, take_eq]
    refine decide_eq_true ?_
    rcases hb with ⟨_, _, rfl⟩ | ⟨old, hold, rfl⟩
    · exact cfg.one_le_burst
    · have hget := get?_of_sweepLocked hold
      obtain ⟨q, hq, hkey, hlast⟩ := hsound.read _ _ hget
      have hwait := hidle q hq hkey
      rw [hlast] at hwait
      have hrate := cfg.one_le_rate
      have hlater : 0 < r.now - old.last := by
        by_contra hback
        have hneg : cfg.ratePerMin * (r.now - old.last) ≤ 0 :=
          mul_nonpos_of_nonneg_of_nonpos (by exact_mod_cast (by linarith : (0 : ℚ) ≤ cfg.ratePerMin)) (by omega)
        rw [minute] at hwait
        omega
      have hback : 1 ≤ cfg.refill (r.now - old.last) := by
        rw [Config.refill, one_le_div minute_pos, mul_comm]
        exact_mod_cast hwait
      have htokens := (hsound.tokens _ _ hget).1
      rw [TokenBucket.refilled, if_pos hlater]
      exact le_min cfg.one_le_burst (by linarith)

/-- The table never holds more than its maximum, and a client that was idle for the time of one token is
admitted while it holds less. Where a burst is refilled within `idleTTL`, a stretch of a run whose
readings lie in an interval admits at most a burst and what is refilled in the interval, if no
request carries a reading from before a sweep; this is so for readings that never go back, and then
the requests of every interval are such a stretch. -/
theorem limiter_bounds (cfg : Config) :
    (∀ rs, (after cfg rs).size ≤ maxLimiterClients) ∧
    (∀ rs r, Valid r.key → (∀ q ∈ rs, q.key = r.key → minute ≤ cfg.ratePerMin * (r.now - q.now)) →
      (after cfg rs).size < maxLimiterClients → (allow cfg (after cfg rs) r).2 = true) ∧
    (cfg.rateBurst ≤ 10 * cfg.ratePerMin → ∀ lo hi : Int, lo ≤ hi → ∀ key,
      (∀ before stretch, (∀ q ∈ Machine.steps (step cfg) .new (before ++ stretch), Ordered q.1 q.2) →
        (∀ r ∈ stretch, lo ≤ r.now ∧ r.now ≤ hi) →
        ((admitted cfg key (after cfg before) stretch).length : ℚ)
          ≤ cfg.rateBurst + cfg.refill (hi - lo)) ∧
      ∀ rs, (rs.Pairwise fun q r => q.now ≤ r.now) →
        (((admitted cfg key .new rs).filter fun r => decide (lo ≤ r.now ∧ r.now ≤ hi)).length : ℚ)
          ≤ cfg.rateBurst + cfg.refill (hi - lo)) := by
  refine ⟨fun rs => (sound_after cfg rs).size, ?_, ?_⟩
  · intro rs r hvalid hidle hroom
    exact idle_admitted rs hvalid hidle hroom
  · -- The two forms of the bound: any order of readings, and readings that never go back.
    intro hrefills lo hi hle key
    constructor
    · intro before stretch hordered hwithin
      exact stretch_bounded hrefills hordered hwithin hle key
    · intro rs hsorted
      exact interval_bounded hrefills hsorted hle key

/-- One token a minute, and a burst that takes longer than `idleTTL` to refill. -/
def slow : Config := ⟨1, 11, rfl⟩

/-- A burst, and another one as soon as the bucket is dropped. -/
def bursts : List Request :=
  List.replicate 11 ⟨0, [1]⟩ ++ List.replicate 11 ⟨idleTTL + 1, [1]⟩

theorem dropped_bucket_refills : (bursts.Pairwise fun q r => q.now ≤ r.now) ∧
    ¬(((admitted slow [1] .new bursts).filter fun r =>
        decide (0 ≤ r.now ∧ r.now ≤ idleTTL + 1)).length : ℚ)
      ≤ slow.rateBurst + slow.refill (idleTTL + 1 - 0) := by
  decide +kernel

end SocialActivities.AgentApi
