import BlastRadius.Store.Retry
import Mathlib.Algebra.Group.Nat.Defs
import Mathlib.Order.MinMax

/-!
How long the waits between attempts are. They are computed in words: a power of two that does not
fit is replaced by the greatest word, which is no power of two, and so is a product that does not
fit. The bound is a word itself, so what is cut off lies above it, and the waits are those of
numbers without a limit.
-/

namespace BlastRadius.RetryPolicy

variable {policy : RetryPolicy} {retry : Nat}

theorem factor_eq (retry : Nat) : factor retry = min (2 ^ retry) wordMax := by
  rw [factor]
  split
  · rename_i fits
    have below : 2 ^ retry < 2 ^ 64 := Nat.pow_lt_pow_right Nat.one_lt_two fits
    exact (min_eq_left (Nat.le_sub_one_of_lt below)).symm
  · rename_i large
    have above : 2 ^ 64 ≤ 2 ^ retry := Nat.pow_le_pow_right Nat.two_pos (not_lt.mp large)
    exact (min_eq_right ((Nat.sub_le _ 1).trans above)).symm

/-- If a product is cut off in the end, nothing changes when a factor is cut off before. -/
theorem min_mul_min (a b cap : Nat) : min (a * min b cap) cap = min (a * b) cap := by
  rcases le_total b cap with below | above
  · rw [min_eq_left below]
  · rw [min_eq_right above]
    rcases Nat.eq_zero_or_pos a with rfl | positive
    · rw [Nat.zero_mul, Nat.zero_mul]
    · have reached : cap ≤ a * cap := Nat.le_mul_of_pos_left cap positive
      have passed : a * cap ≤ a * b := Nat.mul_le_mul_left a above
      rw [min_eq_right reached, min_eq_right (reached.trans passed)]

theorem backoff_eq (word : policy.maxBackoffMs < UInt64.size) (retry : Nat) :
    policy.backoff retry = min (policy.initialBackoffMs * 2 ^ retry) policy.maxBackoffMs := by
  have below : policy.maxBackoffMs ≤ wordMax := Nat.le_sub_one_of_lt word
  rw [backoff, factor_eq, min_mul_min, min_assoc, min_eq_right below]

theorem backoff_monotone (word : policy.maxBackoffMs < UInt64.size) : Monotone policy.backoff := by
  intro earlier later le
  rw [backoff_eq word, backoff_eq word]
  apply min_le_min_right
  exact Nat.mul_le_mul_left _ (Nat.pow_le_pow_right Nat.two_pos le)

theorem backoff_le (policy : RetryPolicy) (retry : Nat) :
    policy.backoff retry ≤ policy.maxBackoffMs :=
  min_le_right _ _

theorem backoff_of_size_le (word : policy.maxBackoffMs < UInt64.size)
    (large : UInt64.size ≤ policy.initialBackoffMs * 2 ^ retry) :
    policy.backoff retry = policy.maxBackoffMs := by
  rw [backoff_eq word]
  exact min_eq_right (word.le.trans large)

theorem backoff_of_le (word : policy.maxBackoffMs < UInt64.size) (large : 64 ≤ retry) :
    policy.backoff retry = if policy.initialBackoffMs = 0 then 0 else policy.maxBackoffMs := by
  split
  · rename_i none
    rw [backoff_eq word, none, Nat.zero_mul, Nat.zero_min]
  · rename_i some
    apply backoff_of_size_le word
    calc
      UInt64.size = 2 ^ 64 := by decide
      _ ≤ 2 ^ retry := Nat.pow_le_pow_right Nat.two_pos large
      _ ≤ policy.initialBackoffMs * 2 ^ retry :=
        Nat.le_mul_of_pos_left _ (Nat.pos_of_ne_zero some)

/-- For every bound that is a word, each wait is the first one doubled once for each retry before,
up to the bound, as if it were computed in numbers without a limit. Hence the waits never become
shorter, none exceeds the bound, and those with a power of two or a product that is too large for a
word are as long as the bound, or zero if the first one is. -/
theorem backoff_doubles (policy : RetryPolicy) (word : policy.maxBackoffMs < UInt64.size) :
    (∀ retry, policy.backoff retry =
      min (policy.initialBackoffMs * 2 ^ retry) policy.maxBackoffMs) ∧
    Monotone policy.backoff ∧
    (∀ retry, policy.backoff retry ≤ policy.maxBackoffMs) ∧
    (∀ retry, 64 ≤ retry →
      policy.backoff retry = if policy.initialBackoffMs = 0 then 0 else policy.maxBackoffMs) ∧
    ∀ retry, UInt64.size ≤ policy.initialBackoffMs * 2 ^ retry →
      policy.backoff retry = policy.maxBackoffMs :=
  ⟨backoff_eq word, backoff_monotone word, policy.backoff_le, fun _ large =>
    backoff_of_le word large, fun _ large => backoff_of_size_le word large⟩

/-- With a first wait of three and the greatest bound, the product fits for retry 62 and is cut off
for retry 63; from retry 64 on, the power is cut off as well. -/
theorem backoff_doubles_at_limits :
    let policy : RetryPolicy := ⟨3, 3, 18446744073709551615⟩
    policy.maxBackoffMs < UInt64.size ∧ policy.backoff 62 = 13835058055282163712 ∧
      policy.backoff 63 = 18446744073709551615 ∧ policy.backoff 64 = 18446744073709551615 ∧
      policy.backoff 4294967295 = 18446744073709551615 := by
  intro policy
  have word : policy.maxBackoffMs < UInt64.size := by decide
  obtain ⟨doubles, -, -, powers, products⟩ := backoff_doubles policy word
  exact ⟨word, (doubles 62).trans (by decide +kernel), products 63 (by decide +kernel),
    powers 64 (by decide), powers 4294967295 (by decide)⟩

end BlastRadius.RetryPolicy
