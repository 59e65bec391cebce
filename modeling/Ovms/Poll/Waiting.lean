import Mathlib.Algebra.Ring.Nat
import Mathlib.Tactic.ByContra

/-!
# Waiting for a Reply

The poller waits for the reply to a poll until a time that it keeps in `m_poll_wait_timeout`
(`components/poller/src/vehicle_poller.h`), in milliseconds of `esp_log_timestamp`: a clock of
32 bits, that starts again after seven weeks. A timeout of zero is none.

The clock and the timeout are compared as numbers, not by the time between them. So a wait
comes out right as long as both are in the same round of the clock: with the wrap between
them a wait that has just begun is over, and one that is over begins again.
-/

namespace Ovms.Poll

/-- `esp_log_timestamp`, so many milliseconds after the start. -/
def espLogTimestamp (t : ℕ) : UInt32 := UInt32.ofNat t

/-- `m_poll_wait_timeout`. -/
structure PollWaiting where
  timeout : UInt32
  deriving DecidableEq, Repr

namespace PollWaiting

/-- `GetPollWaiting`. -/
def getPollWaiting (w : PollWaiting) (timestamp : UInt32) : Bool :=
  if w.timeout = 0 then false else decide (timestamp < w.timeout)

/-- `ResetPollWaiting`. -/
def resetPollWaiting (_ : PollWaiting) : PollWaiting := ⟨0⟩

/-- The timeout some time from now. -/
def arm (d timestamp : UInt32) : PollWaiting := ⟨d + timestamp⟩

/-- `SetPollWaiting`. -/
def setPollWaiting (_ : PollWaiting) (ms : UInt16) (timestamp : UInt32) : PollWaiting :=
  arm ms.toUInt32 timestamp

/-- `AddPollWaiting`. -/
def addPollWaiting (w : PollWaiting) (ms : UInt16) (timestamp : UInt32) : PollWaiting :=
  if !w.getPollWaiting timestamp then w.setPollWaiting ms timestamp
  else ⟨w.timeout + ms.toUInt32⟩

/-- `GetWaiting_ms`. -/
def getWaitingMs (w : PollWaiting) (timestamp : UInt32) : UInt16 :=
  if w.timeout = 0 then 0
  else if timestamp ≥ w.timeout then 0
  else (w.timeout - timestamp).toUInt16

/-! ### Waits -/

/-- A wait of `d` from the time `t` on is reported as it is: as running while less than `d` has
passed, and as over from then on, for half a round of the clock. -/
def Survives (w : PollWaiting) (t d : ℕ) : Prop :=
  ∀ t', t ≤ t' →
    (t' - t < d → w.getPollWaiting (espLogTimestamp t') = true) ∧
    (d ≤ t' - t → t' - t < d + 2 ^ 31 → w.getPollWaiting (espLogTimestamp t') = false)

/-- The timeout is compared as a number. -/
theorem getPollWaiting_arm (d : UInt32) (t t' : ℕ) :
    (arm d (espLogTimestamp t)).getPollWaiting (espLogTimestamp t') = true ↔
      t' % 2 ^ 32 < (d.toNat + t) % 2 ^ 32 := by
  have hnow (s : ℕ) : (espLogTimestamp s).toNat = s % 2 ^ 32 := UInt32.toNat_ofNat'
  have hsum : (d + espLogTimestamp t).toNat = (d.toNat + t) % 2 ^ 32 := by
    rw [UInt32.toNat_add, hnow, Nat.add_mod_mod]
  have hzero : d + espLogTimestamp t = 0 ↔ (d.toNat + t) % 2 ^ 32 = 0 := by
    rw [← UInt32.toNat_inj, hsum]
    rfl
  rw [getPollWaiting, arm]
  dsimp only
  split
  · rename_i h
    rw [hzero.mp h]
    exact iff_of_false Bool.false_ne_true (Nat.not_lt_zero _)
  · rw [decide_eq_true_eq, UInt32.lt_iff_toNat_lt, hnow, hsum]

/-- **A wait comes out right exactly when it ends in the first half of a round of the clock.** -/
theorem survives_iff (t : ℕ) (d : UInt32) :
    (arm d (espLogTimestamp t)).Survives t d.toNat ↔ t % 2 ^ 32 + d.toNat ≤ 2 ^ 31 := by
  have hd : d.toNat < 2 ^ 32 := d.toNat_lt
  simp only [Survives, ← Bool.not_eq_true, getPollWaiting_arm]
  constructor
  · intro h
    by_contra hlate
    by_cases hwrap : t % 2 ^ 32 + d.toNat < 2 ^ 32
    · -- the wait ends in the same round, and begins again with the next one
      have hnext := (h (t + (2 ^ 32 - t % 2 ^ 32)) (Nat.le_add_right ..)).2 (by omega) (by omega)
      omega
    · -- the timeout is in the next round, and behind the clock at once
      have hnow := (h t le_rfl).1 (by omega)
      omega
  · intro h t' ht'
    constructor <;> intro hle <;> omega

/-- A second before the clock starts again a wait of two seconds is over at once. -/
theorem not_survives_wrap :
    ¬ ∀ (w : PollWaiting) (t : ℕ) (ms : UInt16),
      (w.setPollWaiting ms (espLogTimestamp t)).Survives t ms.toNat := by
  intro h
  have hnow := (h ⟨0⟩ (2 ^ 32 - 1000) 2000 _ le_rfl).1 (by decide)
  revert hnow
  decide

end PollWaiting

end Ovms.Poll
