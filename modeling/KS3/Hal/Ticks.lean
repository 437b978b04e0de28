import KS3.Protocol.TMasterTx

/-!
# Elapsed ticks

`hal::difftime` subtracts two values of the tick counter. When the counter has wrapped between
them, the branch for that case leaves out the tick from `0xFFFFFFFF` to `0`, so the time comes out
one tick short (`toNat_difftime_add`), and a timeout that is measured across that moment runs out
one tick late, or never when it is as long as the counter goes.

* `elapsed_iff`: a duration is measured right, and a timeout of that length is met on the tick,
  exactly when the counter does not wrap while it lasts.
-/

namespace KS3.Hal

open Protocol

/-- What `difftime` gives `d` ticks after `t`. -/
theorem toNat_difftime_add (t d : UInt32) :
    (difftime t (t + d)).toNat =
      if t.toNat + d.toNat < 2 ^ 32 then d.toNat else d.toNat - 1 := by
  have ht := t.toNat_lt
  have hd := d.toNat_lt
  have hadd : (t + d).toNat = (t.toNat + d.toNat) % 2 ^ 32 := UInt32.toNat_add t d
  rw [difftime]
  split_ifs with hle hlt hlt
  · rw [UInt32.toNat_sub_of_le _ _ hle, hadd, Nat.mod_eq_of_lt hlt, Nat.add_sub_cancel_left]
  · have hge := UInt32.le_iff_toNat_le.1 hle
    omega
  · exact absurd (UInt32.le_iff_toNat_le.2 (by omega)) hle
  · have hmax : (0xFFFFFFFF - t).toNat = 0xFFFFFFFF - t.toNat :=
      UInt32.toNat_sub_of_le _ _ (UInt32.le_iff_toNat_le.2 (Nat.le_of_lt_succ ht))
    rw [UInt32.toNat_add, hmax, hadd]
    omega

/-- The timeout of a timer set at tick `t` runs out `msec` ticks later and not before. -/
def OnTime (t msec : UInt32) : Prop :=
  TMasterTx.TimedOut t (t + msec) msec ∧ ∀ e < msec, ¬ TMasterTx.TimedOut t (t + e) msec

theorem timedOut_iff (t d msec : UInt32) :
    TMasterTx.TimedOut t (t + d) msec ↔
      msec.toNat ≤ if t.toNat + d.toNat < 2 ^ 32 then d.toNat else d.toNat - 1 := by
  rw [TMasterTx.TimedOut, ge_iff_le, UInt32.le_iff_toNat_le, toNat_difftime_add]

/-- **Elapsed time**: `d` ticks are measured as `d`, and a timeout of `d` ticks is met on the tick,
exactly when the tick counter does not wrap in that time. -/
theorem elapsed_iff (t d : UInt32) :
    (difftime t (t + d) = d ↔ t.toNat + d.toNat < 2 ^ 32) ∧
      (OnTime t d ↔ t.toNat + d.toNat < 2 ^ 32) := by
  have ht := t.toNat_lt
  refine ⟨?_, ?_⟩
  · rw [← UInt32.toNat_inj, toNat_difftime_add]
    split_ifs <;> omega
  · rw [OnTime, timedOut_iff]
    refine ⟨fun h => ?_, fun h => ⟨by rw [if_pos h], fun e he hout => ?_⟩⟩
    · have hout := h.1
      split_ifs at hout <;> omega
    · have hlt := UInt32.lt_iff_toNat_lt.1 he
      rw [timedOut_iff] at hout
      split_ifs at hout <;> omega

/-- One tick across the wrap of the counter is measured as none, and a timeout of one tick has not
run out. -/
theorem elapsed_wrap :
    difftime 0xFFFFFFFF (0xFFFFFFFF + 1) ≠ 1 ∧ ¬ OnTime 0xFFFFFFFF 1 := by
  refine ⟨by decide, fun h => absurd h.1 (by decide)⟩

end KS3.Hal
