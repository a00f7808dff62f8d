import CoLinux.Common.Div64
import CoLinux.Lib.Run

/-!
# Jiffies for the guest (`callback_return_jiffies` of `kernel/monitor.c`)

Every return to the guest tells it how many jiffies have passed. What a division leaves is carried
to the next call.
-/

namespace CoLinux

open Lib

/-- The clock of a monitor. -/
structure Clock where
  timestamp : Nat
  timestampFreq : Nat
  timestampReminder : Nat
  deriving DecidableEq

/-- `callback_return_jiffies`, at the time `t` of the host. -/
def Clock.callbackReturnJiffies (t : Nat) (c : Clock) : Nat × Clock :=
  if c.timestamp < t then
    let diff := (c.timestampReminder + 100 * (t - c.timestamp) % quadSize) % quadSize
    let divided := coDiv64_32 diff (c.timestampFreq % wordSize)
    (divided.1 % wordSize, { c with timestampReminder := divided.2, timestamp := t })
  else (0, c)

/-- A monitor with the jiffies it has returned. -/
structure JiffiesRun where
  jiffies : Nat
  clock : Clock
  deriving DecidableEq

def JiffiesRun.step (t : Nat) (r : JiffiesRun) : JiffiesRun :=
  let returned := r.clock.callbackReturnJiffies t
  ⟨r.jiffies + returned.1, returned.2⟩

/-- The monitor as it starts: `co_monitor_start` sets the timestamp. -/
def JiffiesRun.start (f t : Nat) : JiffiesRun := ⟨0, ⟨t, f, 0⟩⟩

/-! ## What the sequence of calls has to do -/

/-- The latest timestamp seen. -/
def latest (start : Nat) (ts : List Nat) : Nat := ts.foldl max start

/-- An advance over the latest timestamp is below 2^57, and worth fewer than 2^32 - 1 jiffies. -/
def SmallAdvance (f last t : Nat) : Prop :=
  last < t → t - last < 2 ^ 57 ∧ 100 * (t - last) < (2 ^ 32 - 1) * f

/-- Every timestamp advances by little. -/
def SmallAdvances (f : Nat) : Nat → List Nat → Prop
  | _, [] => True
  | last, t :: ts => SmallAdvance f last t ∧ SmallAdvances f (max last t) ts

/-- No time is lost: the jiffies and the reminder make up the time since the start. -/
structure TimeConserved (f start last : Nat) (r : JiffiesRun) : Prop where
  freq : r.clock.timestampFreq = f
  timestamp : r.clock.timestamp = last
  total : r.jiffies * f + r.clock.timestampReminder = 100 * (last - start)
  reminder : r.clock.timestampReminder < f
  started : start ≤ last

theorem Clock.callbackReturnJiffies_glitch {c : Clock} {t : Nat} (h : t ≤ c.timestamp) :
    c.callbackReturnJiffies t = (0, c) := by
  rw [callbackReturnJiffies, if_neg (Nat.not_lt.mpr h)]

/-- An advance is divided into jiffies and a reminder. -/
theorem Clock.callbackReturnJiffies_advance {c : Clock} {t : Nat} (h : c.timestamp < t)
    (hf : c.timestampFreq < wordSize) (carry : c.timestampReminder < c.timestampFreq)
    (small : SmallAdvance c.timestampFreq c.timestamp t) :
    c.callbackReturnJiffies t =
      ((c.timestampReminder + 100 * (t - c.timestamp)) / c.timestampFreq,
        { c with
          timestamp := t
          timestampReminder :=
            (c.timestampReminder + 100 * (t - c.timestamp)) % c.timestampFreq }) := by
  obtain ⟨advance, jiffies⟩ := small h
  have pos : 0 < c.timestampFreq := Nat.lt_of_le_of_lt (Nat.zero_le _) carry
  have whole : c.timestampReminder + 100 * (t - c.timestamp) < quadSize := by
    rw [quadSize_eq]
    simp only [wordSize] at hf ⊢
    omega
  have part : 100 * (t - c.timestamp) < quadSize :=
    Nat.lt_of_le_of_lt (Nat.le_add_left _ _) whole
  have fits : (c.timestampReminder + 100 * (t - c.timestamp)) / c.timestampFreq < wordSize := by
    apply (Nat.div_lt_iff_lt_mul pos).mpr
    simp only [wordSize]
    omega
  rw [callbackReturnJiffies, if_pos h]
  simp only [Nat.mod_eq_of_lt part, Nat.mod_eq_of_lt whole, Nat.mod_eq_of_lt hf,
    coDiv64_32_eq whole pos hf, Nat.mod_eq_of_lt fits]

/-- A call conserves time. -/
theorem JiffiesRun.step_conserved {f start last t : Nat} {r : JiffiesRun} (hf : f < wordSize)
    (inv : TimeConserved f start last r) (small : SmallAdvance f last t) :
    TimeConserved f start (max last t) (r.step t) := by
  obtain ⟨freq, timestamp, total, reminder, started⟩ := inv
  by_cases h : r.clock.timestamp < t
  · have advanced := Clock.callbackReturnJiffies_advance h (freq ▸ hf) (freq.symm ▸ reminder)
      (freq.symm ▸ timestamp.symm ▸ small)
    rw [freq, timestamp] at advanced
    rw [timestamp] at h
    have latest : max last t = t := Nat.max_eq_right (Nat.le_of_lt h)
    have divided := Nat.div_add_mod (r.clock.timestampReminder + 100 * (t - last)) f
    rw [step, advanced, latest]
    refine ⟨rfl, rfl, ?_, Nat.mod_lt _ (Nat.lt_of_le_of_lt (Nat.zero_le _) reminder), by omega⟩
    rw [Nat.mul_comm f] at divided
    rw [Nat.add_mul]
    dsimp only
    omega
  · rw [step, Clock.callbackReturnJiffies_glitch (Nat.not_lt.mp h)]
    rw [timestamp] at h
    rw [Nat.max_eq_left (Nat.not_lt.mp h)]
    exact ⟨freq, timestamp, total, reminder, started⟩

/-- Any number of calls conserve time. -/
theorem JiffiesRun.run_conserved {f start last : Nat} {r : JiffiesRun} (hf : f < wordSize)
    (ts : List Nat) (inv : TimeConserved f start last r) (small : SmallAdvances f last ts) :
    TimeConserved f start (latest last ts) (run step ts r) := by
  induction ts generalizing last r with
  | nil => exact inv
  | cons t ts ih =>
    obtain ⟨first, rest⟩ := small
    exact ih (step_conserved hf inv first) rest

/-- Time is conserved over every sequence of calls, a timestamp that is not later than those seen
changes nothing, and the division behind it is exact. -/
theorem jiffies_conserved {f start : Nat} {ts : List Nat} (pos : 0 < f) (hf : f < wordSize)
    (small : SmallAdvances f start ts) :
    TimeConserved f start (latest start ts) (run JiffiesRun.step ts (.start f start)) ∧
      (∀ (c : Clock) (t : Nat), t ≤ c.timestamp → c.callbackReturnJiffies t = (0, c)) ∧
      ∀ n base : Nat, n < quadSize → 0 < base → base < wordSize →
        coDiv64_32 n base = (n / base, n % base) := by
  refine ⟨?_, ?_, ?_⟩
  · refine JiffiesRun.run_conserved hf ts ⟨rfl, rfl, ?_, pos, Nat.le_refl _⟩ small
    rw [Nat.sub_self]
    exact Nat.zero_mul _
  · intro c t h
    exact Clock.callbackReturnJiffies_glitch h
  · intro n base hn positive hb
    exact coDiv64_32_eq hn positive hb

/-- The clock of a host at 3 MHz, with a glitch. -/
theorem jiffies_conserved_glitch :
    TimeConserved 3579545 1000 (latest 1000 [40000, 39000, 80000])
      (run JiffiesRun.step [40000, 39000, 80000] (.start 3579545 1000)) := by
  have small : SmallAdvances 3579545 1000 [40000, 39000, 80000] :=
    ⟨fun _ => by decide, fun h => absurd h (by decide), fun _ => by decide, trivial⟩
  exact (jiffies_conserved (by decide) (by decide) small).1

end CoLinux
