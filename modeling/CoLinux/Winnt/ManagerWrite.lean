import CoLinux.Common.Messages
import Mathlib.Data.List.Infix
import Mathlib.Tactic.SplitIfs

/-!
# Write framing

`manager_write` of `os/winnt/kernel/interface.c` walks over the records in a write buffer. The
model keeps what the walk reads, as offsets from the start of the buffer, and what it hands to
`co_monitor_message_from_user`. Offsets are 32-bit, and `size_left` is a signed `long`.
-/

namespace CoLinux

open Lib

/-- The `long` with the bits of `x`. -/
def signed32 (x : Int) : Int := (x + 2147483648) % 4294967296 - 2147483648

/-- What `manager_write` has done so far. -/
structure WriteLog where
  /-- The messages handed to `co_monitor_message_from_user`, oldest first. -/
  handed : List CoMessage
  /-- The ranges read, as offset and length. -/
  reads : List (Nat × Nat)
  finished : Bool

/-- What `co_monitor_message_from_user` reads of the message at `position`: `to`, and all of it
for the copy if it is for Linux. -/
def messageReads (position : Nat) (message : CoMessage) : List (Nat × Nat) :=
  if message.toModule = coModuleLinux then
    [((position + 4) % wordSize, 4), (position, message.totalSize)]
  else [((position + 4) % wordSize, 4)]

/-- `(co_message_t *)&buffer[position]`. -/
def messageAt (buffer : ByteMem) (position : Nat) : CoMessage :=
  fun i => buffer ((position + i) % wordSize)

/-- `size_left` behind the record at `position`. -/
def leftBehind (buffer : ByteMem) (sizeLeft : Int) (position : Nat) : Int :=
  signed32 (sizeLeft - (messageAt buffer position).totalSize)

/-- The reads of one turn, and the call of `co_monitor_message_from_user`. -/
def WriteLog.turn (log : WriteLog) (buffer : ByteMem) (sizeLeft : Int) (position : Nat) :
    WriteLog :=
  if 0 ≤ leftBehind buffer sizeLeft position then
    { log with
      handed := log.handed ++ [messageAt buffer position]
      reads := log.reads ++
        (((position + 16) % wordSize, 4) :: messageReads position (messageAt buffer position)) }
  else { log with reads := log.reads ++ [((position + 16) % wordSize, 4)] }

/-- The first `turns` turns of the loop of `manager_write`. -/
def managerWriteLoop (buffer : ByteMem) : Nat → Int → Nat → WriteLog → WriteLog
  | 0, _, _, log => log
  | turns + 1, sizeLeft, position, log =>
    if 0 < sizeLeft then
      managerWriteLoop buffer turns (leftBehind buffer sizeLeft position)
        ((position + (messageAt buffer position).totalSize) % wordSize)
        (log.turn buffer sizeLeft position)
    else { log with finished := true }

/-- `manager_write` of `length` bytes on a descriptor with a monitor. -/
def managerWrite (buffer : ByteMem) (length turns : Nat) : WriteLog :=
  managerWriteLoop buffer turns (signed32 length) 0 ⟨[], [], false⟩

/-- The loop ends, reads inside the buffer only and hands over the maximal prefix of complete
records. -/
def WritesFramed (buffer : ByteMem) (length : Nat) : Prop :=
  ∃ turns, (managerWrite buffer length turns).finished = true ∧
    (managerWrite buffer length turns).handed.map CoMessage.bytes =
      (coMessageFraming.split (buffer.slice 0 length)).1 ∧
    ∀ r ∈ (managerWrite buffer length turns).reads, r.1 + r.2 ≤ length

/-- What is left behind the complete records is empty, or a header that announces at most
`2 ^ 31` bytes too many. -/
def TailHarmless (tail : List UInt8) : Prop :=
  tail = [] ∨ sizeofCoMessage ≤ tail.length ∧
    coMessageFraming.recordLength tail ≤ tail.length + 2147483648

instance (tail : List UInt8) : Decidable (TailHarmless tail) := instDecidableOr

/-- A `long` holds the length and the tail is harmless; of a longer buffer the loop takes
nothing, so it must not start with a record. -/
def WriteHarmless (buffer : ByteMem) (length : Nat) : Prop :=
  if length < 2147483648 then TailHarmless (coMessageFraming.split (buffer.slice 0 length)).2
  else ¬coMessageFraming.Starts (buffer.slice 0 length)

variable {buffer : ByteMem}

theorem signed32_of_lt {x : Int} (h : -2147483648 ≤ x) (h' : x < 2147483648) :
    signed32 x = x := by
  unfold signed32
  omega

theorem WriteLog.turn_grows (log : WriteLog) (sizeLeft : Int) (position : Nat) :
    log.handed <+: (log.turn buffer sizeLeft position).handed ∧
      log.reads ++ [((position + 16) % wordSize, 4)] <+:
        (log.turn buffer sizeLeft position).reads := by
  unfold WriteLog.turn
  split_ifs
  · refine ⟨List.prefix_append _ _, ?_⟩
    exact ⟨messageReads position (messageAt buffer position), by simp⟩
  · exact ⟨List.prefix_refl _, List.prefix_refl _⟩

/-- The log only grows. -/
theorem managerWriteLoop_grows (turns : Nat) (sizeLeft : Int) (position : Nat) (log : WriteLog) :
    log.handed <+: (managerWriteLoop buffer turns sizeLeft position log).handed ∧
      log.reads <+: (managerWriteLoop buffer turns sizeLeft position log).reads := by
  induction turns generalizing sizeLeft position log with
  | zero => exact ⟨List.prefix_refl _, List.prefix_refl _⟩
  | succ turns ih =>
    unfold managerWriteLoop
    split_ifs
    · obtain ⟨handed, reads⟩ := @WriteLog.turn_grows buffer log sizeLeft position
      have next := ih (leftBehind buffer sizeLeft position)
        ((position + (messageAt buffer position).totalSize) % wordSize)
        (log.turn buffer sizeLeft position)
      exact ⟨handed.trans next.1, (List.prefix_append _ _).trans (reads.trans next.2)⟩
    · exact ⟨List.prefix_refl _, List.prefix_refl _⟩

/-- The size of the record at `position`, read off the buffer. -/
theorem size_messageAt {position : Nat} (h : position + sizeofCoMessage ≤ wordSize) {n : Nat}
    (hn : sizeofCoMessage ≤ n) :
    (messageAt buffer position).size = coMessageFraming.body (buffer.slice position n) := by
  rw [coMessageFraming_body_slice buffer position hn]
  apply ByteMem.readWord_congr
  intro x _ hx
  simp only [sizeofCoMessage] at h
  exact congrArg buffer (Nat.mod_eq_of_lt (by omega))

/-- The bytes of the record at `position`, as long as it ends below `2 ^ 32`. -/
theorem bytes_messageAt {position : Nat}
    (h : position + (sizeofCoMessage + (messageAt buffer position).size) ≤ wordSize) :
    (messageAt buffer position).bytes =
      buffer.slice position (sizeofCoMessage + (messageAt buffer position).size) := by
  apply ByteMem.slice_congr
  intro i hi
  rw [Nat.zero_add]
  exact congrArg buffer (Nat.mod_eq_of_lt (by omega))

/-- A word of the header lies inside what is left. -/
theorem reads_inside {position rest i : Nat} (short : position + rest < wordSize)
    (header : 20 ≤ rest) (word : i ≤ 16) :
    (position + i) % wordSize + 4 ≤ position + rest := by
  rw [Nat.mod_eq_of_lt (by omega)]
  omega

/-- One turn over a complete record of a buffer that a `long` can measure. -/
theorem turn_of_starts {position rest : Nat} (short : position + rest < 2147483648)
    (starts : coMessageFraming.Starts (buffer.slice position rest)) (log : WriteLog) :
    let n := coMessageFraming.recordLength (buffer.slice position rest)
    leftBehind buffer rest position = (rest - n : Nat) ∧
      (position + (messageAt buffer position).totalSize) % wordSize = position + n ∧
      (log.turn buffer rest position).handed = log.handed ++ [messageAt buffer position] ∧
      (messageAt buffer position).bytes = (buffer.slice position rest).take n ∧
      ((∀ r ∈ log.reads, r.1 + r.2 ≤ position + rest) →
        ∀ r ∈ (log.turn buffer rest position).reads, r.1 + r.2 ≤ position + rest) := by
  intro n
  have word : wordSize = 4294967296 := rfl
  obtain ⟨header, inside⟩ := starts
  rw [ByteMem.length_slice] at header inside
  have hheader : sizeofCoMessage ≤ rest := header
  have size : n = sizeofCoMessage + (messageAt buffer position).size := by
    rw [size_messageAt (by omega) hheader]
    rfl
  have fits : (messageAt buffer position).Fits := by
    unfold CoMessage.Fits
    omega
  have total : (messageAt buffer position).totalSize = n := by
    rw [CoMessage.totalSize_eq fits, size]
  have left : leftBehind buffer rest position = (rest - n : Nat) := by
    unfold leftBehind
    rw [total, signed32_of_lt (by omega) (by omega)]
    omega
  have nonneg : 0 ≤ leftBehind buffer rest position := by
    rw [left]
    exact Int.natCast_nonneg _
  refine ⟨left, ?_, ?_, ?_, ?_⟩
  · rw [total, Nat.mod_eq_of_lt (by omega)]
  · simp only [WriteLog.turn, if_pos nonneg]
  · rw [bytes_messageAt (by omega), ← size, ByteMem.slice_take buffer position inside]
  · intro before r hr
    simp only [WriteLog.turn, if_pos nonneg, messageReads, total] at hr
    simp only [sizeofCoMessage] at hheader size
    rcases List.mem_append.mp hr with hr | hr
    · exact before r hr
    · split_ifs at hr
      · simp only [List.mem_cons, List.not_mem_nil, or_false] at hr
        rcases hr with rfl | rfl | rfl
        · exact reads_inside (by omega) (by omega) (by omega)
        · exact reads_inside (by omega) (by omega) (by omega)
        · exact Nat.add_le_add_left inside position
      · simp only [List.mem_cons, List.not_mem_nil, or_false] at hr
        rcases hr with rfl | rfl
        · exact reads_inside (by omega) (by omega) (by omega)
        · exact reads_inside (by omega) (by omega) (by omega)

/-- The loop, with `rest` bytes left from `position` on, does what is asked of it. -/
def WalksFramed (buffer : ByteMem) (position rest : Nat) (log : WriteLog) : Prop :=
  ∃ turns, (managerWriteLoop buffer turns rest position log).finished = true ∧
    (managerWriteLoop buffer turns rest position log).handed.map CoMessage.bytes =
      log.handed.map CoMessage.bytes ++
        (coMessageFraming.split (buffer.slice position rest)).1 ∧
    ∀ r ∈ (managerWriteLoop buffer turns rest position log).reads, r.1 + r.2 ≤ position + rest

/-- A complete record is handed over and the walk goes on behind it. -/
theorem walksFramed_of_starts {position rest : Nat} (short : position + rest < 2147483648)
    (starts : coMessageFraming.Starts (buffer.slice position rest)) {log : WriteLog}
    (unfinished : log.finished = false) :
    let n := coMessageFraming.recordLength (buffer.slice position rest)
    WalksFramed buffer position rest log ↔
      WalksFramed buffer (position + n) (rest - n) (log.turn buffer rest position) := by
  intro n
  obtain ⟨left, next, handed, bytes, -⟩ := turn_of_starts short starts log
  have fits : n ≤ rest := by
    have := starts.2
    rwa [ByteMem.length_slice] at this
  have positive : 0 < n := coMessageFraming.recordLength_pos _
  have step : ∀ turns, managerWriteLoop buffer (turns + 1) rest position log =
      managerWriteLoop buffer turns (rest - n : Nat) (position + n)
        (log.turn buffer rest position) := by
    intro turns
    rw [managerWriteLoop, if_pos (by omega), left, next]
  have records : log.handed.map CoMessage.bytes ++
        (coMessageFraming.split (buffer.slice position rest)).1 =
      (log.turn buffer rest position).handed.map CoMessage.bytes ++
        (coMessageFraming.split (buffer.slice (position + n) (rest - n))).1 := by
    rw [coMessageFraming.split_of_starts starts, handed, List.map_append, List.append_assoc,
      buffer.slice_drop position fits, List.map_singleton, bytes]
    rfl
  have stop : position + n + (rest - n) = position + rest := by omega
  unfold WalksFramed
  rw [records, stop]
  constructor
  · rintro ⟨turns, finished, same⟩
    cases turns with
    | zero =>
      rw [managerWriteLoop, unfinished] at finished
      contradiction
    | succ turns =>
      rw [step] at finished same
      exact ⟨turns, finished, same⟩
  · rintro ⟨turns, walked⟩
    rw [← step] at walked
    exact ⟨turns + 1, walked⟩

/-- Behind the complete records the loop must stop without another record. -/
theorem walksFramed_of_not_starts {position rest : Nat} (short : position + rest < 2147483648)
    (tail : ¬coMessageFraming.Starts (buffer.slice position rest)) {log : WriteLog}
    (unfinished : log.finished = false) (inside : ∀ r ∈ log.reads, r.1 + r.2 ≤ position + rest) :
    WalksFramed buffer position rest log ↔ TailHarmless (buffer.slice position rest) := by
  have word : wordSize = 4294967296 := rfl
  have twenty : sizeofCoMessage = 20 := rfl
  unfold WalksFramed
  rw [coMessageFraming.split_of_not_starts tail, List.append_nil]
  have recordLength : sizeofCoMessage ≤ rest →
      coMessageFraming.recordLength (buffer.slice position rest) =
        sizeofCoMessage + (messageAt buffer position).size := by
    intro header
    rw [size_messageAt (by omega) header]
    rfl
  have size := (messageAt buffer position).size_lt
  have incomplete : sizeofCoMessage ≤ rest →
      rest < sizeofCoMessage + (messageAt buffer position).size := by
    intro header
    rw [← recordLength header]
    exact Nat.not_le.mp fun fits => tail ⟨by rw [ByteMem.length_slice]; exact header,
      by rw [ByteMem.length_slice]; exact fits⟩
  constructor
  · rintro ⟨turns, finished, handed, reads⟩
    by_cases empty : rest = 0
    · exact .inl (by rw [empty]; rfl)
    cases turns with
    | zero =>
      rw [managerWriteLoop, unfinished] at finished
      contradiction
    | succ turns =>
      rw [managerWriteLoop, if_pos (by omega)] at handed reads
      have turn := @WriteLog.turn_grows buffer log rest position
      have grows := @managerWriteLoop_grows buffer turns
        (leftBehind buffer rest position)
        ((position + (messageAt buffer position).totalSize) % wordSize)
        (log.turn buffer rest position)
      have header : sizeofCoMessage ≤ rest := by
        have := reads ((position + 16) % wordSize, 4) (grows.2.subset (turn.2.subset (by simp)))
        rw [Nat.mod_eq_of_lt (by omega)] at this
        omega
      refine .inr ⟨by rw [ByteMem.length_slice]; exact header, ?_⟩
      rw [ByteMem.length_slice, recordLength header]
      by_contra far
      -- The remainder wraps to a positive `long`, so the incomplete record is handed over.
      have nonneg : 0 ≤ leftBehind buffer rest position := by
        unfold leftBehind signed32 CoMessage.totalSize
        simp only [wordSize]
        omega
      have longer := grows.1.length_le
      have same := congrArg List.length handed
      simp only [WriteLog.turn, if_pos nonneg, List.length_append, List.length_singleton,
        List.length_map] at longer same
      omega
  · rintro (empty | ⟨header, near⟩)
    · have none : rest = 0 := by
        have := congrArg List.length empty
        rwa [ByteMem.length_slice] at this
      subst none
      exact ⟨1, rfl, rfl, inside⟩
    · rw [ByteMem.length_slice] at header near
      rw [recordLength header] at near
      have more := incomplete header
      have left : leftBehind buffer rest position < 0 := by
        unfold leftBehind signed32 CoMessage.totalSize
        simp only [wordSize]
        omega
      have positive : (0 : Int) < rest := by omega
      have two : managerWriteLoop buffer 2 rest position log =
          { log with
            reads := log.reads ++ [((position + 16) % wordSize, 4)]
            finished := true } := by
        simp only [managerWriteLoop, if_pos positive, WriteLog.turn, if_neg (Int.not_le.mpr left),
          if_neg (Int.not_lt.mpr (Int.le_of_lt left))]
      refine ⟨2, ?_⟩
      rw [two]
      refine ⟨rfl, rfl, ?_⟩
      intro r hr
      rcases List.mem_append.mp hr with hr | hr
      · exact inside r hr
      · rw [List.mem_singleton.mp hr]
        exact reads_inside (by omega) (by omega) (by omega)

/-- The walk does what is asked of it if and only if the tail is harmless. -/
theorem walksFramed_iff {position rest : Nat} (short : position + rest < 2147483648)
    {log : WriteLog} (unfinished : log.finished = false)
    (inside : ∀ r ∈ log.reads, r.1 + r.2 ≤ position + rest) :
    WalksFramed buffer position rest log ↔
      TailHarmless (coMessageFraming.split (buffer.slice position rest)).2 := by
  induction rest using Nat.strongRecOn generalizing position log with
  | ind rest ih =>
    by_cases starts : coMessageFraming.Starts (buffer.slice position rest)
    · have fits := starts.2
      rw [ByteMem.length_slice] at fits
      have positive := coMessageFraming.recordLength_pos (buffer.slice position rest)
      obtain ⟨-, -, -, -, reads⟩ := turn_of_starts short starts log
      have same : (log.turn buffer rest position).finished = false := by
        unfold WriteLog.turn
        split_ifs <;> exact unfinished
      refine (walksFramed_of_starts short starts unfinished).trans ?_
      rw [coMessageFraming.split_of_starts starts, buffer.slice_drop position fits]
      apply ih _ (by omega) (by omega) same
      intro r hr
      have := reads inside r hr
      omega
    · rw [walksFramed_of_not_starts short starts unfinished inside,
        coMessageFraming.split_of_not_starts starts]

/-- `manager_write` frames a buffer if and only if its tail is harmless. -/
theorem managerWrite_framed_iff (buffer : ByteMem) {length : Nat} (h : length < wordSize) :
    WritesFramed buffer length ↔ WriteHarmless buffer length := by
  have word : wordSize = 4294967296 := rfl
  unfold WriteHarmless
  by_cases short : length < 2147483648
  · rw [if_pos short, ← walksFramed_iff (by omega) (rfl : (WriteLog.mk [] [] false).finished = false)
      (by simp)]
    unfold WalksFramed WritesFramed managerWrite
    rw [signed32_of_lt (by omega) (by omega)]
    simp
  · rw [if_neg short]
    have negative : ¬0 < signed32 length := by
      unfold signed32
      omega
    have nothing : ∀ turns, (managerWrite buffer length turns).handed = [] ∧
        (managerWrite buffer length turns).reads = [] := by
      intro turns
      cases turns with
      | zero => exact ⟨rfl, rfl⟩
      | succ turns =>
        rw [managerWrite, managerWriteLoop, if_neg negative]
        exact ⟨rfl, rfl⟩
    constructor
    · rintro ⟨turns, -, handed, -⟩ starts
      rw [(nothing turns).1, coMessageFraming.split_of_starts starts] at handed
      exact List.cons_ne_nil _ _ handed.symm
    · intro tail
      refine ⟨1, ?_, ?_, ?_⟩
      · rw [managerWrite, managerWriteLoop, if_neg negative]
      · rw [(nothing 1).1, coMessageFraming.split_of_not_starts tail]
        rfl
      · rw [(nothing 1).2]
        simp

/-- One key press for Linux, and nothing behind it. -/
def keyWrite : ByteMem := coMessage 2 0 1 1 17 (coLinuxMessage 2 0 5 fun i => UInt8.ofNat i)

theorem managerWrite_framed_iff_keyWrite :
    WritesFramed keyWrite 37 ↔ WriteHarmless keyWrite 37 :=
  managerWrite_framed_iff keyWrite (by decide)

/-- A lone header that announces `2 ^ 32 - 16` bytes of data. -/
def wrappingWrite : ByteMem := coMessage 2 0 1 1 4294967280 fun _ => 0

/-- The record reaches far past the end of the buffer and is handed over all the same. -/
theorem wrappingWrite_not_framed : ¬WritesFramed wrappingWrite 20 := by
  rintro ⟨turns, finished, handed, -⟩
  cases turns with
  | zero => exact absurd finished (by decide)
  | succ turns =>
    have none : (coMessageFraming.split (wrappingWrite.slice 0 20)).1 = [] := by decide +kernel
    rw [none] at handed
    have grows := (@managerWriteLoop_grows wrappingWrite turns
      (leftBehind wrappingWrite 20 0) ((0 + (messageAt wrappingWrite 0).totalSize) % wordSize)
      (WriteLog.turn ⟨[], [], false⟩ wrappingWrite 20 0)).1.length_le
    have first : (WriteLog.turn ⟨[], [], false⟩ wrappingWrite 20 0).handed.length = 1 := by
      decide +kernel
    have left : signed32 (20 : Nat) = 20 := by decide
    rw [managerWrite, left, managerWriteLoop, if_pos (by decide)] at handed
    rw [List.map_eq_nil_iff.mp handed, first] at grows
    contradiction

end CoLinux
