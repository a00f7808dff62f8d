import CoLinux.Lib.BitSearch
import CoLinux.Winnt.Block
import Mathlib.Logic.Basic

/-!
# The size of a device (`os/winnt/kernel/block.c`)

`co_os_file_block_detect_size_binary_search` finds the size by reads that succeed or fail. Its
scan for the first power of two behind the device starts at offset 1, which a device with sectors
refuses, and then nothing is left to search.
-/

namespace CoLinux

open Lib

/-- A `LARGE_INTEGER`. -/
abbrev LargeInteger := BitVec 64

/-- `test_buffer_size_max`. -/
abbrev testBufferSizeMax : Nat := 0x4000

/-- `probe_area` with what `ZwReadFile` returns for an offset and a size. -/
def probeArea (zwReadFile : LargeInteger → Nat → NtStatus) (offset : LargeInteger) (size : Nat) :
    Bool :=
  zwReadFile offset size = .success

section Loops

variable (probe : LargeInteger → Bool)

/-- The loop over `test_buffer_size`, `none` when it still runs after `fuel` turns. -/
def testBufferSize (probe : Nat → Bool) : Nat → Nat → Option Nat
  | 0, _ => none
  | fuel + 1, size =>
    if size ≤ testBufferSizeMax then
      if probe size then some size else testBufferSize probe fuel (size <<< 1)
    else some size

/-- The loop that looks for the smallest invalid power of 2. -/
def smallestInvalid : Nat → LargeInteger → Option LargeInteger
  | 0, _ => none
  | fuel + 1, scanBit =>
    if scanBit ≠ 0 then
      if probe scanBit then smallestInvalid fuel (scanBit <<< 1) else some scanBit
    else some scanBit

/-- The loop that collects the bits of `build_size`. -/
def buildSize : Nat → LargeInteger → LargeInteger → Option LargeInteger
  | 0, _, _ => none
  | fuel + 1, scanBit, build =>
    if scanBit ≠ 0 then
      let scanBit := scanBit.sshiftRight 1
      let withBit := build ||| scanBit
      buildSize fuel scanBit (if probe withBit then withBit else build)
    else some build

end Loops

/-- `co_os_file_block_detect_size_binary_search`: its result and what it stores in `*out_size`.
`granted` says whether `co_os_malloc` succeeds. -/
def coOsFileBlockDetectSizeBinarySearch (granted : Bool)
    (zwReadFile : LargeInteger → Nat → NtStatus) (fuel : Nat) :
    Option (CoRc × Option LargeInteger) :=
  if granted then do
    let size ← testBufferSize (probeArea zwReadFile 0) fuel 0x100
    if testBufferSizeMax ≤ size then some (.error, some 0)
    else
      let scanBit ← smallestInvalid (probeArea zwReadFile · size) fuel 1
      if scanBit = 0 then some (.error, none)
      else
        let build ← buildSize (probeArea zwReadFile · size) fuel scanBit 0
        some (.ok, some (build + BitVec.ofNat 64 size))
  else some (.outOfMemory, none)

/-- The call ends, and returns `size`. -/
def DetectsSize (granted : Bool) (zwReadFile : LargeInteger → Nat → NtStatus) (size : Nat) :
    Prop :=
  ∃ turns, ∀ fuel ≥ turns, coOsFileBlockDetectSizeBinarySearch granted zwReadFile fuel =
    some (.ok, some (BitVec.ofNat 64 size))

/-- Reads of a device of `size` bytes succeed when they are of whole sectors of it. -/
def ReadsSectors (zwReadFile : LargeInteger → Nat → NtStatus) (sector size : Nat) : Prop :=
  ∀ offset length, zwReadFile offset length = .success ↔
    sector ∣ offset.toNat ∧ sector ∣ length ∧ offset.toNat + length ≤ size

section Search

variable {probe : LargeInteger → Bool}

theorem bit_toNat {k : Nat} (low : k < 64) : (BitVec.ofNat 64 (2 ^ k)).toNat = 2 ^ k :=
  Nat.mod_eq_of_lt (Nat.pow_lt_pow_right (by decide) low)

theorem bit_ne_zero {k : Nat} (low : k < 64) : BitVec.ofNat 64 (2 ^ k) ≠ 0 := by
  intro zero
  have value := congrArg BitVec.toNat zero
  rw [bit_toNat low] at value
  exact absurd value (Nat.ne_of_gt (Nat.two_pow_pos k))

theorem bit_shiftLeft (k : Nat) :
    BitVec.ofNat 64 (2 ^ k) <<< 1 = BitVec.ofNat 64 (2 ^ (k + 1)) := by
  apply BitVec.eq_of_toNat_eq
  rw [BitVec.toNat_shiftLeft, BitVec.toNat_ofNat, BitVec.toNat_ofNat, Nat.shiftLeft_eq, Nat.pow_one,
    Nat.mod_mul_mod, ← Nat.pow_succ]

theorem bit_shiftRight {k : Nat} (low : k < 62) :
    (BitVec.ofNat 64 (2 ^ (k + 1))).sshiftRight 1 = BitVec.ofNat 64 (2 ^ k) := by
  have positive : (BitVec.ofNat 64 (2 ^ (k + 1))).msb = false := by
    rw [BitVec.msb_eq_decide, bit_toNat (by omega)]
    exact decide_eq_false (Nat.not_le_of_lt (Nat.pow_lt_pow_right (by decide) (by omega)))
  rw [BitVec.sshiftRight_eq_of_msb_false positive]
  apply BitVec.eq_of_toNat_eq
  rw [BitVec.toNat_ushiftRight, bit_toNat (by omega), bit_toNat (by omega),
    Nat.shiftRight_eq_div_pow, Nat.pow_one, Nat.pow_succ, Nat.mul_div_cancel _ (by decide)]

/-- The first size of the test buffer that can be read, when a later one can. -/
theorem testBufferSize_found {probe : Nat → Bool} {n fuel size : Nat}
    (last : size * 2 ^ n = 0x2000) (readable : probe 0x2000 = true) (turns : n < fuel) :
    ∃ found, testBufferSize probe fuel size = some found ∧ found ≤ 0x2000 ∧
      probe found = true := by
  induction n generalizing fuel size with
  | zero =>
    obtain ⟨fuel, rfl⟩ := Nat.exists_eq_succ_of_ne_zero (Nat.ne_of_gt turns)
    obtain rfl : size = 0x2000 := by simpa using last
    refine ⟨0x2000, ?_, Nat.le_refl _, readable⟩
    rw [testBufferSize, if_pos (by decide), if_pos readable]
  | succ n ih =>
    obtain ⟨fuel, rfl⟩ := Nat.exists_eq_succ_of_ne_zero (Nat.ne_of_gt (Nat.zero_lt_of_lt turns))
    have small : size ≤ 0x2000 := by
      rw [← last]
      exact Nat.le_mul_of_pos_right size (Nat.two_pow_pos _)
    rw [testBufferSize, if_pos (Nat.le_trans small (by decide))]
    by_cases here : probe size = true
    · exact ⟨size, if_pos here, small, here⟩
    · rw [if_neg here]
      refine ih ?_ (Nat.lt_of_succ_lt_succ turns)
      rw [Nat.shiftLeft_eq, Nat.pow_one, Nat.mul_assoc, Nat.mul_comm 2, ← Nat.pow_succ]
      exact last

/-- The scan from a power of two ends at a refused one, when there is one. -/
theorem smallestInvalid_found {n j fuel : Nat}
    (refused : probe (BitVec.ofNat 64 (2 ^ (j + n))) = false) (turns : n < fuel)
    (low : j + n < 64) :
    ∃ k ≤ j + n, smallestInvalid probe fuel (BitVec.ofNat 64 (2 ^ j)) =
      some (BitVec.ofNat 64 (2 ^ k)) ∧ probe (BitVec.ofNat 64 (2 ^ k)) = false := by
  induction n generalizing fuel j with
  | zero =>
    obtain ⟨fuel, rfl⟩ := Nat.exists_eq_succ_of_ne_zero (Nat.ne_of_gt turns)
    rw [Nat.add_zero] at refused low ⊢
    refine ⟨j, Nat.le_refl _, ?_, refused⟩
    rw [smallestInvalid, if_pos (bit_ne_zero low), if_neg (Bool.eq_false_iff.mp refused)]
  | succ n ih =>
    obtain ⟨fuel, rfl⟩ := Nat.exists_eq_succ_of_ne_zero (Nat.ne_of_gt (Nat.zero_lt_of_lt turns))
    rw [smallestInvalid, if_pos (bit_ne_zero (by omega))]
    by_cases here : probe (BitVec.ofNat 64 (2 ^ j)) = true
    · rw [if_pos here, bit_shiftLeft]
      have shift : j + 1 + n = j + (n + 1) := by omega
      obtain ⟨k, high, scan, found⟩ := ih (j := j + 1) (by rwa [shift])
        (Nat.lt_of_succ_lt_succ turns) (by omega)
      exact ⟨k, by omega, scan, found⟩
    · rw [if_neg here]
      exact ⟨j, Nat.le_add_right _ _, rfl, Bool.eq_false_iff.mpr here⟩

/-- The last turn of the loop sets no bit. -/
theorem buildSize_last {fuel : Nat} (turns : 2 ≤ fuel) (b : LargeInteger) :
    buildSize probe fuel 1 b = some b := by
  obtain ⟨fuel, rfl⟩ : ∃ n, fuel = n + 2 := ⟨fuel - 2, by omega⟩
  have done : (1 : LargeInteger).sshiftRight 1 = 0 := by decide
  have kept : b ||| 0 = b := BitVec.or_zero
  rw [buildSize, if_pos (by decide), done]
  dsimp only
  rw [kept, ite_self, buildSize, if_neg (by decide)]

/-- The loop collects the bits as `bitSearch` does. -/
theorem buildSize_eq {k b fuel : Nat} (turns : k + 2 ≤ fuel) (low : k ≤ 62) (clear : 2 ^ k ∣ b)
    (small : b + 2 ^ k ≤ 2 ^ 63) :
    buildSize probe fuel (BitVec.ofNat 64 (2 ^ k)) (BitVec.ofNat 64 b) =
      some (BitVec.ofNat 64 (bitSearch (fun n => probe (BitVec.ofNat 64 n)) k b)) := by
  induction k generalizing b fuel with
  | zero => exact buildSize_last turns _
  | succ k ih =>
    obtain ⟨fuel, rfl⟩ := Nat.exists_eq_succ_of_ne_zero (Nat.ne_of_gt (Nat.zero_lt_of_lt turns))
    have power : 2 ^ (k + 1) = 2 ^ k + 2 ^ k := by rw [Nat.pow_succ, Nat.mul_two]
    have withBit : BitVec.ofNat 64 b ||| BitVec.ofNat 64 (2 ^ k) = BitVec.ofNat 64 (b + 2 ^ k) := by
      rw [← or_bit clear, BitVec.ofNat_or]
    have lower : 2 ^ k ∣ b := Nat.dvd_trans (Nat.pow_dvd_pow 2 (Nat.le_succ k)) clear
    rw [buildSize, if_pos (bit_ne_zero (by omega)), bit_shiftRight (by omega)]
    dsimp only
    rw [withBit, bitSearch]
    by_cases here : probe (BitVec.ofNat 64 (b + 2 ^ k)) = true
    · rw [if_pos here, if_pos here]
      exact ih (by omega) (by omega) ((Nat.dvd_add_right lower).mpr (Nat.dvd_refl _)) (by omega)
    · rw [if_neg here, if_neg here]
      exact ih (by omega) (by omega) lower (by omega)

end Search

section Detection

variable {zwReadFile : LargeInteger → Nat → NtStatus} {sector size : Nat}

theorem ReadsSectors.probeArea_iff (reads : ReadsSectors zwReadFile sector size)
    (offset : LargeInteger) (length : Nat) : probeArea zwReadFile offset length = true ↔
      sector ∣ offset.toNat ∧ sector ∣ length ∧ offset.toNat + length ≤ size :=
  decide_eq_true_iff.trans (reads offset length)

/-- The search when all of its loops end. -/
theorem binarySearch_ends {fuel length : Nat} {scanBit build : LargeInteger}
    (test : testBufferSize (probeArea zwReadFile 0) fuel 0x100 = some length)
    (short : length ≤ 0x2000)
    (scan : smallestInvalid (probeArea zwReadFile · length) fuel 1 = some scanBit)
    (nonzero : scanBit ≠ 0)
    (bits : buildSize (probeArea zwReadFile · length) fuel scanBit 0 = some build) :
    coOsFileBlockDetectSizeBinarySearch true zwReadFile fuel =
      some (.ok, some (build + BitVec.ofNat 64 length)) := by
  have inBuffer : ¬testBufferSizeMax ≤ length :=
    Nat.not_le_of_lt (Nat.lt_of_le_of_lt short (by decide))
  simp only [coOsFileBlockDetectSizeBinarySearch, test, scan, bits, if_pos, if_neg inBuffer,
    if_neg nonzero, Option.bind_eq_bind, Option.bind_some]

/-- With sectors of more than one byte the result is the length of the test reads. -/
theorem binarySearch_sectors (reads : ReadsSectors zwReadFile sector size) (wide : sector ≠ 1)
    {length fuel : Nat} (turns : 2 ≤ fuel)
    (test : testBufferSize (probeArea zwReadFile 0) fuel 0x100 = some length)
    (short : length ≤ 0x2000) :
    coOsFileBlockDetectSizeBinarySearch true zwReadFile fuel =
      some (.ok, some (BitVec.ofNat 64 length)) := by
  have refused : probeArea zwReadFile 1 length ≠ true := by
    intro read
    have whole := ((reads.probeArea_iff 1 length).mp read).1
    exact wide (Nat.dvd_one.mp whole)
  have scan : smallestInvalid (probeArea zwReadFile · length) fuel 1 = some 1 := by
    obtain ⟨fuel, rfl⟩ := Nat.exists_eq_succ_of_ne_zero (Nat.ne_of_gt (Nat.zero_lt_of_lt turns))
    rw [smallestInvalid, if_pos (by decide), if_neg refused]
  have sum : 0 + BitVec.ofNat 64 length = BitVec.ofNat 64 length := BitVec.zero_add _
  rw [binarySearch_ends test short scan (by decide) (buildSize_last turns 0), sum]

/-- With sectors of one byte it is the size of the device. -/
theorem binarySearch_bytes (reads : ReadsSectors zwReadFile 1 size) (small : size < 2 ^ 62)
    {length fuel : Nat} (turns : 64 ≤ fuel)
    (test : testBufferSize (probeArea zwReadFile 0) fuel 0x100 = some length)
    (short : length ≤ 0x2000) (fits : length ≤ size) :
    coOsFileBlockDetectSizeBinarySearch true zwReadFile fuel =
      some (.ok, some (BitVec.ofNat 64 size)) := by
  have probe : ∀ offset, probeArea zwReadFile offset length = true ↔
      offset.toNat + length ≤ size := by
    intro offset
    rw [reads.probeArea_iff]
    exact ⟨fun h => h.2.2, fun h => ⟨Nat.one_dvd _, Nat.one_dvd _, h⟩⟩
  have refused : probeArea zwReadFile (BitVec.ofNat 64 (2 ^ (0 + 62))) length = false := by
    rw [Bool.eq_false_iff, ne_eq, probe, bit_toNat (by decide)]
    omega
  obtain ⟨k, low, scan, behind⟩ := @smallestInvalid_found
    (probeArea zwReadFile · length) 62 0 fuel refused (by omega) (by decide)
  have offsets : 2 ^ k ≤ 2 ^ 62 := Nat.pow_le_pow_right (by decide) low
  have build := @buildSize_eq (probeArea zwReadFile · length) k 0 fuel (by omega) low
    (Nat.dvd_zero _) (by omega)
  have found : bitSearch (fun n => probeArea zwReadFile (BitVec.ofNat 64 n) length) k 0 =
      size - length := by
    refine bitSearch_eq ?_ behind
    intro n below
    rw [probe, BitVec.toNat_ofNat, Nat.mod_eq_of_lt (by omega)]
    omega
  rw [found] at build
  have sum : BitVec.ofNat 64 (size - length) + BitVec.ofNat 64 length = BitVec.ofNat 64 size := by
    rw [← BitVec.ofNat_add, Nat.sub_add_cancel fits]
  rw [binarySearch_ends test short scan (bit_ne_zero (by omega)) build, sum]

/-- The search finds the size of a device exactly when its sectors are single bytes. -/
theorem detectsSize_iff {granted : Bool} (power : ∃ k, sector = 2 ^ k) (most : sector ≤ 0x2000)
    (reads : ReadsSectors zwReadFile sector size) (whole : sector ∣ size) (large : 0x4000 ≤ size)
    (small : size < 2 ^ 62) :
    DetectsSize granted zwReadFile size ↔ granted = true ∧ sector = 1 := by
  obtain ⟨k, rfl⟩ := power
  have divides : 2 ^ k ∣ 0x2000 := by
    refine Nat.pow_dvd_pow (n := 13) 2 ?_
    exact (Nat.pow_le_pow_iff_right (by decide)).mp most
  have readable : probeArea zwReadFile 0 0x2000 = true := by
    refine (reads.probeArea_iff 0 0x2000).mpr ⟨Nat.dvd_zero _, divides, ?_⟩
    have : (0 : LargeInteger).toNat = 0 := rfl
    omega
  have test := fun fuel (turns : 5 < fuel) =>
    testBufferSize_found (show 0x100 * 2 ^ 5 = 0x2000 from rfl) readable turns
  constructor
  · rintro ⟨turns, detected⟩
    have result := detected (turns + 64) (Nat.le_add_right _ _)
    cases granted with
    | false => simp [coOsFileBlockDetectSizeBinarySearch] at result
    | true =>
      refine ⟨rfl, ?_⟩
      by_contra wide
      obtain ⟨length, found, short, _⟩ := test (turns + 64) (by omega)
      rw [binarySearch_sectors reads wide (by omega) found short] at result
      have same : BitVec.ofNat 64 length = BitVec.ofNat 64 size := by simpa using result
      have value := congrArg BitVec.toNat same
      rw [BitVec.toNat_ofNat, BitVec.toNat_ofNat, Nat.mod_eq_of_lt (by omega),
        Nat.mod_eq_of_lt (by omega)] at value
      omega
  · rintro ⟨rfl, bytes⟩
    rw [bytes] at reads
    refine ⟨64, fun fuel turns => ?_⟩
    obtain ⟨length, found, short, _⟩ := test fuel (by omega)
    exact binarySearch_bytes reads small turns found short (by omega)

/-- The reads of a device. -/
def deviceRead (sector size : Nat) (offset : LargeInteger) (length : Nat) : NtStatus :=
  if sector ∣ offset.toNat ∧ sector ∣ length ∧ offset.toNat + length ≤ size then .success
  else .invalidParameter

theorem deviceRead_readsSectors (sector size : Nat) :
    ReadsSectors (deviceRead sector size) sector size := by
  intro offset length
  unfold deviceRead
  by_cases whole : sector ∣ offset.toNat ∧ sector ∣ length ∧ offset.toNat + length ≤ size
  · rw [if_pos whole]
    exact ⟨fun _ => whole, fun _ => rfl⟩
  · rw [if_neg whole]
    exact ⟨fun read => (nomatch read), fun read => absurd read whole⟩

/-- A device of one megabyte whose sectors are single bytes is measured. -/
theorem detectsSize_iff_bytes :
    DetectsSize true (deviceRead 1 0x100000) 0x100000 ↔ true = true ∧ 1 = 1 :=
  detectsSize_iff ⟨0, rfl⟩ (by decide) (deviceRead_readsSectors 1 0x100000) (by decide) (by decide)
    (by decide)

/-- A disk of one megabyte with sectors of 512 bytes is found to have one sector. -/
theorem smallDisk_oneSector :
    ReadsSectors (deviceRead 512 0x100000) 512 0x100000 ∧
      DetectsSize true (deviceRead 512 0x100000) 512 ∧
      ¬DetectsSize true (deviceRead 512 0x100000) 0x100000 := by
  have reads := deviceRead_readsSectors 512 0x100000
  have result : ∀ fuel, coOsFileBlockDetectSizeBinarySearch true (deviceRead 512 0x100000)
      (fuel + 2) = some (.ok, some (BitVec.ofNat 64 512)) := by
    intro fuel
    exact binarySearch_sectors reads (by decide) (Nat.le_add_left _ _) rfl (by decide)
  refine ⟨reads, ⟨2, ?_⟩, ?_⟩
  · intro fuel turns
    obtain ⟨more, rfl⟩ := Nat.exists_eq_add_of_le' turns
    exact result more
  · rintro ⟨turns, detected⟩
    have other := (result turns).symm.trans (detected (turns + 2) (Nat.le_add_right _ _))
    exact absurd other (by decide)

end Detection

end CoLinux
