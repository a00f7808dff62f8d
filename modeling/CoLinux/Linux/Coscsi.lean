import CoLinux.Common.Types
import CoLinux.Lib.BitSearch
import Mathlib.Logic.Basic
import Mathlib.Tactic.SplitIfs

/-!
# READ and WRITE of the guest's SCSI driver (`patch/scsi-core.diff`)

`read_write` takes the first block and the number of blocks out of the command block and hands
the transfer to the host. It multiplies both with the sector size in fixed-width arithmetic, and it
compares neither with the size of the medium.
-/

namespace CoLinux

open Lib

abbrev checkCondition : Nat := 2
abbrev scsiGood : Nat := 0

abbrev illegalRequest : Nat := 5
abbrev hardwareError : Nat := 4
abbrev invalidFieldInCdb : Nat := 0x24

/-- `coscsi_device_t`, as far as transfers use it. -/
structure CoscsiDevice where
  maxLba : Nat
  size : Nat
  osHandle : Nat
  key : Nat
  asc : Nat
  asq : Nat
  deriving DecidableEq

/-- `struct scsi_cmnd`: the command block, the sector size of its device, and the scatter list
that `dma_map_sg` mapped. -/
structure ScsiCmnd where
  scp : Nat
  cmnd : Nat → UInt8
  sectorSize : UInt32
  sg : Nat
  count : Nat

/-- `co_scsi_io_t`. -/
structure CoScsiIo where
  scp : Nat
  offset : Nat
  sg : Nat
  count : Nat
  reqlen : Int
  write : Nat
  deriving DecidableEq

/-- What the host answers to `CO_SCSI_OPEN`, `CO_SCSI_IO` and `CO_SCSI_SIZE`. -/
structure ScsiHost where
  openRc : Nat
  handle : Nat
  ioRc : Nat
  sizeRc : Nat
  size : UInt64

/-- A status, the device afterwards and the I/O that was handed to the host. -/
structure ScsiResult where
  status : Nat
  device : CoscsiDevice
  ios : List CoScsiIo

def CoscsiDevice.checkCondition (dp : CoscsiDevice) (key asc asq : Nat) (ios : List CoScsiIo) :
    ScsiResult :=
  ⟨CoLinux.checkCondition, { dp with key := key, asc := asc, asq := asq }, ios⟩

/-- `host_open`. -/
def hostOpen (host : ScsiHost) (dp : CoscsiDevice) : Nat × CoscsiDevice :=
  if dp.osHandle ≠ 0 then (0, dp)
  else if host.openRc = 0 then (0, { dp with osHandle := host.handle })
  else (host.openRc, dp)

/-- `iop` as `host_rw` fills it in. `num` is an `unsigned long` and `reqlen` an `int`. -/
def scsiIo (scp : ScsiCmnd) (lba num write : Nat) : CoScsiIo where
  scp := scp.scp
  offset := lba * scp.sectorSize.toNat % 2 ^ 64
  sg := scp.sg
  count := scp.count
  reqlen := ((num * scp.sectorSize.toNat : Nat) : Int).bmod wordSize
  write := write

/-- `host_rw`. -/
def hostRw (host : ScsiHost) (scp : ScsiCmnd) (lba num write : Nat) (dp : CoscsiDevice) :
    ScsiResult :=
  let opened := if dp.osHandle = 0 then hostOpen host dp else (0, dp)
  if opened.1 ≠ 0 then ⟨1, opened.2, []⟩
  else ⟨host.ioRc, opened.2, [scsiIo scp lba num write]⟩

/-! ## The size of the medium -/

/-- The loop of `get_bs_bits`, with `bits` turns left. -/
def highestBit (sectorSize : Nat) : Nat → Int
  | 0 => -1
  | bits + 1 => if sectorSize.testBit bits then bits else highestBit sectorSize bits

/-- `get_bs_bits`. -/
def getBsBits (sectorSize : UInt32) : Int := highestBit sectorSize.toNat 32

/-- `dp->max_lba` as `host_size` computes it. -/
def maxLbaOf (size : UInt64) (sectorSize : UInt32) : Nat :=
  let bits := (getBsBits sectorSize).toNat
  let s := (size.toNat >>> bits) * sectorSize.toNat % 2 ^ 64
  let s := if s < size.toNat then (s + sectorSize.toNat) % 2 ^ 64 else s
  if s >>> bits = 0 then 2 ^ 64 - 1 else s >>> bits - 1

/-- `host_size`. -/
def hostSize (host : ScsiHost) (scp : ScsiCmnd) (dp : CoscsiDevice) : Nat × CoscsiDevice :=
  let opened := if dp.osHandle = 0 then hostOpen host dp else (0, dp)
  if opened.1 ≠ 0 then (1, opened.2)
  else
    (host.sizeRc, { opened.2 with
      size := host.size.toNat
      maxLba := maxLbaOf host.size scp.sectorSize })

theorem getBsBits_two_pow {sectorSize : UInt32} {k : Nat} (power : sectorSize.toNat = 2 ^ k) :
    getBsBits sectorSize = k := by
  have all : ∀ j : Nat, j < 32 → highestBit (2 ^ j) 32 = (j : Int) := by decide
  have low : k < 32 := (Nat.pow_lt_pow_iff_right (by decide)).mp (power ▸ sectorSize.toNat_lt)
  unfold getBsBits
  rw [power]
  exact all k low

/-- With sectors of a power of two, `max_lba` is the block of the last byte. -/
theorem maxLbaOf_eq {size : UInt64} {sectorSize : UInt32} {k : Nat}
    (power : sectorSize.toNat = 2 ^ k) (nonempty : 0 < size.toNat) (small : size.toNat ≤ 2 ^ 63) :
    maxLbaOf size sectorSize = (size.toNat - 1) / 2 ^ k := by
  have word := sectorSize.toNat_lt
  generalize hn : size.toNat = n at nonempty small
  unfold maxLbaOf
  rw [getBsBits_two_pow power, power, hn, Int.toNat_natCast]
  simp only [Nat.shiftRight_eq_div_pow]
  rw [power] at word
  have positive := Nat.two_pow_pos k
  generalize 2 ^ k = b at word positive
  have below : n / b * b ≤ n := Nat.div_mul_le_self n b
  have above : n < (n / b + 1) * b := by
    rw [Nat.mul_comm]
    exact Nat.lt_mul_div_succ n positive
  rw [Nat.add_mul, Nat.one_mul] at above
  generalize n / b = q at below above
  rw [Nat.mod_eq_of_lt (by omega)]
  by_cases ragged : q * b < n
  · -- the last block is not full
    have last : (n - 1) / b = q := by
      apply Nat.div_eq_of_lt_le
      · omega
      · rw [Nat.add_mul, Nat.one_mul]
        omega
    rw [if_pos ragged, Nat.mod_eq_of_lt (by omega), Nat.add_div_right _ positive,
      Nat.mul_div_cancel _ positive, if_neg (Nat.succ_ne_zero q), last, Nat.add_sub_cancel]
  · have nonzero : q ≠ 0 := by
      rintro rfl
      omega
    obtain ⟨p, rfl⟩ := Nat.exists_eq_succ_of_ne_zero nonzero
    rw [Nat.succ_mul] at below above ragged
    have last : (n - 1) / b = p := by
      apply Nat.div_eq_of_lt_le
      · omega
      · rw [Nat.add_mul, Nat.one_mul]
        omega
    rw [Nat.succ_mul, if_neg ragged, Nat.add_div_right _ positive, Nat.mul_div_cancel _ positive,
      if_neg (Nat.succ_ne_zero p), last, Nat.add_sub_cancel]

/-! ## Commands -/

/-- The byte at `cmnd[i]`, promoted. -/
def ScsiCmnd.byte (scp : ScsiCmnd) (i : Nat) : Nat := (scp.cmnd i).toNat

/-- The four bytes from `cmnd[i]` on, shifted together. -/
def ScsiCmnd.shifted (scp : ScsiCmnd) (i : Nat) : Nat :=
  scp.byte i <<< 24 ||| scp.byte (i + 1) <<< 16 ||| scp.byte (i + 2) <<< 8 ||| scp.byte (i + 3)

/-- The loop over the eight bytes of a 16-byte command's address. -/
def ScsiCmnd.lba16 (scp : ScsiCmnd) : Nat :=
  (List.range 8).foldl
    (fun lba x => (if x ≠ 0 then lba <<< 8 % 2 ^ 64 else lba) ||| scp.byte (2 + x)) 0

/-- `lba` and `num` of `read_write`. -/
def ScsiCmnd.blocks (scp : ScsiCmnd) : Option (Nat × Nat) :=
  match scp.cmnd 0 with
  | 0x88 | 0x8a => some (scp.lba16, scp.shifted 10)
  | 0xa8 | 0xaa => some (scp.shifted 2, scp.shifted 6)
  | 0x28 | 0x2a => some (scp.shifted 2, scp.byte 7 <<< 8 ||| scp.byte 8)
  | 0x08 | 0x0a =>
    some ((scp.byte 1 &&& 0x1f) <<< 16 ||| scp.byte 2 <<< 8 ||| scp.byte 3,
      if scp.byte 4 ≠ 0 then scp.byte 4 else 0xff)
  | _ => none

/-- `read_write`. -/
def readWrite (host : ScsiHost) (scp : ScsiCmnd) (dp : CoscsiDevice) : ScsiResult :=
  match scp.blocks with
  | none => dp.checkCondition illegalRequest invalidFieldInCdb 0 []
  | some (lba, num) =>
    let io := hostRw host scp lba num ((scp.byte 0 &&& 2) >>> 1) dp
    if io.status ≠ 0 then io.device.checkCondition hardwareError 0x3e 1 io.ios
    else { io with status := scsiGood }

/-- `coscsi_queue` for a device that is there; `other` stands for the other commands. -/
def coscsiQueue (other : ScsiCmnd → CoscsiDevice → ScsiResult) (host : ScsiHost) (scp : ScsiCmnd)
    (dp : CoscsiDevice) : ScsiResult :=
  match scp.cmnd 0 with
  | 0x08 | 0x28 | 0x88 | 0x0a | 0x2a | 0x8a => readWrite host scp dp
  | _ => other scp dp

/-! ## The encoding -/

/-- The READ and WRITE commands that `coscsi_queue` takes. -/
inductive ReadWriteOp where
  | read6
  | read10
  | read16
  | write6
  | write10
  | write16

/-- A number of several bytes, the highest first. -/
def bigEndian (bytes : List UInt8) : Nat := bytes.foldl (fun n b => 256 * n + b.toNat) 0

namespace ReadWriteOp

def code : ReadWriteOp → UInt8
  | read6 => 0x08
  | read10 => 0x28
  | read16 => 0x88
  | write6 => 0x0a
  | write10 => 0x2a
  | write16 => 0x8a

def isWrite : ReadWriteOp → Nat
  | read6 | read10 | read16 => 0
  | write6 | write10 | write16 => 1

/-- The first block. -/
def lba (cmnd : Nat → UInt8) : ReadWriteOp → Nat
  | read6 | write6 => bigEndian [cmnd 1 &&& 0x1f, cmnd 2, cmnd 3]
  | read10 | write10 => bigEndian [cmnd 2, cmnd 3, cmnd 4, cmnd 5]
  | read16 | write16 =>
    bigEndian [cmnd 2, cmnd 3, cmnd 4, cmnd 5, cmnd 6, cmnd 7, cmnd 8, cmnd 9]

/-- The number of blocks. -/
def blockCount (cmnd : Nat → UInt8) : ReadWriteOp → Nat
  | read6 | write6 => if cmnd 4 = 0 then 256 else bigEndian [cmnd 4]
  | read10 | write10 => bigEndian [cmnd 7, cmnd 8]
  | read16 | write16 => bigEndian [cmnd 10, cmnd 11, cmnd 12, cmnd 13]

/-- A 6-byte command whose count is written as 0. -/
def CountsZero (cmnd : Nat → UInt8) : ReadWriteOp → Prop
  | read6 | write6 => cmnd 4 = 0
  | _ => False

instance (cmnd : Nat → UInt8) (op : ReadWriteOp) : Decidable (op.CountsZero cmnd) := by
  cases op <;> unfold CountsZero <;> infer_instance

/-- The command addresses a block behind the last one. -/
def Beyond (op : ReadWriteOp) (cmnd : Nat → UInt8) (dp : CoscsiDevice) : Prop :=
  ∃ block, op.lba cmnd ≤ block ∧ block < op.lba cmnd + op.blockCount cmnd ∧ dp.maxLba < block

end ReadWriteOp

/-- What a READ or WRITE is to do. -/
def DoesTransfer (op : ReadWriteOp) (scp : ScsiCmnd) (dp : CoscsiDevice) (r : ScsiResult) : Prop :=
  (op.Beyond scp.cmnd dp → r.ios = [] ∧ r.status = checkCondition) ∧
  (¬op.Beyond scp.cmnd dp → ∃ io, r.ios = [io] ∧
    io.offset = op.lba scp.cmnd * scp.sectorSize.toNat ∧
    io.reqlen = (op.blockCount scp.cmnd * scp.sectorSize.toNat : Nat) ∧ io.write = op.isWrite)

section Decoding

variable {scp : ScsiCmnd}

theorem ScsiCmnd.byte_lt (scp : ScsiCmnd) (i : Nat) : scp.byte i < 2 ^ 8 := (scp.cmnd i).toNat_lt

theorem or_shiftLeft {n b k : Nat} (low : b < 2 ^ 8) (clear : 2 ^ (k + 8) ∣ n) :
    n ||| b <<< k = n + b * 2 ^ k := by
  rw [Nat.shiftLeft_eq, or_eq_add clear]
  rw [Nat.pow_add, Nat.mul_comm (2 ^ k)]
  exact Nat.mul_lt_mul_of_pos_right low (Nat.two_pow_pos k)

/-- The shifted bytes are a number in big-endian order. -/
theorem ScsiCmnd.shifted_eq (scp : ScsiCmnd) (i : Nat) : scp.shifted i =
    bigEndian [scp.cmnd i, scp.cmnd (i + 1), scp.cmnd (i + 2), scp.cmnd (i + 3)] := by
  have h0 := scp.byte_lt i
  have h1 := scp.byte_lt (i + 1)
  have h2 := scp.byte_lt (i + 2)
  have h3 := scp.byte_lt (i + 3)
  unfold ScsiCmnd.shifted
  rw [Nat.shiftLeft_eq, or_shiftLeft h1 (by omega), or_shiftLeft h2 (by omega),
    or_eq_add (k := 8) (by omega) h3]
  simp only [bigEndian, List.foldl_cons, List.foldl_nil]
  show _ = 256 * (256 * (256 * (256 * 0 + scp.byte i) + scp.byte (i + 1)) + scp.byte (i + 2)) +
    scp.byte (i + 3)
  omega

/-- No bit of the address is shifted out in the loop over the bytes behind the first one. -/
theorem ScsiCmnd.lba16_loop (scp : ScsiCmnd) {xs : List Nat} {lba k : Nat} (later : 0 ∉ xs)
    (few : k + xs.length ≤ 8) (small : lba < 2 ^ (8 * k)) :
    xs.foldl (fun lba x => (if x ≠ 0 then lba <<< 8 % 2 ^ 64 else lba) ||| scp.byte (2 + x)) lba =
      xs.foldl (fun lba x => 256 * lba + scp.byte (2 + x)) lba := by
  induction xs generalizing lba k with
  | nil => rfl
  | cons x xs ih =>
    obtain ⟨nonzero, rest⟩ := not_or.mp (mt List.mem_cons.mpr later)
    have byte := scp.byte_lt (2 + x)
    rw [List.length_cons] at few
    have room : lba < 2 ^ 56 :=
      Nat.lt_of_lt_of_le small (Nat.pow_le_pow_right (by decide) (by omega))
    have next : 256 * lba + scp.byte (2 + x) < 2 ^ (8 * (k + 1)) := by
      rw [Nat.mul_succ, Nat.pow_add]
      omega
    have step : lba <<< 8 % 2 ^ 64 ||| scp.byte (2 + x) = 256 * lba + scp.byte (2 + x) := by
      rw [Nat.shiftLeft_eq, Nat.mod_eq_of_lt (by omega), or_eq_add ⟨lba, Nat.mul_comm _ _⟩ byte]
      omega
    rw [List.foldl_cons, List.foldl_cons, if_pos (Ne.symm nonzero), step]
    exact ih rest (by omega) next

theorem ScsiCmnd.lba16_eq (scp : ScsiCmnd) : scp.lba16 =
    bigEndian [scp.cmnd 2, scp.cmnd 3, scp.cmnd 4, scp.cmnd 5, scp.cmnd 6, scp.cmnd 7,
      scp.cmnd 8, scp.cmnd 9] := by
  have range : List.range 8 = 0 :: [1, 2, 3, 4, 5, 6, 7] := rfl
  have first : (if (0 : Nat) ≠ 0 then 0 <<< 8 % 2 ^ 64 else 0) ||| scp.byte 2 = scp.byte 2 :=
    Nat.zero_or _
  unfold ScsiCmnd.lba16
  rw [range, List.foldl_cons, first,
    scp.lba16_loop (k := 1) (by decide) (by decide) (scp.byte_lt 2)]
  simp only [bigEndian, List.foldl_cons, List.foldl_nil, Nat.mul_zero, Nat.zero_add]
  rfl

theorem ScsiCmnd.count10_eq (scp : ScsiCmnd) :
    scp.byte 7 <<< 8 ||| scp.byte 8 = bigEndian [scp.cmnd 7, scp.cmnd 8] := by
  rw [Nat.shiftLeft_eq, or_eq_add (k := 8) (by omega) (scp.byte_lt 8)]
  simp only [bigEndian, List.foldl_cons, List.foldl_nil]
  show _ = 256 * (256 * 0 + scp.byte 7) + scp.byte 8
  omega

theorem ScsiCmnd.lba6_eq (scp : ScsiCmnd) :
    (scp.byte 1 &&& 0x1f) <<< 16 ||| scp.byte 2 <<< 8 ||| scp.byte 3 =
      bigEndian [scp.cmnd 1 &&& 0x1f, scp.cmnd 2, scp.cmnd 3] := by
  have low : (scp.cmnd 1 &&& 0x1f).toNat = scp.byte 1 &&& 0x1f := UInt8.toNat_and _ _
  rw [Nat.shiftLeft_eq, or_shiftLeft (scp.byte_lt 2) (by omega),
    or_eq_add (k := 8) (by omega) (scp.byte_lt 3)]
  simp only [bigEndian, List.foldl_cons, List.foldl_nil, low]
  show _ = 256 * (256 * (256 * 0 + (scp.byte 1 &&& 0x1f)) + scp.byte 2) + scp.byte 3
  omega

/-- The block numbers of the code are those of the encoding, a count of 0 in a 6-byte command
apart. -/
theorem ReadWriteOp.blocks_eq {op : ReadWriteOp} (h : scp.cmnd 0 = op.code) :
    scp.blocks = some (op.lba scp.cmnd,
      if op.CountsZero scp.cmnd then 0xff else op.blockCount scp.cmnd) := by
  have six : (if scp.byte 4 ≠ 0 then scp.byte 4 else 0xff) =
      if scp.cmnd 4 = 0 then 0xff else if scp.cmnd 4 = 0 then 256 else bigEndian [scp.cmnd 4] := by
    by_cases zero : scp.cmnd 4 = 0
    · rw [if_pos zero, ScsiCmnd.byte, zero]
      rfl
    · have positive : scp.byte 4 ≠ 0 := fun none => zero (UInt8.toNat_inj.mp none)
      rw [if_neg zero, if_neg zero, if_pos positive]
      exact (Nat.zero_add _).symm
  cases op with
  | read6 | write6 =>
    simp only [ScsiCmnd.blocks, h, code, scp.lba6_eq, lba, blockCount, CountsZero, six]
  | read10 | write10 =>
    simp only [ScsiCmnd.blocks, h, code, scp.shifted_eq, scp.count10_eq]
    exact congrArg some (Prod.ext rfl (if_neg (t := 0xff) not_false).symm)
  | read16 | write16 =>
    simp only [ScsiCmnd.blocks, h, code, scp.shifted_eq, scp.lba16_eq]
    exact congrArg some (Prod.ext rfl (if_neg (t := 0xff) not_false).symm)

theorem ReadWriteOp.direction_eq {op : ReadWriteOp} (h : scp.cmnd 0 = op.code) :
    (scp.byte 0 &&& 2) >>> 1 = op.isWrite := by
  unfold ScsiCmnd.byte
  rw [h]
  cases op <;> rfl

/-- All six commands go to `read_write`. -/
theorem ReadWriteOp.coscsiQueue_eq {op : ReadWriteOp} (h : scp.cmnd 0 = op.code)
    (other : ScsiCmnd → CoscsiDevice → ScsiResult) (host : ScsiHost) (dp : CoscsiDevice) :
    coscsiQueue other host scp dp = readWrite host scp dp := by
  unfold coscsiQueue
  rw [h]
  cases op <;> rfl

end Decoding

section Transfers

variable {scp : ScsiCmnd} {dp : CoscsiDevice} {host : ScsiHost} {op : ReadWriteOp}

/-- The device is open, or the host opens it. -/
def ScsiHost.Opens (host : ScsiHost) (dp : CoscsiDevice) : Prop :=
  dp.osHandle ≠ 0 ∨ host.openRc = 0

theorem hostOpen_status : (if dp.osHandle = 0 then hostOpen host dp else (0, dp)).1 = 0 ↔
    host.Opens dp := by
  unfold ScsiHost.Opens
  by_cases closed : dp.osHandle = 0
  · rw [if_pos closed, hostOpen, if_neg (not_not.mpr closed)]
    split_ifs with granted
    · exact ⟨fun _ => .inr granted, fun _ => rfl⟩
    · exact ⟨fun none => absurd none granted, fun opens => opens.resolve_left (not_not.mpr closed)⟩
  · rw [if_neg closed]
    exact ⟨fun _ => .inl closed, fun _ => rfl⟩

/-- A transfer that the host takes: one I/O, whatever the host answers to it. -/
theorem readWrite_opens (h : scp.cmnd 0 = op.code) (opens : host.Opens dp) :
    (readWrite host scp dp).ios = [scsiIo scp (op.lba scp.cmnd)
      (if op.CountsZero scp.cmnd then 0xff else op.blockCount scp.cmnd) op.isWrite] := by
  have opened := hostOpen_status.mpr opens
  unfold readWrite
  rw [op.blocks_eq h]
  dsimp only
  rw [op.direction_eq h, hostRw, if_neg (not_not.mpr opened)]
  split_ifs <;> rfl

theorem readWrite_closed (h : scp.cmnd 0 = op.code) (closed : ¬host.Opens dp) :
    (readWrite host scp dp).ios = [] ∧ (readWrite host scp dp).status = checkCondition := by
  have refused := mt hostOpen_status.mp closed
  unfold readWrite
  rw [op.blocks_eq h]
  dsimp only
  rw [hostRw, if_pos refused, if_pos Nat.one_ne_zero]
  exact ⟨rfl, rfl⟩

/-- A product of a number of blocks and a sector size as an `int`. -/
theorem reqlen_eq_iff {num count sectorSize : Nat} :
    ((num * sectorSize : Nat) : Int).bmod wordSize = (count * sectorSize : Nat) ↔
      num * sectorSize % wordSize = count * sectorSize % wordSize ∧
        count * sectorSize < 2 ^ 31 := by
  generalize num * sectorSize = a
  generalize count * sectorSize = b
  rw [Int.bmod_def]
  simp only [wordSize]
  constructor
  · intro same
    split_ifs at same <;> omega
  · rintro ⟨same, small⟩
    split_ifs <;> omega

theorem ReadWriteOp.CountsZero.blockCount_eq (zero : op.CountsZero scp.cmnd) :
    op.blockCount scp.cmnd = 256 := by
  cases op with
  | read6 | write6 => exact if_pos zero
  | read10 | write10 | read16 | write16 => exact zero.elim

/-- The length of the request, given the two ways to read a count of 0. -/
theorem reqlen_blockCount_iff (op : ReadWriteOp) (scp : ScsiCmnd) :
    (scsiIo scp (op.lba scp.cmnd) (if op.CountsZero scp.cmnd then 0xff
        else op.blockCount scp.cmnd) op.isWrite).reqlen =
        (op.blockCount scp.cmnd * scp.sectorSize.toNat : Nat) ↔
      (op.CountsZero scp.cmnd → scp.sectorSize = 0) ∧
        op.blockCount scp.cmnd * scp.sectorSize.toNat < 2 ^ 31 := by
  unfold scsiIo
  dsimp only
  rw [reqlen_eq_iff]
  refine and_congr_left fun small => ?_
  have size : scp.sectorSize = 0 ↔ scp.sectorSize.toNat = 0 := UInt32.toNat_inj.symm
  by_cases zero : op.CountsZero scp.cmnd
  · rw [zero.blockCount_eq] at small ⊢
    rw [if_pos zero, size]
    constructor
    · intro same _
      simp only [wordSize] at same
      omega
    · intro none
      rw [none zero]
  · rw [if_neg zero]
    exact ⟨fun _ counts => absurd counts zero, fun _ => rfl⟩

/-- A READ or WRITE does what it is to do exactly when it stays on the medium and no product
wraps, or is kept from the host because the device cannot be opened. -/
theorem readWrite_doesTransfer_iff (h : scp.cmnd 0 = op.code) :
    DoesTransfer op scp dp (readWrite host scp dp) ↔
      (op.Beyond scp.cmnd dp → ¬host.Opens dp) ∧
      (¬op.Beyond scp.cmnd dp → host.Opens dp ∧
        (op.CountsZero scp.cmnd → scp.sectorSize = 0) ∧
        op.lba scp.cmnd * scp.sectorSize.toNat < 2 ^ 64 ∧
        op.blockCount scp.cmnd * scp.sectorSize.toNat < 2 ^ 31) := by
  by_cases opens : host.Opens dp
  · have issued := readWrite_opens h opens
    refine and_congr (imp_congr_right fun _ => ?_) (imp_congr_right fun _ => ?_)
    · rw [issued]
      exact ⟨fun kept => (nomatch kept.1), fun closed => absurd opens closed⟩
    · rw [issued]
      constructor
      · rintro ⟨io, same, offset, reqlen, -⟩
        obtain rfl := (List.cons.inj same).1
        have fits : op.lba scp.cmnd * scp.sectorSize.toNat < 2 ^ 64 := by
          rw [← offset]
          exact Nat.mod_lt _ (by decide)
        obtain ⟨counts, small⟩ := (reqlen_blockCount_iff op scp).mp reqlen
        exact ⟨opens, counts, fits, small⟩
      · rintro ⟨-, counts, fits, small⟩
        exact ⟨_, rfl, Nat.mod_eq_of_lt fits, (reqlen_blockCount_iff op scp).mpr ⟨counts, small⟩,
          rfl⟩
  · have refused := @readWrite_closed scp dp host op h opens
    refine and_congr (imp_congr_right fun _ => ?_) (imp_congr_right fun _ => ?_)
    · exact ⟨fun _ => opens, fun _ => refused⟩
    · rw [refused.1]
      constructor
      · rintro ⟨io, same, -⟩
        cases same
      · rintro ⟨opened, -⟩
        exact absurd opened opens

/-- A host with an open disk of one sector of 512 bytes, whose size was read. -/
def oneSectorHost : ScsiHost := ⟨0, 7, 0, 0, 512⟩

/-- READ(10) of one block. -/
def readBlock (block : UInt8) : ScsiCmnd where
  scp := 0xc1000000
  cmnd := fun i => if i = 0 then 0x28 else if i = 5 then block else if i = 8 then 1 else 0
  sectorSize := 512
  sg := 0xc1001000
  count := 1

def oneSectorDisk : CoscsiDevice := (hostSize oneSectorHost (readBlock 0) ⟨0, 0, 0, 0, 0, 0⟩).2

theorem readWrite_doesTransfer_iff_firstBlock :
    DoesTransfer .read10 (readBlock 0) oneSectorDisk
        (readWrite oneSectorHost (readBlock 0) oneSectorDisk) ↔
      (ReadWriteOp.read10.Beyond (readBlock 0).cmnd oneSectorDisk →
        ¬oneSectorHost.Opens oneSectorDisk) ∧
      (¬ReadWriteOp.read10.Beyond (readBlock 0).cmnd oneSectorDisk →
        oneSectorHost.Opens oneSectorDisk ∧
        (ReadWriteOp.read10.CountsZero (readBlock 0).cmnd → (512 : UInt32) = 0) ∧
        0 * 512 < 2 ^ 64 ∧ 1 * 512 < 2 ^ 31) :=
  @readWrite_doesTransfer_iff (readBlock 0) oneSectorDisk oneSectorHost .read10 rfl

/-- A READ of the sixth block of that disk goes to the host. -/
theorem readBehindEnd_issued :
    ReadWriteOp.read10.Beyond (readBlock 5).cmnd oneSectorDisk ∧
      (readWrite oneSectorHost (readBlock 5) oneSectorDisk).ios.map CoScsiIo.offset = [2560] ∧
      ¬DoesTransfer .read10 (readBlock 5) oneSectorDisk
        (readWrite oneSectorHost (readBlock 5) oneSectorDisk) := by
  have beyond : ReadWriteOp.read10.Beyond (readBlock 5).cmnd oneSectorDisk :=
    ⟨5, by decide, by decide, by decide⟩
  refine ⟨beyond, by decide, ?_⟩
  intro does
  exact absurd (does.1 beyond).1 (by decide)

end Transfers

end CoLinux
