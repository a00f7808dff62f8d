import CoLinux.Winnt.BlockTransfer
import CoLinux.Winnt.ScsiList
import CoLinux.Winnt.ScsiMoved

/-!
# The answer of a SCSI transfer

When `_scsi_dio` reports that a request was done, its residual counts what the running offset does
not. The results say for which answers of the host that is what was left, and that a list that
cannot be read stays allocated.
-/

namespace CoLinux

open Lib

/-- Nothing refuses a list: the bound checks let its entries through, every page is in an allocated
group, and `co_status_convert` takes no status of a piece for a failure. -/
structure ListAccepted (w : World) (host : Nat → IoAnswer) (k : Nat) (entries : List SgEntry) :
    Prop where
  ranges : ∀ e ∈ entries, TransferInBounds w.monitor.endPhysical e.address e.length ∧
    ∀ i < e.length, HasGroup w (e.address + i)
  statuses : ∀ p ∈ sgPieces w host k entries, coStatusConvert p.answer.status = .ok

/-! ## The loop over the entries -/

section Entries

variable {host : Nat → IoAnswer} {dir : TransferDir} {w : World}

theorem hasGroup_setMem (m : ByteMem) (address : Nat) :
    HasGroup (w.setMem m) address ↔ HasGroup w address := by
  rw [HasGroup, HasGroup, setMem_monitor]

theorem filePieces_setMem (m : ByteMem) (k vaddr size : Nat) :
    filePieces (w.setMem m) host k vaddr size = filePieces w host k vaddr size := by
  simp only [filePieces, guestAddress_setMem]

theorem entry_ok_iff (e : SgEntry) (data : FileIo) (m : ByteMem) :
    (coMonitorHostLinuxvmTransfer (scsiTransferFileBlock host dir) e.address e.length data
        (w.setMem m)).1 = .ok ↔
      (TransferInBounds w.monitor.endPhysical e.address e.length ∧
        ∀ i < e.length, HasGroup w (e.address + i)) ∧
      ∀ p ∈ filePieces w host data.calls.length e.address e.length,
        coStatusConvert p.answer.status = .ok := by
  by_cases bounds : TransferInBounds (w.setMem m).monitor.endPhysical e.address e.length
  · rw [coMonitorHostLinuxvmTransfer_inBounds e.address_lt bounds, scsiTransferFileBlock_eq,
      fileWalk_ok_iff e.address_lt]
    simp only [hasGroup_setMem, filePieces_setMem]
    rw [setMem_monitor] at bounds
    exact ⟨fun h => ⟨⟨bounds, h.1⟩, h.2⟩, fun h => ⟨h.1.2, h.2⟩⟩
  · rw [coMonitorHostLinuxvmTransfer, if_neg bounds]
    exact ⟨fun ok => absurd ok (by simp), fun h => absurd h.1.1 bounds⟩

theorem entry_calls {e : SgEntry} {data : FileIo} {m : ByteMem} {r : Step (Transfer FileIo)}
    (hr : coMonitorHostLinuxvmTransfer (scsiTransferFileBlock host dir) e.address e.length data
      (w.setMem m) = r) (ok : r.1 = .ok) :
    r.2.hostData.calls = data.calls ++ callsFrom onSuccess data.offset
        (filePieces w host data.calls.length e.address e.length) ∧
      r.2.hostData.offset = offsetAfter onSuccess data.offset
        (filePieces w host data.calls.length e.address e.length) := by
  subst hr
  have bounds : TransferInBounds (w.setMem m).monitor.endPhysical e.address e.length :=
    ((entry_ok_iff e data m).mp ok).1.1
  rw [coMonitorHostLinuxvmTransfer_inBounds e.address_lt bounds, scsiTransferFileBlock_eq] at ok ⊢
  have made := fileWalk_calls e.address_lt ok rfl
  rwa [filePieces_setMem] at made

namespace ScsiDio

@[simp] theorem withEntry_ledger (e : SgEntry) (r : Transfer FileIo) (s : ScsiDio) :
    (s.withEntry e r).ledger = s.ledger := by
  rw [withEntry]

@[simp] theorem withEntry_sent (e : SgEntry) (r : Transfer FileIo) (s : ScsiDio) :
    (s.withEntry e r).sent = s.sent := by
  rw [withEntry]

@[simp] theorem withEntry_data (e : SgEntry) (r : Transfer FileIo) (s : ScsiDio) :
    (s.withEntry e r).data = r.hostData := by
  rw [withEntry]

theorem withEntry_world {e : SgEntry} {r : Transfer FileIo} {s : ScsiDio} {m : ByteMem}
    (hw : s.world = w.setMem m) : (s.withEntry e r).world = w.setMem r.mem := by
  rw [withEntry, hw, setMem_setMem]

theorem transferEntries_kept (entries : List SgEntry) (s : ScsiDio) :
    (transferEntries host dir entries s).2.ledger = s.ledger ∧
      (transferEntries host dir entries s).2.sent = s.sent := by
  induction entries generalizing s with
  | nil => exact ⟨rfl, rfl⟩
  | cons e entries ih =>
    rw [transferEntries]
    generalize coMonitorHostLinuxvmTransfer (scsiTransferFileBlock host dir) e.address e.length
      s.data s.world = r
    by_cases ok : r.1 = .ok
    · rw [if_pos ok, (ih _).1, (ih _).2, withEntry_ledger, withEntry_sent]
      exact ⟨rfl, rfl⟩
    · rw [if_neg ok, withEntry_ledger, withEntry_sent]
      exact ⟨rfl, rfl⟩

theorem transferEntries_ok_iff (entries : List SgEntry) {s : ScsiDio} {m : ByteMem}
    (hw : s.world = w.setMem m) :
    (transferEntries host dir entries s).1 = .ok ↔
      ListAccepted w host s.data.calls.length entries := by
  induction entries generalizing s m with
  | nil =>
    refine ⟨fun _ => ⟨fun e he => ?_, fun p hp => ?_⟩, fun _ => rfl⟩
    · exact absurd he List.not_mem_nil
    · exact absurd hp List.not_mem_nil
  | cons e entries ih =>
    rw [transferEntries, hw]
    have accepts := @entry_ok_iff host dir w e s.data m
    have calls := @entry_calls host dir w e s.data m
    generalize coMonitorHostLinuxvmTransfer (scsiTransferFileBlock host dir) e.address e.length
      s.data (w.setMem m) = r at accepts calls
    by_cases ok : r.1 = .ok
    · rw [if_pos ok, ih (withEntry_world hw), withEntry_data]
      obtain ⟨first, statuses⟩ := accepts.mp ok
      have count : r.2.hostData.calls.length = s.data.calls.length +
          (filePieces w host s.data.calls.length e.address e.length).length := by
        rw [(calls rfl ok).1, List.length_append, callsFrom_length]
      constructor
      · rintro ⟨ranges, later⟩
        refine ⟨List.forall_mem_cons.mpr ⟨first, ranges⟩, ?_⟩
        rw [sgPieces]
        refine List.forall_mem_append.mpr ⟨statuses, ?_⟩
        rwa [← count]
      · rintro ⟨ranges, all⟩
        rw [sgPieces] at all
        refine ⟨(List.forall_mem_cons.mp ranges).2, ?_⟩
        rw [← count] at all
        exact (List.forall_mem_append.mp all).2
    · rw [if_neg ok]
      obtain ⟨rc, moved⟩ := r
      refine ⟨fun done => absurd done ok, ?_⟩
      rintro ⟨ranges, all⟩
      rw [sgPieces] at all
      exact absurd (accepts.mpr ⟨(List.forall_mem_cons.mp ranges).1,
        (List.forall_mem_append.mp all).1⟩) ok

/-- A loop that succeeds has made the calls for all pieces. -/
theorem transferEntries_calls (entries : List SgEntry) {s : ScsiDio} {m : ByteMem}
    (hw : s.world = w.setMem m) (ok : (transferEntries host dir entries s).1 = .ok) :
    (transferEntries host dir entries s).2.data.calls = s.data.calls ++
        callsFrom onSuccess s.data.offset (sgPieces w host s.data.calls.length entries) ∧
      (transferEntries host dir entries s).2.data.offset =
        offsetAfter onSuccess s.data.offset (sgPieces w host s.data.calls.length entries) ∧
      asInt (transferEntries host dir entries s).2.bytesReq =
        asInt (s.bytesReq + (sgBytes entries).length) := by
  induction entries generalizing s m with
  | nil =>
    have bytes : ((sgBytes []).length : Int) = 0 := rfl
    rw [transferEntries, sgPieces, bytes, Int.add_zero]
    exact ⟨(List.append_nil _).symm, rfl, rfl⟩
  | cons e entries ih =>
    rw [transferEntries, hw] at ok ⊢
    have calls := @entry_calls host dir w e s.data m
    generalize coMonitorHostLinuxvmTransfer (scsiTransferFileBlock host dir) e.address e.length
      s.data (w.setMem m) = r at ok calls
    by_cases first : r.1 = .ok
    · rw [if_pos first] at ok ⊢
      obtain ⟨later, offset, bytes⟩ := ih (withEntry_world hw) ok
      obtain ⟨made, moved⟩ := calls rfl first
      rw [sgPieces, later, offset, bytes, withEntry_data]
      refine ⟨?_, ?_, ?_⟩
      · simp only [made, moved, List.append_assoc, callsFrom_append, List.length_append,
          callsFrom_length]
      · simp only [made, moved, offsetAfter_append, List.length_append, callsFrom_length]
      · have length : (sgBytes (e :: entries)).length = e.length + (sgBytes entries).length := by
          simp [sgBytes_cons]
        simp only [withEntry, length, asInt, Int.bmod_add_bmod, Int.natCast_add, Int.add_assoc]
    · rw [if_neg first] at ok
      obtain ⟨rc, moved⟩ := r
      exact absurd ok first

end ScsiDio

end Entries

/-! ## The residual -/

theorem offsetAfter_claimed {offset : Nat} (ps : List FilePiece) (ho : offset < quadSize) :
    offsetAfter onSuccess offset ps = (offset + claimed ps) % quadSize := by
  induction ps generalizing offset with
  | nil => exact (Nat.mod_eq_of_lt ho).symm
  | cons p ps ih =>
    have first : offsetAfter onSuccess offset (p :: ps) = offsetAfter onSuccess
        (if onSuccess p.answer.status then (offset + p.size) % quadSize else offset) ps := rfl
    rw [first, claimed]
    by_cases success : p.answer.status = .success
    · rw [if_pos (decide_eq_true success), if_pos success, ih (Nat.mod_lt _ (by decide)),
        Nat.mod_add_mod, Nat.add_assoc]
    · rw [if_neg (by simpa using success), if_neg success, ih ho, Nat.zero_add]

/-- A difference in `int`s does not see whole turns of the offset. -/
theorem bmod_residual {word : Nat} {bytesReq total : Int} {later offset count turns : Nat}
    (bytes : Int.bmod bytesReq word = Int.bmod total word)
    (h : later + word * turns = offset + count) :
    Int.bmod (bytesReq - Int.bmod (later - offset) word) word =
      Int.bmod (total - count) word := by
  have moved : bytesReq - ((later : Int) - offset) = bytesReq - count + word * turns := by
    rw [← Int.natCast_mul]
    omega
  rw [Int.sub_bmod_bmod, moved, Int.add_mul_bmod_self_left, ← Int.bmod_sub_bmod, bytes,
    Int.bmod_sub_bmod]

/-- The residual is what the running offset did not count, as an `int`. -/
theorem residual_eq {offset total : Nat} {bytesReq : Int} {ps : List FilePiece}
    (ho : offset < quadSize) (bytes : asInt bytesReq = asInt total) :
    asInt (bytesReq - asInt (offsetAfter onSuccess offset ps - offset)) =
      asInt (total - claimed ps) := by
  rw [offsetAfter_claimed ps ho]
  have quad : quadSize = wordSize * wordSize := by decide
  have turns : (offset + claimed ps) % quadSize +
      wordSize * (wordSize * ((offset + claimed ps) / quadSize)) = offset + claimed ps := by
    rw [← Nat.mul_assoc, ← quad]
    exact Nat.mod_add_div _ _
  exact bmod_residual bytes turns

/-- A count that is stored in an `int` loses whole words, and none below 2^31. -/
theorem asInt_natCast (u : Nat) :
    ∃ m : Nat, asInt u = u - m * wordSize ∧ (m = 0 ↔ u < 2147483648) := by
  refine ⟨(u + 2147483648) / 4294967296, ?_, by omega⟩
  rw [asInt, Int.bmod_def]
  simp only [wordSize]
  omega

/-- What the running offset counts is what has moved, in the file and to pages of the guest, and
the rest fits in an `int`. -/
structure ResidualExact (w : World) (entries : List SgEntry) (offset : Nat)
    (pieces : List FilePiece) : Prop where
  residual : Residual pieces
  fits : (sgBytes entries).length - claimed pieces < 2147483648
  located : ∀ k < claimed pieces,
    offset + k < maxFileOffset ∧ HasFrame w ((sgBytes entries).getD k 0)

theorem movedFirst_iff {w : World} {host : Nat → IoAnswer} {entries : List SgEntry}
    {offset m : Nat} (ho : offset < quadSize) :
    MovedFirst w entries offset (claimed (sgPieces w host 0 entries) + m * wordSize)
        (callsFrom onSuccess offset (sgPieces w host 0 entries)) ↔
      (claimed (sgPieces w host 0 entries) + m * wordSize ≤ (sgBytes entries).length ∧
        ∀ k < claimed (sgPieces w host 0 entries) + m * wordSize,
          offset + k < maxFileOffset ∧ HasFrame w ((sgBytes entries).getD k 0)) ∧
        Residual (sgPieces w host 0 entries) ∧ m = 0 := by
  obtain ⟨slotted, -, sizes⟩ := @sgPieces_spec w host
    (fun k => w.guestAddress ((sgBytes entries).getD k 0)) 0 0 entries
    fun i _ => by rw [Nat.zero_add]
  rw [← exact_claimed fun p hp => (sizes p hp).2]
  generalize claimed (sgPieces w host 0 entries) + m * wordSize = n
  have exact_iff (inFile : ∀ k < n, offset + k < maxFileOffset) := @movedBytes_exact _ offset 0 n _
    slotted (fun p hp => (sizes p hp).1) fun k hk => by
      rw [Nat.zero_add]
      exact inFile k hk
  have places : inPlace (fun k => w.guestAddress ((sgBytes entries).getD k 0)) offset 0 n =
      (List.range n).map fun k =>
        ⟨k, w.guestAddress ((sgBytes entries).getD k 0), offset + k⟩ := by
    simp only [inPlace, Nat.zero_add]
  rw [Nat.add_zero, Nat.mod_eq_of_lt ho, places] at exact_iff
  constructor
  · rintro ⟨le, located, moved⟩
    exact ⟨⟨le, located⟩, (exact_iff fun k hk => (located k hk).1).mp moved⟩
  · rintro ⟨⟨le, located⟩, same⟩
    exact ⟨le, located, (exact_iff fun k hk => (located k hk).1).mpr same⟩

/-- The reported residual is right. -/
theorem residual_iff {w : World} {host : Nat → IoAnswer} {entries : List SgEntry} {offset : Nat}
    (ho : offset < quadSize) :
    (∃ n : Nat, (n : Int) = (sgBytes entries).length -
        asInt ((sgBytes entries).length - claimed (sgPieces w host 0 entries)) ∧
      MovedFirst w entries offset n (callsFrom onSuccess offset (sgPieces w host 0 entries))) ↔
      ResidualExact w entries offset (sgPieces w host 0 entries) := by
  obtain ⟨-, total, -⟩ := @sgPieces_spec w host
    (fun k => w.guestAddress ((sgBytes entries).getD k 0)) 0 0 entries
    fun i _ => by rw [Nat.zero_add]
  have le := claimed_le (sgPieces w host 0 entries)
  rw [total] at le
  obtain ⟨m, residual, fits⟩ :=
    asInt_natCast ((sgBytes entries).length - claimed (sgPieces w host 0 entries))
  rw [Int.natCast_sub le] at residual
  have count (n : Nat) : (n : Int) = (sgBytes entries).length -
      asInt ((sgBytes entries).length - claimed (sgPieces w host 0 entries)) ↔
      n = claimed (sgPieces w host 0 entries) + m * wordSize := by
    rw [residual]
    omega
  simp only [count, exists_eq_left, movedFirst_iff ho]
  constructor
  · rintro ⟨⟨-, located⟩, exact, none⟩
    subst none
    exact ⟨exact, fits.mp rfl, by simpa using located⟩
  · rintro ⟨exact, small, located⟩
    have none := fits.mpr small
    subst none
    exact ⟨⟨by simpa using le, by simpa using located⟩, exact, rfl⟩

/-! ## The request -/

section Request

variable {layout : ScatterlistLayout} {host : Nat → IoAnswer} {heap : ByteMem} {unit : Nat}
  {w : World} {backing : ByteMem} {io : CoScsiIo}

theorem starting_released :
    ((⟨[.slot, .workItem], []⟩ : Ledger ScsiResource).release .workItem).release .slot =
      Ledger.empty := by
  decide

/-- A request that is answered with an error has nothing to say about its bytes. -/
theorem ioDone_sound {r : Step ScsiDio} (sent : r.2.sent = []) (failed : r.1 ≠ .ok) :
    DioSound layout w unit io (ScsiDio.ioDone unit io r) ↔
      (r.2.ledger.release .workItem).release .slot = Ledger.empty := by
  have answer : (ScsiDio.ioDone unit io r).sent = [⟨unit, io.scp, 1,
      asInt (r.2.bytesReq - asInt (r.2.data.offset - io.offset))⟩] := by
    rw [ScsiDio.ioDone, sent, if_neg failed]
    rfl
  refine ⟨fun sound => sound.released, fun released => ⟨⟨_, _, answer⟩, released, ?_⟩⟩
  intro delta h
  rw [answer] at h
  exact absurd (congrArg (List.map ScsiIntr.result) h) (by simp)

/-- What `_scsi_dio` does once the list is copied. -/
theorem scsiDio_copied (hsg : io.sg < wordSize) (readable : SgListReadable layout io w) :
    ∃ (dir : TransferDir) (s : ScsiDio) (m : ByteMem), s.world = w.setMem m ∧
      s.data = ⟨backing, io.offset, []⟩ ∧ s.bytesReq = 0 ∧ s.sent = [] ∧
      s.ledger = (⟨[.slot, .workItem], []⟩ : Ledger ScsiResource).acquire .sgBuf ∧
      ScsiDio.scsiDio layout host true heap unit io (.start w backing io) =
        let r := ScsiDio.transferEntries host dir (sgSeen layout heap io w) s
        ScsiDio.ioDone unit io (r.1, r.2.release .sgBuf) := by
  refine ⟨if io.write ≠ 0 then .fromLinux else .fromHost,
    { ScsiDio.start w backing io with
      world := (ScsiDio.copyList layout heap io w).2.1
      ledger := (ScsiDio.start w backing io).ledger.acquire .sgBuf },
    (coMonitorHostLinuxvmTransfer (coMonitorTransferMemcpy .fromLinux) io.sg
      (io.count * layout.size % wordSize) ⟨heap, 0⟩ w).2.mem, ?_, rfl, rfl, rfl, rfl, ?_⟩
  · simp only [ScsiDio.copyList, coMonitorLinuxvmToHost]
  · rw [ScsiDio.scsiDio, if_pos rfl, ← copyList_entries hsg readable]
    exact if_pos ((copyList_ok_iff hsg).mpr readable)

/-- A list that cannot be read is answered, and stays allocated. -/
theorem scsiDio_unreadable (hsg : io.sg < wordSize) (unreadable : ¬SgListReadable layout io w) :
    (ScsiDio.scsiDio layout host true heap unit io (.start w backing io)).ledger =
      ⟨[.sgBuf], []⟩ := by
  have failed : (ScsiDio.copyList layout heap io (ScsiDio.start w backing io).world).1 ≠ .ok :=
    fun ok => unreadable ((copyList_ok_iff hsg).mp ok)
  rw [ScsiDio.scsiDio, if_pos rfl]
  simp only [if_neg failed]
  rfl

/-- The answer behind the loop over the entries, which are those of the guest if the guest's memory
has all of the list. -/
theorem transferred_sound_iff {dir : TransferDir} {entries : List SgEntry} {s : ScsiDio}
    {m : ByteMem} (world : s.world = w.setMem m) (data : s.data = ⟨backing, io.offset, []⟩)
    (bytes : s.bytesReq = 0) (sent : s.sent = [])
    (ledger : s.ledger = (⟨[.slot, .workItem], []⟩ : Ledger ScsiResource).acquire .sgBuf)
    (ho : io.offset < quadSize) (seen : SgListInGuest layout io w → entries = sgList layout io w)
    {rc : CoRc} {after : ScsiDio}
    (hr : ScsiDio.transferEntries host dir entries s = (rc, after)) :
    DioSound layout w unit io (ScsiDio.ioDone unit io (rc, after.release .sgBuf)) ↔
      (ListAccepted w host 0 entries → SgListInGuest layout io w ∧
        ResidualExact w (sgList layout io w) io.offset
          (sgPieces w host 0 (sgList layout io w))) := by
  have kept := @ScsiDio.transferEntries_kept host dir entries s
  have accepted := @ScsiDio.transferEntries_ok_iff host dir w entries s m world
  have calls := @ScsiDio.transferEntries_calls host dir w entries s m world
  rw [hr] at kept accepted calls
  rw [data] at accepted calls
  have sent : (after.release .sgBuf).sent = [] := kept.2.trans sent
  have released : ((after.release .sgBuf).ledger.release .workItem).release .slot =
      Ledger.empty := by
    rw [ScsiDio.release, kept.1, ledger, Ledger.release_acquire]
    exact starting_released
  by_cases ok : rc = .ok
  · have accepted := accepted.mp ok
    obtain ⟨made, offset, total⟩ := calls ok
    rw [bytes, Int.zero_add] at total
    have answer : (ScsiDio.ioDone unit io (rc, after.release .sgBuf)).sent = [⟨unit, io.scp, 0,
        asInt ((sgBytes entries).length - claimed (sgPieces w host 0 entries))⟩] := by
      rw [← residual_eq ho total, ScsiDio.ioDone, sent, if_pos ok, ScsiDio.release, offset]
      rfl
    have made : (ScsiDio.ioDone unit io (rc, after.release .sgBuf)).data.calls =
        callsFrom onSuccess io.offset (sgPieces w host 0 entries) := by
      rw [ScsiDio.ioDone, ScsiDio.release, made]
      rfl
    constructor
    · rintro sound -
      obtain ⟨inGuest, moved⟩ := sound.moved _ answer
      have same := seen inGuest
      subst same
      rw [made] at moved
      exact ⟨inGuest, (residual_iff ho).mp moved⟩
    · intro condition
      obtain ⟨inGuest, exact⟩ := condition accepted
      have same := seen inGuest
      subst same
      refine ⟨⟨_, _, answer⟩, released, fun delta h => ⟨inGuest, ?_⟩⟩
      rw [answer] at h
      have delta := congrArg (List.map ScsiIntr.delta) h
      simp only [List.map_cons, List.map_nil, List.cons.injEq, and_true] at delta
      rw [← delta, made]
      exact (residual_iff ho).mpr exact
  · rw [ioDone_sound sent ok]
    exact ⟨fun _ h => absurd (accepted.mpr h) ok, fun _ => released⟩

end Request

/-! ## Whole answers -/

/-- A host that moves everything leaves no residual. -/
theorem residualExact_wholeAnswers {w : World} {entries : List SgEntry} {offset : Nat}
    (located : ∀ k < (sgBytes entries).length,
      offset + k < maxFileOffset ∧ HasFrame w ((sgBytes entries).getD k 0)) :
    ResidualExact w entries offset (sgPieces w wholeAnswers 0 entries) := by
  obtain ⟨-, total, sizes⟩ := @sgPieces_spec w wholeAnswers
    (fun k => w.guestAddress ((sgBytes entries).getD k 0)) 0 0 entries
    fun i _ => by rw [Nat.zero_add]
  have whole : ∀ p ∈ sgPieces w wholeAnswers 0 entries,
      p.answer.status = .success ∧ p.count = p.size := by
    intro p hp
    obtain ⟨j, answer⟩ := sgPieces_answer hp
    refine ⟨by rw [answer]; rfl, ?_⟩
    rw [FilePiece.count, answer]
    exact Nat.min_eq_right (Nat.le_trans (sizes p hp).2 (show 4096 ≤ wordSize by decide))
  rw [← claimed_eq_totalSize fun p hp => (whole p hp).1] at total
  refine ⟨residual_of_whole whole, ?_, ?_⟩
  · rw [total, Nat.sub_self]
    decide
  · rw [total]
    exact located

/-- A `struct scatterlist` of an address and a length. -/
def twoWords : ScatterlistLayout := ⟨8, 4, 0, by decide, by decide⟩

/-- A guest with a list of three entries across the end of its first page: 32 bytes across the end
of the second page, 16 at the start of the first and 8 in its middle. -/
def sgGuest : World :=
  threePageGuest.setMem <|
    (ByteMem.writeWords (fun _ => 0) (threePageGuest.guestAddress 0xc0000ff0) 4 fun
      | 0 => 0x1ff0
      | 1 => 32
      | 2 => 0
      | _ => 16).writeWords (threePageGuest.guestAddress 0xc0001000) 2 fun
      | 0 => 0x800
      | _ => 8

def readList : CoScsiIo := ⟨7, 512, 0xc0000ff0, 3, 56, 0⟩

theorem sgGuest_list :
    sgList twoWords readList sgGuest = [⟨0x1ff0, 32⟩, ⟨0, 16⟩, ⟨0x800, 8⟩] := by
  decide +kernel

theorem sgGuest_frames (i : Nat) (hi : i < 4128) : HasFrame sgGuest (0xc0000ff0 + i) := by
  rw [sgGuest, HasFrame, setMem_ppPfn, Nat.mod_eq_of_lt (by simp only [wordSize]; omega)]
  exact threePageGuest_range.frames i hi

end CoLinux
