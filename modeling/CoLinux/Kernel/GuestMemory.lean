import CoLinux.Kernel.TransferSafety

/-!
# Guest memory as bytes

A byte of guest memory is a byte of the frame recorded for its page. Writing a range with
either of the two writers and reading it with `co_monitor_linuxvm_to_host` is a round trip:
each of the three walks handles the bytes of the range in order, one page after the other.
-/

namespace CoLinux

open Lib

/-- Where host memory keeps the guest byte at `address`. -/
def World.guestAddress (w : World) (address : Nat) : Nat :=
  w.ppPfn (address / coArchPageSize) * coArchPageSize + address % coArchPageSize

/-- The byte at a guest virtual address, read through `pp_pfns`. -/
def World.guestByte (w : World) (address : Nat) : UInt8 := w.mem (w.guestAddress address)

/-- No frame is recorded for two pages. -/
def DistinctFrames (w : World) : Prop :=
  ∀ p q, w.ppPfn p ≠ 0 → w.ppPfn p = w.ppPfn q → p = q

/-- A range of guest RAM that starts inside of it and has a frame for every page. -/
structure MappedRange (w : World) (vaddr size : Nat) : Prop where
  low : coArchKernelOffset ≤ vaddr
  start : vaddr < w.monitor.endPhysical
  high : vaddr + size ≤ w.monitor.endPhysical
  top : w.monitor.endPhysical < wordSize
  frames : ∀ i < size, w.ppPfn ((vaddr + i) / coArchPageSize) ≠ 0

/-- `w'` is `w` with the bytes `src 0, src 1, ...` stored in the guest's range, and with nothing
else changed. -/
structure GuestWritten (w w' : World) (vaddr size : Nat) (src : Nat → UInt8) : Prop where
  others : w' = w.setMem w'.mem
  written : ∀ i < size, w'.guestByte (vaddr + i) = src i
  frame : ∀ x, (∀ i < size, x ≠ w.guestAddress (vaddr + i)) → w'.mem x = w.mem x

variable {w w' : World} {vaddr size : Nat} {src : Nat → UInt8}

theorem MappedRange.bounds (h : MappedRange w vaddr size) : vaddr + size ≤ wordSize :=
  Nat.le_trans h.high (Nat.le_of_lt h.top)

theorem MappedRange.vaddr_lt (h : MappedRange w vaddr size) : vaddr < wordSize :=
  Nat.lt_trans h.start h.top

/-- The bound checks let the range through. -/
theorem MappedRange.inBounds (h : MappedRange w vaddr size) :
    TransferInBounds w.monitor.endPhysical vaddr size := by
  obtain ⟨low, start, high, top, -⟩ := h
  unfold TransferInBounds
  simp only [coArchKernelOffset, wordSize] at *
  omega

/-- The pages of a piece of a range have frames. -/
theorem frames_piece {o n : Nat} (frames : ∀ i < size, w.ppPfn ((vaddr + i) / coArchPageSize) ≠ 0)
    (lo : vaddr ≤ o) (up : o + n ≤ vaddr + size) :
    ∀ i < n, w.ppPfn ((o + i) / coArchPageSize) ≠ 0 := by
  intro i hi
  rw [show o + i = vaddr + (o - vaddr + i) by omega]
  exact frames _ (by omega)

theorem guestAddress_setMem (w : World) (m : ByteMem) :
    (w.setMem m).guestAddress = w.guestAddress := rfl

theorem GuestWritten.guestAddress (h : GuestWritten w w' vaddr size src) :
    w'.guestAddress = w.guestAddress := by
  rw [h.others, guestAddress_setMem]

theorem GuestWritten.ppPfn (h : GuestWritten w w' vaddr size src) : w'.ppPfn = w.ppPfn := by
  rw [h.others, setMem_ppPfn]

theorem GuestWritten.monitor (h : GuestWritten w w' vaddr size src) : w'.monitor = w.monitor := by
  rw [h.others, setMem_monitor]

theorem DistinctFrames.guestAddress_inj (distinct : DistinctFrames w) {a b : Nat}
    (frame : w.ppPfn (a / coArchPageSize) ≠ 0) (h : w.guestAddress a = w.guestAddress b) :
    a = b := by
  unfold World.guestAddress at h
  have same : w.ppPfn (a / coArchPageSize) = w.ppPfn (b / coArchPageSize) := by
    simp only [coArchPageSize] at *
    omega
  have page := distinct _ _ frame same
  simp only [coArchPageSize] at *
  omega

/-- The addresses of a piece of a page are consecutive in host memory. -/
theorem guestAddress_piece (w : World) {n i : Nat} (inPage : vaddr % 4096 + n ≤ 4096)
    (hi : i < n) : w.guestAddress (vaddr + i) = w.guestAddress vaddr + i := by
  unfold World.guestAddress
  rw [show (vaddr + i) / coArchPageSize = vaddr / coArchPageSize by
    simp only [coArchPageSize]; omega]
  simp only [coArchPageSize]
  omega

/-- Bytes outside of the range are kept. -/
theorem GuestWritten.outside (h : GuestWritten w w' vaddr size src) (distinct : DistinctFrames w)
    (frames : ∀ i < size, w.ppPfn ((vaddr + i) / coArchPageSize) ≠ 0) {a : Nat}
    (ha : a < vaddr ∨ vaddr + size ≤ a) : w'.guestByte a = w.guestByte a := by
  rw [World.guestByte, h.guestAddress]
  apply h.frame
  intro i hi same
  have := distinct.guestAddress_inj (frames i hi) same.symm
  omega

theorem GuestWritten.refl (w : World) (vaddr : Nat) (src : Nat → UInt8) :
    GuestWritten w w vaddr 0 src :=
  ⟨rfl, fun i hi => absurd hi (Nat.not_lt_zero i), fun _ _ => rfl⟩

/-- Two writes, the second right behind the first. -/
theorem GuestWritten.append {w'' : World} {n : Nat} (distinct : DistinctFrames w)
    (frames : ∀ i < n, w.ppPfn ((vaddr + size + i) / coArchPageSize) ≠ 0)
    (h : GuestWritten w w' vaddr size src)
    (h' : GuestWritten w' w'' (vaddr + size) n fun i => src (size + i)) :
    GuestWritten w w'' vaddr (size + n) src := by
  have address : w''.guestAddress = w.guestAddress := h'.guestAddress.trans h.guestAddress
  refine ⟨?_, fun i hi => ?_, fun x hx => ?_⟩
  · rw [h'.others, h.others]
    rfl
  · by_cases first : i < size
    · rw [← h.written i first, World.guestByte, address, World.guestByte, h.guestAddress]
      apply h'.frame
      intro j hj same
      rw [h.guestAddress] at same
      have := distinct.guestAddress_inj (frames j hj) same.symm
      omega
    · have second := h'.written (i - size) (by omega)
      rwa [show vaddr + size + (i - size) = vaddr + i by omega,
        show size + (i - size) = i by omega] at second
  · rw [h'.frame x, h.frame x]
    · exact fun i hi => hx i (by omega)
    · intro i hi same
      rw [h.guestAddress, Nat.add_assoc] at same
      exact hx (size + i) (by omega) same

/-- One store into a page is a write of that piece of the guest's memory. -/
theorem guestWritten_piece (w : World) {n : Nat} (src : Nat → UInt8)
    (inPage : vaddr % 4096 + n ≤ 4096) :
    GuestWritten w (w.setMem (w.mem.copyBytes (w.guestAddress vaddr) n src)) vaddr n src := by
  refine ⟨rfl, fun i hi => ?_, fun x hx => ?_⟩
  · rw [World.guestByte, guestAddress_setMem, setMem_mem, guestAddress_piece w inPage hi,
      ByteMem.copyBytes_inside _ _ (by omega) (by omega), Nat.add_sub_cancel_left]
  · rw [setMem_mem]
    apply ByteMem.copyBytes_outside
    by_contra inside
    have := hx (x - w.guestAddress vaddr) (by omega)
    rw [guestAddress_piece w inPage (by omega)] at this
    omega

/-! ## The writers -/

theorem ppPfn_hasGroup {a : Nat} (ha : a < wordSize) (frame : w.ppPfn (a / coArchPageSize) ≠ 0) :
    HasGroup w a := by
  rw [HasGroup, Nat.mod_eq_of_lt ha]
  exact ppPfn_group frame

theorem coMonitorAllocAndMapPage_mapped {a : Nat} (frame : w.ppPfn (a / coArchPageSize) ≠ 0) :
    coMonitorAllocAndMapPage a w = (.ok, w) := by
  rw [coMonitorAllocAndMapPage, allocPpGroup, if_pos (ppPfn_group frame), Step.andThen_ok,
    if_pos frame]

/-- One piece of `co_monitor_copy_region` on a page that has a frame. -/
theorem copyRegionSplitCallback_mapped {data : Option (Nat → UInt8)} {o n k : Nat}
    (ho : o < wordSize) (frame : w.ppPfn (o / coArchPageSize) ≠ 0) :
    copyRegionSplitCallback data o n (w, k) =
      (.ok, w.setMem (w.mem.copyBytes (w.guestAddress o) n (copyRegionBytes data k)),
        if data.isSome then k + n else k) := by
  have page : o / coArchPageSize * coArchPageSize / coArchPageSize = o / coArchPageSize :=
    Nat.mul_div_cancel _ (by decide)
  have pageLt : o / coArchPageSize * coArchPageSize < wordSize :=
    Nat.lt_of_le_of_lt (Nat.div_mul_le_self _ _) ho
  have frame' : w.ppPfn (o / coArchPageSize * coArchPageSize / coArchPageSize) ≠ 0 := by
    rwa [page]
  unfold copyRegionSplitCallback
  simp only [coMonitorAllocAndMapPage_mapped frame', ne_eq, not_true_eq_false, if_false,
    coMonitorGetPfn_group pageLt (ppPfn_hasGroup pageLt frame'), page]
  rfl

theorem copyRegionBytes_add (data : Option (Nat → UInt8)) {k k' : Nat}
    (h : data.isSome → k' = k) :
    copyRegionBytes data k' = fun i => copyRegionBytes data 0 (k + i) := by
  cases data with
  | none => rfl
  | some bytes =>
    rw [h rfl]
    funext i
    simp only [copyRegionBytes, Nat.zero_add]

/-- Everything the walks need to know about a range: how far a piece of it is written. -/
theorem GuestWritten.piece (distinct : DistinctFrames w) {o n : Nat} (lo : vaddr ≤ o)
    (inPage : o % 4096 + n ≤ 4096)
    (frames : ∀ i < n, w.ppPfn ((o + i) / coArchPageSize) ≠ 0)
    (h : GuestWritten w w' vaddr (o - vaddr) src) :
    GuestWritten w (w'.setMem (w'.mem.copyBytes (w.guestAddress o) n
      fun i => src (o - vaddr + i))) vaddr (o + n - vaddr) src := by
  obtain ⟨k, rfl⟩ := Nat.exists_eq_add_of_le lo
  rw [Nat.add_sub_cancel_left] at h ⊢
  rw [show vaddr + k + n - vaddr = k + n by omega]
  have stored := @guestWritten_piece (vaddr + k) w' n (fun i => src (k + i)) inPage
  rw [h.guestAddress] at stored
  exact h.append distinct frames stored

/-- How far a piece of `co_monitor_copy_region` has come. -/
def CopyRegionAt (w : World) (data : Option (Nat → UInt8)) (vaddr o : Nat) (s : World × Nat) :
    Prop :=
  GuestWritten w s.1 vaddr (o - vaddr) (copyRegionBytes data 0) ∧
    (data.isSome → s.2 = o - vaddr)

theorem copyRegionSplitCallback_written (distinct : DistinctFrames w)
    {data : Option (Nat → UInt8)} {o n : Nat} {s : World × Nat} (lo : vaddr ≤ o)
    (ho : o < wordSize) (pos : 0 < n) (inPage : o % 4096 + n ≤ 4096)
    (frames : ∀ i < n, w.ppPfn ((o + i) / coArchPageSize) ≠ 0)
    (h : CopyRegionAt w data vaddr o s) :
    (copyRegionSplitCallback data o n s).1 = .ok ∧
      CopyRegionAt w data vaddr (o + n) (copyRegionSplitCallback data o n s).2 := by
  obtain ⟨written, position⟩ := h
  have frame : s.1.ppPfn (o / coArchPageSize) ≠ 0 := by
    rw [written.ppPfn]
    exact frames 0 pos
  rw [copyRegionSplitCallback_mapped ho frame, copyRegionBytes_add data position,
    written.guestAddress]
  refine ⟨rfl, written.piece distinct lo inPage frames, fun some => ?_⟩
  have := position some
  simp only [some, if_true]
  omega

/-- `co_monitor_copy_region` on a range whose pages have frames. -/
theorem coMonitorCopyRegion_written (distinct : DistinctFrames w)
    (range : vaddr + size ≤ wordSize)
    (frames : ∀ i < size, w.ppPfn ((vaddr + i) / coArchPageSize) ≠ 0)
    (data : Option (Nat → UInt8)) :
    (coMonitorCopyRegion vaddr size data w).1 = .ok ∧
      GuestWritten w (coMonitorCopyRegion vaddr size data w).2 vaddr size
        (copyRegionBytes data 0) := by
  have start : CopyRegionAt w data vaddr vaddr (w, 0) := by
    rw [CopyRegionAt, Nat.sub_self]
    exact ⟨GuestWritten.refl w vaddr _, fun _ => rfl⟩
  obtain ⟨ok, written, -⟩ := coSplit_succeeds (P := CopyRegionAt w data vaddr)
    (fun o n s lo up pos inPage => copyRegionSplitCallback_written distinct lo (by omega) pos
      inPage (frames_piece frames lo up)) range start
  rw [Nat.add_sub_cancel_left] at written
  exact ⟨ok, written⟩

theorem transferTurn_mapped {δ : Type} {func : TransferFunc δ} {o n : Nat} {s : Transfer δ}
    (ho : o < wordSize) (frame : w.ppPfn (o / coArchPageSize) ≠ 0) :
    transferTurn w func o n s = transferPage func (w.ppPfn (o / coArchPageSize)) o n s :=
  transferTurn_group ho (ppPfn_hasGroup ho frame)

/-- How far a transfer to the guest has come. -/
def HostToLinuxvmAt (w : World) (source : ByteMem) (vaddr o : Nat) (s : Transfer HostCursor) :
    Prop :=
  GuestWritten w (w.setMem s.mem) vaddr (o - vaddr) source ∧ s.hostData = ⟨source, o - vaddr⟩

theorem transferTurn_fromHost (distinct : DistinctFrames w) {source : ByteMem} {o n : Nat}
    {s : Transfer HostCursor} (lo : vaddr ≤ o) (ho : o < wordSize) (pos : 0 < n)
    (inPage : o % 4096 + n ≤ 4096) (frames : ∀ i < n, w.ppPfn ((o + i) / coArchPageSize) ≠ 0)
    (h : HostToLinuxvmAt w source vaddr o s) :
    (transferTurn w (coMonitorTransferMemcpy .fromHost) o n s).1 = .ok ∧
      HostToLinuxvmAt w source vaddr (o + n)
        (transferTurn w (coMonitorTransferMemcpy .fromHost) o n s).2 := by
  obtain ⟨written, cursor⟩ := h
  rw [transferTurn_mapped ho (frames 0 pos)]
  refine ⟨rfl, ?_, ?_⟩
  · simp only [transferPage, coMonitorTransferMemcpy, cursor]
    exact written.piece distinct lo inPage frames
  · simp only [transferPage, coMonitorTransferMemcpy, cursor, HostCursor.mk.injEq, true_and]
    omega

/-- `co_monitor_host_to_linuxvm` on a range whose pages have frames. -/
theorem coMonitorHostToLinuxvm_written (distinct : DistinctFrames w)
    (range : MappedRange w vaddr size) (source : ByteMem) :
    (coMonitorHostToLinuxvm source vaddr size w).1 = .ok ∧
      GuestWritten w (coMonitorHostToLinuxvm source vaddr size w).2 vaddr size source := by
  have start : HostToLinuxvmAt w source vaddr vaddr ⟨w.mem, ⟨source, 0⟩, []⟩ := by
    rw [HostToLinuxvmAt, Nat.sub_self]
    exact ⟨GuestWritten.refl w vaddr _, rfl⟩
  obtain ⟨ok, written, -⟩ := coSplit_succeeds (P := HostToLinuxvmAt w source vaddr)
    (fun o n s lo up pos inPage => transferTurn_fromHost distinct lo (by
      have := range.bounds
      omega) pos inPage (frames_piece range.frames lo up)) range.bounds start
  rw [Nat.add_sub_cancel_left] at written
  unfold coMonitorHostToLinuxvm
  rw [coMonitorHostLinuxvmTransfer_inBounds range.vaddr_lt range.inBounds]
  exact ⟨ok, written⟩

/-! ## The reader -/

/-- How far a transfer from the guest has come. -/
def LinuxvmToHostAt (w : World) (target : ByteMem) (vaddr o : Nat) (s : Transfer HostCursor) :
    Prop :=
  s.mem = w.mem ∧ s.hostData =
    ⟨target.copyBytes 0 (o - vaddr) fun i => w.guestByte (vaddr + i), o - vaddr⟩

theorem transferTurn_fromLinux {target : ByteMem} {o n : Nat} {s : Transfer HostCursor}
    (lo : vaddr ≤ o) (ho : o < wordSize) (pos : 0 < n) (inPage : o % 4096 + n ≤ 4096)
    (frames : ∀ i < n, w.ppPfn ((o + i) / coArchPageSize) ≠ 0)
    (h : LinuxvmToHostAt w target vaddr o s) :
    (transferTurn w (coMonitorTransferMemcpy .fromLinux) o n s).1 = .ok ∧
      LinuxvmToHostAt w target vaddr (o + n)
        (transferTurn w (coMonitorTransferMemcpy .fromLinux) o n s).2 := by
  obtain ⟨mem, cursor⟩ := h
  obtain ⟨k, rfl⟩ := Nat.exists_eq_add_of_le lo
  rw [Nat.add_sub_cancel_left] at cursor
  rw [transferTurn_mapped ho (frames 0 pos)]
  refine ⟨rfl, mem, ?_⟩
  rw [show vaddr + k + n - vaddr = k + n by omega, ← ByteMem.copyBytes_append, Nat.zero_add]
  simp only [transferPage, coMonitorTransferMemcpy, cursor, mem, HostCursor.mk.injEq, and_true]
  funext x
  by_cases inside : k ≤ x ∧ x < k + n
  · rw [ByteMem.copyBytes_inside _ _ inside.1 inside.2,
      ByteMem.copyBytes_inside _ _ inside.1 inside.2, World.guestByte, ← Nat.add_assoc,
      guestAddress_piece w inPage (by omega)]
    rfl
  · have outside : x < k ∨ k + n ≤ x := by omega
    rw [ByteMem.copyBytes_outside _ _ outside, ByteMem.copyBytes_outside _ _ outside]

/-- `co_monitor_linuxvm_to_host` on a range whose pages have frames leaves the guest as it is,
and its bytes in the buffer. -/
theorem coMonitorLinuxvmToHost_read (range : MappedRange w vaddr size) (target : ByteMem) :
    coMonitorLinuxvmToHost vaddr target size w =
      (.ok, w, target.copyBytes 0 size fun i => w.guestByte (vaddr + i)) := by
  have start : LinuxvmToHostAt w target vaddr vaddr ⟨w.mem, ⟨target, 0⟩, []⟩ := by
    rw [LinuxvmToHostAt, Nat.sub_self]
    exact ⟨rfl, by congr 1⟩
  obtain ⟨ok, mem, cursor⟩ := coSplit_succeeds (P := LinuxvmToHostAt w target vaddr)
    (fun o n s lo up pos inPage => transferTurn_fromLinux lo (by
      have := range.bounds
      omega) pos inPage (frames_piece range.frames lo up)) range.bounds start
  rw [Nat.add_sub_cancel_left] at cursor
  unfold coMonitorLinuxvmToHost
  rw [coMonitorHostLinuxvmTransfer_inBounds range.vaddr_lt range.inBounds]
  exact Prod.ext ok (Prod.ext (congrArg w.setMem mem) (congrArg HostCursor.buffer cursor))

/-! ## The round trip -/

/-- The two ways the driver stores a buffer in guest memory. -/
inductive GuestWriter where
  | copyRegion
  | hostToLinuxvm
  deriving DecidableEq, Repr

def GuestWriter.write (writer : GuestWriter) (bytes : ByteMem) (vaddr size : Nat) (w : World) :
    Step World :=
  match writer with
  | .copyRegion => coMonitorCopyRegion vaddr size (some bytes) w
  | .hostToLinuxvm => coMonitorHostToLinuxvm bytes vaddr size w

theorem GuestWriter.write_written (writer : GuestWriter) (distinct : DistinctFrames w)
    (range : MappedRange w vaddr size) (bytes : ByteMem) :
    (writer.write bytes vaddr size w).1 = .ok ∧
      GuestWritten w (writer.write bytes vaddr size w).2 vaddr size bytes := by
  cases writer with
  | copyRegion =>
    have := coMonitorCopyRegion_written distinct range.bounds range.frames (some bytes)
    rwa [copyRegionBytes, show (fun i => bytes (0 + i)) = bytes by simp] at this
  | hostToLinuxvm => exact coMonitorHostToLinuxvm_written distinct range bytes

theorem GuestWritten.mappedRange (h : GuestWritten w w' vaddr size src)
    (range : MappedRange w vaddr size) : MappedRange w' vaddr size := by
  obtain ⟨low, start, high, top, frames⟩ := range
  rw [← h.monitor] at start high top
  exact ⟨low, start, high, top, by rwa [h.ppPfn]⟩

/-- What a store of `src` in a range has to do: it succeeds, a transfer from the range then gives
`src` and changes nothing, and every guest byte outside of the range and everything but memory is
kept. -/
structure Stored (w : World) (vaddr size : Nat) (src : Nat → UInt8) (r : Step World) : Prop where
  ok : r.1 = .ok
  readBack : ∀ target : ByteMem,
    coMonitorLinuxvmToHost vaddr target size r.2 = (.ok, r.2, target.copyBytes 0 size src)
  bytes : ∀ i < size, r.2.guestByte (vaddr + i) = src i
  outside : ∀ a, a < vaddr ∨ vaddr + size ≤ a → r.2.guestByte a = w.guestByte a
  mappings : r.2.monitor = w.monitor ∧ r.2.manager = w.manager ∧ r.2.host = w.host

theorem GuestWritten.stored {r : Step World} (distinct : DistinctFrames w)
    (range : MappedRange w vaddr size) (ok : r.1 = .ok)
    (h : GuestWritten w r.2 vaddr size src) : Stored w vaddr size src r := by
  refine ⟨ok, fun target => ?_, h.written, fun a ha => h.outside distinct range.frames ha, ?_⟩
  · rw [coMonitorLinuxvmToHost_read (h.mappedRange range)]
    congr 2
    funext x
    by_cases inside : x < size
    · rw [ByteMem.copyBytes_inside _ _ (by omega) (by omega),
        ByteMem.copyBytes_inside _ _ (by omega) (by omega)]
      exact h.written _ (by omega)
    · rw [ByteMem.copyBytes_outside _ _ (by omega), ByteMem.copyBytes_outside _ _ (by omega)]
  · rw [h.others]
    exact ⟨rfl, rfl, rfl⟩

/-- With distinct frames, both writers store every buffer in every mapped range of guest RAM so
that it reads back, and `co_monitor_copy_region` without a source stores zeros. -/
theorem guestMemory_roundTrip (distinct : DistinctFrames w) (range : MappedRange w vaddr size) :
    (∀ (writer : GuestWriter) (bytes : ByteMem),
      Stored w vaddr size bytes (writer.write bytes vaddr size w)) ∧
    Stored w vaddr size (fun _ => 0) (coMonitorCopyRegion vaddr size none w) := by
  constructor
  · intro writer bytes
    obtain ⟨ok, written⟩ := writer.write_written distinct range bytes
    exact written.stored distinct range ok
  · obtain ⟨ok, written⟩ := coMonitorCopyRegion_written distinct range.bounds range.frames none
    exact written.stored distinct range ok

/-- In every state the driver reaches, no frame is recorded for two pages. -/
theorem PagesInv.distinctFrames (inv : PagesInv w) : DistinctFrames w := inv.frames.distinct

theorem onePageGuest_inv : PagesInv onePageGuest :=
  (run_pagesInv (coveredHost_mapped.ramRange coveredHost_size rfl)
    (coveredHost_mapped.inv coveredHost_covered) fun op hop => by
      obtain rfl := List.mem_singleton.mp hop
      exact coveredHost_inRam).1

theorem onePageGuest_range : MappedRange onePageGuest 0xc0000ff0 16 := by
  refine ⟨by decide, by decide +kernel, by decide +kernel, by decide +kernel, fun i hi => ?_⟩
  rw [show (0xc0000ff0 + i) / coArchPageSize = 0xc0000 by simp only [coArchPageSize]; omega]
  decide +kernel

/-- The same guest with its first three pages in the frames 4114, 4112 and 4113. -/
def threePageGuest : World :=
  run PageOp.step [.allocAndMap 0xc0000000, .allocAndMap 0xc0001000, .allocAndMap 0xc0002000]
    (allocPpRamMapping (mappedHost
      [some 4110, some 4111, some 4114, some 4112, some 4113])).2

theorem threePageGuest_inv : PagesInv threePageGuest := by
  have mapped := @mappedHost_mapped [some 4110, some 4111, some 4114, some 4112, some 4113]
    (by decide +kernel)
  obtain ⟨_, _, _, layout⟩ := mapped.monitor
  refine (run_pagesInv (mapped.ramRange (mappedHost_size _) rfl)
    (mapped.inv (mapped.covered (mappedHost_hostmem _))) ?_).1
  rw [layout]
  simp only [List.forall_mem_cons, PageOp.InRam]
  exact ⟨by decide, by decide, by decide, fun _ none => absurd none List.not_mem_nil⟩

/-- The end of the first page, the second page and the start of the third. -/
theorem threePageGuest_range : MappedRange threePageGuest 0xc0000ff0 4128 := by
  refine ⟨by decide, by decide +kernel, by decide +kernel, by decide +kernel, fun i hi => ?_⟩
  have page : (0xc0000ff0 + i) / coArchPageSize = 0xc0000 ∨
      (0xc0000ff0 + i) / coArchPageSize = 0xc0001 ∨
        (0xc0000ff0 + i) / coArchPageSize = 0xc0002 := by
    simp only [coArchPageSize]
    omega
  rcases page with first | second | third
  · rw [first]
    decide +kernel
  · rw [second]
    decide +kernel
  · rw [third]
    decide +kernel

theorem guestMemory_roundTrip_threePageGuest :
    Stored threePageGuest 0xc0000ff0 4128 UInt8.ofNat
      (GuestWriter.hostToLinuxvm.write UInt8.ofNat 0xc0000ff0 4128 threePageGuest) :=
  (guestMemory_roundTrip threePageGuest_inv.distinctFrames threePageGuest_range).1 _ _

end CoLinux
