import CoLinux.Kernel.GuestMemory

/-!
# Physical pages for the guest (`co_monitor_getpp` of `kernel/monitor.c`)

The guest asks for the physical addresses of the pages of a host buffer. The driver counts the
bytes of the answer, one word for each page of the buffer, and stores them one guest page after the
other.
-/

namespace CoLinux

open Lib

/-- The inner loop: `n` words from `pp` on, one for each page from `buffer` on. Gives the memory and
where `buffer` is then. -/
def storePp (virtToPhys : Nat → UInt32) : Nat → Nat → Nat → ByteMem → ByteMem × Nat
  | 0, _, buffer, mem => (mem, buffer)
  | n + 1, pp, buffer, mem =>
    storePp virtToPhys n (pp + 4) ((buffer + coArchPageSize) % wordSize)
      (mem.writeWord pp (virtToPhys buffer).toNat)

/-- The bytes from `vaddr` to the end of its page. -/
def pageRest (vaddr : Nat) : Nat := coArchPageSize - vaddr % coArchPageSize

theorem pageRest_pos (vaddr : Nat) : 0 < pageRest vaddr :=
  Nat.sub_pos_of_lt (Nat.mod_lt vaddr (by decide))

/-- The outer loop of `co_monitor_getpp`: what it leaves in `params[0]`, and the guest. -/
def getppLoop (virtToPhys : Nat → UInt32) (vaddr buffer size : Nat) (w : World) : Nat × World :=
  if size = 0 then (0, w)
  else
    match coMonitorGetPfn vaddr w with
    | .error _ => (1, w)
    | .ok pfn =>
      let len := min (pageRest vaddr) size
      let pp := pfn * coArchPageSize + vaddr % coArchPageSize
      let r := storePp virtToPhys ((len + 3) / 4) pp buffer (w.mem.copyBytes pp len fun _ => 0)
      getppLoop virtToPhys ((vaddr + len) % wordSize) r.2 (size - len) (w.setMem r.1)
termination_by size
decreasing_by
  have := pageRest_pos vaddr
  omega

/-- `co_monitor_getpp`. `host_buffer_size` is an `int`; nothing is left of one that is not
positive. -/
def coMonitorGetpp (virtToPhys : Nat → UInt32) (ppBuffer hostBuffer : Nat) (hostBufferSize : Int)
    (w : World) : Nat × World :=
  getppLoop virtToPhys ppBuffer hostBuffer (hostBufferSize.shiftRight 10).toNat w

/-- The physical address of page `k` of the host buffer. -/
def hostPage (virtToPhys : Nat → UInt32) (hostBuffer k : Nat) : Nat :=
  (virtToPhys ((hostBuffer + coArchPageSize * k) % wordSize)).toNat

/-! ## The loops -/

variable {virtToPhys : Nat → UInt32} {w : World} {vaddr buffer size : Nat}

theorem storePp_eq (n pp : Nat) (mem : ByteMem) (small : buffer < wordSize) :
    storePp virtToPhys n pp buffer mem =
      (mem.writeWords pp n (hostPage virtToPhys buffer),
        (buffer + coArchPageSize * n) % wordSize) := by
  induction n generalizing pp buffer mem with
  | zero =>
    have none : mem.writeWords pp 0 (hostPage virtToPhys buffer) = mem :=
      funext fun x => mem.writeWords_outside _ (by omega)
    rw [storePp, none, Nat.mul_zero, Nat.add_zero, Nat.mod_eq_of_lt small]
  | succ n ih =>
    have first : hostPage virtToPhys buffer 0 = (virtToPhys buffer).toNat := by
      rw [hostPage, Nat.mul_zero, Nat.add_zero, Nat.mod_eq_of_lt small]
    have others : hostPage virtToPhys ((buffer + coArchPageSize) % wordSize) =
        fun k => hostPage virtToPhys buffer (k + 1) := by
      funext k
      rw [hostPage, hostPage, Nat.mod_add_mod, Nat.mul_succ, Nat.add_assoc,
        Nat.add_comm coArchPageSize]
    rw [storePp, ih _ _ (Nat.mod_lt _ (by decide)), ByteMem.writeWords_succ, first, others,
      Nat.mod_add_mod, Nat.mul_succ, Nat.add_assoc, Nat.add_comm coArchPageSize]

/-- The clearing of a piece is overwritten. -/
theorem storePp_piece {n pp : Nat} (words : 4 ∣ n) (mem : ByteMem) (small : buffer < wordSize) :
    storePp virtToPhys ((n + 3) / 4) pp buffer (mem.copyBytes pp n fun _ => 0) =
      (mem.copyBytes pp n (ByteMem.wordsBytes (hostPage virtToPhys buffer)),
        (buffer + coArchPageSize * (n / 4)) % wordSize) := by
  obtain ⟨k, rfl⟩ := words
  rw [show (4 * k + 3) / 4 = k by omega, storePp_eq k pp _ small, ← ByteMem.copyBytes_wordsBytes,
    ByteMem.copyBytes_copyBytes, Nat.mul_div_cancel_left k (by decide)]

/-- The bytes of the words behind the first ones are the words of a later page. -/
theorem wordsBytes_hostPage_add (k : Nat) :
    ByteMem.wordsBytes (hostPage virtToPhys ((buffer + coArchPageSize * k) % wordSize)) =
      fun i => ByteMem.wordsBytes (hostPage virtToPhys buffer) (4 * k + i) := by
  funext i
  have page : (4 * k + i) / 4 = k + i / 4 := by omega
  have byte : (4 * k + i) % 4 = i % 4 := by omega
  rw [ByteMem.wordsBytes, ByteMem.wordsBytes, page, byte, hostPage, hostPage, Nat.mod_add_mod,
    Nat.mul_add, Nat.add_assoc]

theorem getppLoop_zero (w : World) : getppLoop virtToPhys vaddr buffer 0 w = (0, w) := by
  rw [getppLoop, if_pos rfl]

/-- One turn, on a page that has a frame. -/
theorem getppLoop_mapped (some : 0 < size) (hv : vaddr < wordSize)
    (frame : w.ppPfn (vaddr / coArchPageSize) ≠ 0) (words : 4 ∣ min (pageRest vaddr) size)
    (small : buffer < wordSize) :
    getppLoop virtToPhys vaddr buffer size w =
      getppLoop virtToPhys ((vaddr + min (pageRest vaddr) size) % wordSize)
        ((buffer + coArchPageSize * (min (pageRest vaddr) size / 4)) % wordSize)
        (size - min (pageRest vaddr) size)
        (w.setMem (w.mem.copyBytes (w.guestAddress vaddr) (min (pageRest vaddr) size)
          (ByteMem.wordsBytes (hostPage virtToPhys buffer)))) := by
  have get : coMonitorGetPfn vaddr w = .ok (w.ppPfn (vaddr / coArchPageSize)) :=
    coMonitorGetPfn_group hv (ppPfn_hasGroup hv frame)
  rw [getppLoop, if_neg (Nat.ne_of_gt some), get]
  simp only [storePp_piece words _ small]
  rfl

theorem getppLoop_written (distinct : DistinctFrames w) (words : 4 ∣ vaddr ∧ 4 ∣ size)
    (small : buffer < wordSize) (range : vaddr + size < wordSize)
    (frames : ∀ i < size, w.ppPfn ((vaddr + i) / coArchPageSize) ≠ 0) :
    (getppLoop virtToPhys vaddr buffer size w).1 = 0 ∧
      GuestWritten w (getppLoop virtToPhys vaddr buffer size w).2 vaddr size
        (ByteMem.wordsBytes (hostPage virtToPhys buffer)) := by
  induction size using Nat.strongRecOn generalizing vaddr buffer w with
  | ind size ih =>
    rcases Nat.eq_zero_or_pos size with rfl | some
    · rw [getppLoop_zero]
      exact ⟨rfl, GuestWritten.refl w vaddr _⟩
    · obtain ⟨aligned, whole⟩ := words
      -- a piece ends with a word, as a page does
      have piece : 4 ∣ min (pageRest vaddr) size := by
        rw [pageRest]
        simp only [coArchPageSize]
        omega
      have pos : 0 < min (pageRest vaddr) size := Nat.lt_min.mpr ⟨pageRest_pos vaddr, some⟩
      have le : min (pageRest vaddr) size ≤ size := Nat.min_le_right _ _
      have inPage : vaddr % 4096 + min (pageRest vaddr) size ≤ 4096 := by
        rw [pageRest]
        simp only [coArchPageSize]
        omega
      have frame : w.ppPfn (vaddr / coArchPageSize) ≠ 0 := frames 0 some
      rw [getppLoop_mapped some (by omega) frame piece small]
      generalize min (pageRest vaddr) size = len at *
      obtain ⟨k, rfl⟩ := piece
      obtain ⟨rest, rfl⟩ := Nat.exists_eq_add_of_le le
      have first := @guestWritten_piece vaddr w (4 * k)
        (ByteMem.wordsBytes (hostPage virtToPhys buffer)) inPage
      rw [Nat.mul_div_cancel_left k (by decide), Nat.add_sub_cancel_left,
        Nat.mod_eq_of_lt (by omega : vaddr + 4 * k < wordSize)]
      have others := @ih rest (by omega) (w.setMem (w.mem.copyBytes (w.guestAddress vaddr) (4 * k)
          (ByteMem.wordsBytes (hostPage virtToPhys buffer)))) (vaddr + 4 * k)
        ((buffer + coArchPageSize * k) % wordSize) distinct (by omega) (Nat.mod_lt _ (by decide))
        (by omega) (fun i hi => by
          rw [Nat.add_assoc]
          exact frames (4 * k + i) (by omega))
      rw [wordsBytes_hostPage_add k] at others
      exact ⟨others.1, first.append distinct (fun i hi => by
        rw [Nat.add_assoc]
        exact frames (4 * k + i) (by omega)) others.2⟩

/-! ## The answer -/

/-- A write of words is seen as words where it is aligned. -/
theorem GuestWritten.word {w' : World} {f : Nat → Nat}
    (h : GuestWritten w w' vaddr size (ByteMem.wordsBytes f)) (aligned : 4 ∣ vaddr) {k : Nat}
    (hk : 4 * k + 4 ≤ size) (hf : f k < 2 ^ 32) : w'.guestWord (vaddr + 4 * k) = f k := by
  have byte : ∀ j < 4,
      w'.mem (w'.guestAddress (vaddr + 4 * k) + j) = ByteMem.wordByte (f k) j := by
    intro j hj
    rw [← guestAddress_piece w' (by omega : (vaddr + 4 * k) % 4096 + 4 ≤ 4096) hj, Nat.add_assoc]
    have written := h.written (4 * k + j) (by omega)
    rw [World.guestByte, ByteMem.wordsBytes, show (4 * k + j) / 4 = k by omega,
      show (4 * k + j) % 4 = j by omega] at written
    exact written
  have b0 := byte 0 (by omega)
  rw [Nat.add_zero] at b0
  have word : w'.guestWord (vaddr + 4 * k) =
      ByteMem.readWord w'.mem (w'.guestAddress (vaddr + 4 * k)) := rfl
  rw [word, ByteMem.readWord, b0, byte 1 (by omega), byte 2 (by omega), byte 3 (by omega)]
  exact ByteMem.wordByte_sum hf

/-- The answer to a request: success, a word for every page of the buffer that is its physical
address, nothing stored outside of the words, and nothing else changed. -/
structure GetppDone (virtToPhys : Nat → UInt32) (ppBuffer hostBuffer : Nat) (hostBufferSize : Int)
    (w : World) (r : Nat × World) : Prop where
  success : r.1 = 0
  words : ∀ k : Nat, (k : Int) < hostBufferSize / 4096 →
    r.2.guestWord (ppBuffer + 4 * k) = hostPage virtToPhys hostBuffer k
  covered : 4 * (hostBufferSize / 4096) = hostBufferSize / 1024
  outside : ∀ a : Nat, a < ppBuffer ∨ (ppBuffer : Int) + hostBufferSize / 1024 ≤ a →
    r.2.guestByte a = w.guestByte a
  others : r.2 = w.setMem r.2.mem

/-- For every aligned range of guest RAM with frames and every number of pages, the guest gets the
physical addresses of the pages, in order, and nothing else of it is touched. -/
theorem coMonitorGetpp_done (virtToPhys : Nat → UInt32) {ppBuffer hostBuffer : Nat}
    {hostBufferSize : Int} {w : World} (distinct : DistinctFrames w) (aligned : 4 ∣ ppBuffer)
    (pages : 4096 ∣ hostBufferSize) (host : hostBuffer < wordSize)
    (range : MappedRange w ppBuffer (hostBufferSize / 1024).toNat) :
    GetppDone virtToPhys ppBuffer hostBuffer hostBufferSize w
      (coMonitorGetpp virtToPhys ppBuffer hostBuffer hostBufferSize w) := by
  obtain ⟨n, rfl⟩ := pages
  have bytes : 4096 * n / 1024 = 4 * n := by omega
  have shift : (4096 * n).shiftRight 10 = 4 * n :=
    (Int.shiftRight_eq_div_pow (4096 * n) 10).trans bytes
  have bounds := range.high
  have top := range.top
  have frames := range.frames
  rw [bytes] at bounds frames
  obtain ⟨success, written⟩ := @getppLoop_written virtToPhys w ppBuffer hostBuffer (4 * n).toNat
    distinct ⟨aligned, by omega⟩ host (by omega) frames
  rw [coMonitorGetpp, shift]
  refine ⟨success, fun k hk => ?_, by omega, fun a ha => ?_, written.others⟩
  · exact written.word aligned (by omega) (virtToPhys _).toNat_lt
  · exact written.outside distinct frames (by omega)

/-- A buffer of four pages, and a place for four words at the end of a page. -/
theorem coMonitorGetpp_done_onePageGuest :
    GetppDone (fun a => UInt32.ofNat a) 0xc0000ff0 0x80000000 16384 onePageGuest
      (coMonitorGetpp (fun a => UInt32.ofNat a) 0xc0000ff0 0x80000000 16384 onePageGuest) :=
  coMonitorGetpp_done _ onePageGuest_inv.distinctFrames (by decide) (by decide) (by decide)
    onePageGuest_range

end CoLinux
