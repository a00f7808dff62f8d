import CoLinux.Linux.Incoming

/-!
# Which records are harmless

A record is confined if every stage reads its own bytes only, the guest frees its copy once, and
the guest goes on. None of the stages compares the sizes of a record with what it holds, so this
is a condition on the record: each stage needs it to be as long as what it reads.
-/

namespace CoLinux

open Lib

/-- The bytes lie in a copy of the record. `co_message_dup` makes it as long as the header and the
data, which for a size near `2 ^ 32` wraps to less than a header. -/
def CoMessage.Holds (m : CoMessage) (r : ByteRange) : Prop := r.1 + r.2 ≤ m.totalSize

theorem CoMessage.holds_iff {m : CoMessage} (fits : m.Fits) (r : ByteRange) :
    m.Holds r ↔ r.1 + r.2 ≤ sizeofCoMessage + m.size := by
  unfold CoMessage.Holds
  rw [CoMessage.totalSize_eq fits]

/-- A copy whose length wraps does not hold its own header. -/
theorem CoMessage.not_holds_header {m : CoMessage} (wraps : ¬m.Fits) {r : ByteRange}
    (header : sizeofCoMessage ≤ r.1 + r.2) : ¬m.Holds r := by
  have size := m.size_lt
  unfold CoMessage.Fits at wraps
  unfold CoMessage.Holds CoMessage.totalSize
  simp only [sizeofCoMessage, wordSize] at *
  omega

/-- What the writer of a record may count on. -/
structure Confined (g : RecordSite) (m : CoMessage) : Prop where
  inside : ∀ r ∈ (handleRecord g m).reads, m.Holds r
  /-- A copy is freed once, or it is left to the driver of its device. -/
  freedOnce : (handleRecord g m).freed + (if (handleRecord g m).queued then 1 else 0) =
    if (handleRecord g m).copied then 1 else 0
  alive : (handleRecord g m).crashed = false
  /-- The interrupt of the network goes on as if the record had not been there. -/
  following : (handleRecord g m).copied = true → (guestCopy g m).device = coDeviceNetwork →
    ∀ queue, conetInterrupt g (guestCopy g m :: queue) =
      conetTurn g (guestCopy g m) :: conetInterrupt g queue
  /-- At the head of the host's queue the record leaves it. -/
  leaves : ∀ queue io,
    (packMessages (hostCopy g m :: queue) 0 io).queue.length ≤ queue.length

/-- A record that `conet_rx` drops or that holds its packet. -/
def PacketFits (g : RecordSite) (m : CoMessage) : Prop :=
  12 ≤ m.size ∧
    (BuggyLength m.linuxSize ∨ g.skb = false ∨
      (m.linuxSize < 0x80000000 ∧ 12 + m.linuxSize ≤ m.size))

/-- A record that `conet_interrupt` handles well. -/
def NetworkFine (g : RecordSite) (m : CoMessage) : Prop :=
  8 ≤ m.size ∧ m.unit < coModuleMaxConet ∧
    (g.conetDev m.unit = some true →
      (m.type = coMessageTypeString → 16 ≤ m.size) ∧
        (m.type ≠ coMessageTypeString → PacketFits g m))

/-- A record that `cocd_interrupt` handles well. -/
def SerialFine (g : RecordSite) (m : CoMessage) : Prop :=
  8 ≤ m.size ∧ (m.unit < coModuleMaxSerial → g.ttyOpen m.unit = true →
    12 ≤ m.size ∧ 12 + min m.linuxSize g.flipRoom ≤ m.size)

/-- What a record has to hold: a device id, and what the handler of that device reads. -/
def DataFine (g : RecordSite) (m : CoMessage) : Prop :=
  4 ≤ m.size ∧
    (m.device < coDevicesTotal → g.kmalloc = true →
      (m.device = coDeviceNetwork → NetworkFine g m) ∧
        (m.device = coDeviceSerial → g.cocdSem = true → SerialFine g m))

/-- The condition on a record: it fits the io buffer, and its data are fine. With a sender out of
range the host drops it without a look at its data. -/
def RecordFine (g : RecordSite) (m : CoMessage) : Prop :=
  sizeofCoMessage + m.size ≤ ioBufferCapacity ∧ (m.fromModule < coModulesMax → DataFine g m)

variable {g : RecordSite} {m : CoMessage}

/-! ## The handlers -/

theorem conetRx_iff (fits : m.Fits) :
    ((∀ r ∈ (conetRx g m).1, m.Holds r) ∧ (conetRx g m).2 = false) ↔ PacketFits g m := by
  unfold conetRx PacketFits
  simp only [CoMessage.holds_iff fits]
  by_cases dropped : BuggyLength m.linuxSize ∨ g.skb = false
  · rw [if_pos dropped]
    simp only [List.mem_singleton, forall_eq, and_true]
    constructor
    · intro inside
      exact ⟨by simp only [sizeofCoMessage] at inside; omega, dropped.imp_right .inl⟩
    · rintro ⟨long, -⟩
      simp only [sizeofCoMessage]
      omega
  · rw [if_neg dropped]
    obtain ⟨sane, skb⟩ := not_or.mp dropped
    split_ifs with negative
    · refine iff_of_false (fun ⟨_, alive⟩ => by contradiction) ?_
      rintro ⟨-, buggy | none | ⟨small, -⟩⟩
      · exact sane buggy
      · exact skb none
      · exact absurd small (Nat.not_lt.mpr negative)
    · simp only [List.mem_cons, List.not_mem_nil, or_false, forall_eq_or_imp, forall_eq, and_true]
      simp only [sizeofCoMessage]
      constructor
      · rintro ⟨size, data⟩
        exact ⟨by omega, .inr (.inr ⟨Nat.not_le.mp negative, by omega⟩)⟩
      · rintro ⟨size, buggy | none | ⟨-, short⟩⟩
        · exact absurd buggy sane
        · exact absurd none skb
        · omega

theorem conetTurn_iff (fits : m.Fits) :
    ((∀ r ∈ (conetTurn g m).reads, m.Holds r) ∧ (conetTurn g m).freed = 1 ∧
      (conetTurn g m).crashed = false ∧ (conetTurn g m).goesOn = true) ↔ NetworkFine g m := by
  have unitInside : m.Holds (24, 4) ↔ 8 ≤ m.size := by
    rw [CoMessage.holds_iff fits]
    simp only [sizeofCoMessage]
    omega
  have typeInside : m.Holds (12, 4) := by
    rw [CoMessage.holds_iff fits]
    simp only [sizeofCoMessage]
    omega
  unfold conetTurn NetworkFine
  by_cases badUnit : coModuleMaxConet ≤ m.unit
  · rw [if_pos badUnit]
    refine iff_of_false (fun ⟨_, freed, _⟩ => by contradiction) ?_
    rintro ⟨-, unit, -⟩
    exact absurd unit (Nat.not_lt.mpr badUnit)
  · rw [if_neg badUnit]
    have unit : m.unit < coModuleMaxConet := Nat.not_le.mp badUnit
    by_cases running : g.conetDev m.unit = some true
    · rw [if_neg (not_not.mpr running)]
      by_cases status : m.type = coMessageTypeString
      · rw [if_pos status]
        have connected : m.Holds (32, 4) ↔ 16 ≤ m.size := by
          rw [CoMessage.holds_iff fits]
          simp only [sizeofCoMessage]
          omega
        simp only [List.forall_mem_cons, unitInside, typeInside, connected, unit, running, status]
        simp
      · rw [if_neg status]
        have rx := conetRx_iff (g := g) fits
        simp only [List.forall_mem_cons, unitInside, typeInside, unit, running, status, ← rx]
        cases (conetRx g m).2 <;> simp [status]
    · rw [if_pos running]
      simp only [List.forall_mem_cons, unitInside, unit, running]
      simp

theorem conetInterrupt_cons_iff :
    (∀ queue, conetInterrupt g (m :: queue) = conetTurn g m :: conetInterrupt g queue) ↔
      (conetTurn g m).goesOn = true := by
  constructor
  · intro following
    by_contra stops
    have turns := congrArg List.length (following [m])
    simp only [conetInterrupt, if_neg stops, List.length_cons, List.length_nil] at turns
    contradiction
  · intro goesOn queue
    rw [conetInterrupt, if_pos goesOn]

theorem cocdTurn_iff (fits : m.Fits) :
    (∀ r ∈ (cocdTurn g m).reads, m.Holds r) ↔ SerialFine g m := by
  unfold cocdTurn SerialFine
  simp only [CoMessage.holds_iff fits, sizeofCoMessage]
  by_cases isOpen : m.unit < coModuleMaxSerial ∧ g.ttyOpen m.unit = true
  · rw [if_pos isOpen]
    simp only [List.forall_mem_cons, isOpen.1, isOpen.2, forall_const, List.not_mem_nil,
      false_imp_iff, and_true]
    omega
  · rw [if_neg isOpen]
    simp only [List.forall_mem_cons, List.not_mem_nil, false_imp_iff, forall_const, and_true]
    constructor
    · intro inside
      exact ⟨by omega, fun unit tty => absurd ⟨unit, tty⟩ isOpen⟩
    · rintro ⟨size, -⟩
      omega

/-! ## The copies -/

/-- `c` shows the same header and data as `m`, whatever lies behind them. -/
structure CopyOf (c m : CoMessage) : Prop where
  size : c.size = m.size
  word : ∀ a, a + 4 ≤ sizeofCoMessage + m.size → c.readWord a = m.readWord a

theorem CopyOf.fits {c : CoMessage} (h : CopyOf c m) (fits : m.Fits) : c.Fits := by
  unfold CoMessage.Fits
  rw [h.size]
  exact fits

theorem CopyOf.dup {c : CoMessage} (h : CopyOf c m) (fits : m.Fits) (memory : ByteMem) :
    CopyOf (coMessageDup memory c) m := by
  refine ⟨(coMessageDup_size (h.fits fits) memory).trans h.size, fun a inside => ?_⟩
  rw [coMessageDup_word (h.fits fits) memory (by rw [h.size]; exact inside)]
  exact h.word a inside

theorem CopyOf.holds {c : CoMessage} (h : CopyOf c m) (r : ByteRange) :
    c.Holds r ↔ m.Holds r := by
  unfold CoMessage.Holds CoMessage.totalSize
  rw [h.size]

theorem hostCopy_copyOf (g : RecordSite) (fits : m.Fits) : CopyOf (hostCopy g m) m :=
  CopyOf.dup ⟨rfl, fun _ _ => rfl⟩ fits _

theorem tempCopy_copyOf (g : RecordSite) (fits : m.Fits) : CopyOf (tempCopy g m) m :=
  (hostCopy_copyOf g fits).dup fits _

theorem guestCopy_copyOf (g : RecordSite) (fits : m.Fits) : CopyOf (guestCopy g m) m :=
  (tempCopy_copyOf g fits).dup fits _

theorem CopyOf.networkFine {c : CoMessage} (h : CopyOf c m) :
    NetworkFine g c ↔ NetworkFine g m := by
  unfold NetworkFine PacketFits
  rw [h.size]
  apply and_congr_right
  intro hasUnit
  have unit : c.unit = m.unit := h.word 24 (by simp only [sizeofCoMessage]; omega)
  have type : c.type = m.type := h.word 12 (by simp only [sizeofCoMessage]; omega)
  rw [unit, type]
  have packet : 12 ≤ m.size → c.linuxSize = m.linuxSize := fun hasSize =>
    h.word 28 (by simp only [sizeofCoMessage]; omega)
  refine and_congr_right fun _ => imp_congr_right fun _ => and_congr_right fun _ =>
    imp_congr_right fun _ => and_congr_right fun hasSize => ?_
  rw [packet hasSize]

theorem CopyOf.serialFine {c : CoMessage} (h : CopyOf c m) :
    SerialFine g c ↔ SerialFine g m := by
  unfold SerialFine
  rw [h.size]
  apply and_congr_right
  intro hasUnit
  have unit : c.unit = m.unit := h.word 24 (by simp only [sizeofCoMessage]; omega)
  rw [unit]
  have packet : 12 ≤ m.size → c.linuxSize = m.linuxSize := fun hasSize =>
    h.word 28 (by simp only [sizeofCoMessage]; omega)
  refine imp_congr_right fun _ => imp_congr_right fun _ => and_congr_right fun hasSize => ?_
  rw [packet hasSize]

/-! ## The whole way -/

theorem CopyOf.fromModule {c : CoMessage} (h : CopyOf c m) : c.fromModule = m.fromModule :=
  h.word 0 (by simp only [sizeofCoMessage]; omega)

theorem CopyOf.toModule {c : CoMessage} (h : CopyOf c m) : c.toModule = m.toModule :=
  h.word 4 (by simp only [sizeofCoMessage]; omega)

theorem CopyOf.device {c : CoMessage} (h : CopyOf c m) (hasDevice : 4 ≤ m.size) :
    c.device = m.device :=
  h.word 20 (by simp only [sizeofCoMessage]; omega)

/-- The checks of a record for Linux, from a sender in range. -/
theorem CopyOf.idsInRange_iff {c : CoMessage} (h : CopyOf c m) (linux : m.toModule = coModuleLinux)
    (sender : m.fromModule < coModulesMax) : IdsInRange c ↔ c.device < coDevicesTotal := by
  unfold IdsInRange
  rw [h.fromModule, h.toModule, linux]
  simp [sender]

theorem CopyOf.checkReads_eq {c : CoMessage} (h : CopyOf c m)
    (linux : m.toModule = coModuleLinux) (sender : m.fromModule < coModulesMax) :
    checkReads c = [(0, 20), (20, 4)] := by
  unfold checkReads
  rw [h.fromModule, h.toModule, linux, if_pos ⟨sender, by decide⟩]

/-- A sender out of range. -/
theorem handlePacked_badSender (fits : m.Fits) (sender : ¬m.fromModule < coModulesMax) :
    handlePacked g m =
      { reads := [(0, 20)], copied := false, freed := 0, queued := false, crashed := false } := by
  have copy := hostCopy_copyOf g fits
  have refused : ¬IdsInRange (hostCopy g m) := fun ids => sender (copy.fromModule ▸ ids.1)
  have reads : checkReads (hostCopy g m) = [(0, 20)] := by
    unfold checkReads
    rw [if_neg fun ids => sender (copy.fromModule ▸ ids.1)]
  unfold handlePacked
  rw [if_neg refused, reads]

/-- Whatever becomes of a record from a sender in range, its device is read. -/
theorem device_read (fits : m.Fits) (linux : m.toModule = coModuleLinux)
    (sender : m.fromModule < coModulesMax) : (20, 4) ∈ (handlePacked g m).reads := by
  have read : (20, 4) ∈ checkReads (hostCopy g m) := by
    rw [(hostCopy_copyOf g fits).checkReads_eq linux sender]
    exact List.mem_cons_of_mem _ List.mem_cons_self
  have copied : (20, 4) ∈ copyReads (hostCopy g m) := List.mem_append_left _ read
  unfold handlePacked
  split_ifs
  · exact List.mem_append_left _ (List.mem_append_left _ copied)
  · exact List.mem_append_left _ copied
  · exact List.mem_append_left _ copied
  · dsimp only
    exact read

/-- What a stage reads of a record that holds a device id. -/
theorem CopyOf.copyReads_inside {c : CoMessage} (h : CopyOf c m) (fits : m.Fits)
    (linux : m.toModule = coModuleLinux) (sender : m.fromModule < coModulesMax)
    (hasDevice : 4 ≤ m.size) : ∀ r ∈ copyReads c, m.Holds r := by
  unfold copyReads
  rw [h.checkReads_eq linux sender, CoMessage.totalSize_eq (h.fits fits), h.size]
  simp only [CoMessage.holds_iff fits, sizeofCoMessage, List.cons_append, List.nil_append,
    List.forall_mem_cons]
  refine ⟨by omega, by omega, by omega, ?_⟩
  simp

/-- A record with an unknown device. -/
theorem handlePacked_badDevice (fits : m.Fits) (linux : m.toModule = coModuleLinux)
    (sender : m.fromModule < coModulesMax) (hasDevice : 4 ≤ m.size)
    (device : ¬m.device < coDevicesTotal) :
    handlePacked g m =
      { reads := [(0, 20), (20, 4)], copied := false, freed := 0, queued := false
        crashed := false } := by
  have copy := hostCopy_copyOf g fits
  unfold handlePacked
  rw [if_neg, copy.checkReads_eq linux sender]
  rw [copy.idsInRange_iff linux sender, copy.device hasDevice]
  exact device

/-- A record that passes the checks of host and guest. -/
theorem idsInRange_copies (fits : m.Fits) (linux : m.toModule = coModuleLinux)
    (sender : m.fromModule < coModulesMax) (hasDevice : 4 ≤ m.size)
    (device : m.device < coDevicesTotal) :
    IdsInRange (hostCopy g m) ∧ IdsInRange (tempCopy g m) := by
  have host := hostCopy_copyOf g fits
  have temp := tempCopy_copyOf g fits
  rw [host.idsInRange_iff linux sender, temp.idsInRange_iff linux sender, host.device hasDevice,
    temp.device hasDevice]
  exact ⟨device, device⟩

theorem coHandleIncomingMessage_copied (g : RecordSite) (c : CoMessage) :
    (coHandleIncomingMessage g c).copied = true := by
  unfold coHandleIncomingMessage
  split_ifs <;> rfl

/-- What the contract says of a dispatched record, with the reads of its dispatch. -/
theorem coHandleIncomingMessage_iff {c : CoMessage} (h : CopyOf c m) (fits : m.Fits)
    (hasDevice : 4 ≤ m.size) (device : m.device < coDevicesTotal) :
    ((∀ r ∈ (coHandleIncomingMessage g c).reads, m.Holds r) ∧
      (coHandleIncomingMessage g c).freed +
          (if (coHandleIncomingMessage g c).queued then 1 else 0) = 1 ∧
        (coHandleIncomingMessage g c).crashed = false ∧
          (c.device = coDeviceNetwork → ∀ queue,
            conetInterrupt g (c :: queue) = conetTurn g c :: conetInterrupt g queue)) ↔
      (m.device = coDeviceNetwork → NetworkFine g m) ∧
        (m.device = coDeviceSerial → g.cocdSem = true → SerialFine g m) := by
  have deviceInside : m.Holds (20, 4) := by
    rw [CoMessage.holds_iff fits]
    simp only [sizeofCoMessage]
    omega
  have same : c.device = m.device := h.device hasDevice
  unfold coHandleIncomingMessage
  rw [same]
  by_cases network : m.device = coDeviceNetwork
  · rw [if_pos network, conetInterrupt_cons_iff]
    have turn := conetTurn_iff (g := g) (h.fits fits)
    rw [h.networkFine] at turn
    have other : ¬coDeviceNetwork = coDeviceSerial := by decide
    simp only [List.forall_mem_cons, deviceInside, true_and, network, forall_const, ← turn,
      h.holds, other, false_imp_iff, and_true, Bool.false_eq_true, if_false, Nat.add_zero]
  · rw [if_neg network]
    by_cases serial : m.device = coDeviceSerial
    · rw [if_pos serial]
      have turn := cocdTurn_iff (g := g) (h.fits fits)
      rw [h.serialFine] at turn
      have other : ¬coDeviceSerial = coDeviceNetwork := by decide
      simp only [List.forall_mem_cons, deviceInside, true_and, serial, other, false_imp_iff,
        forall_const, ← turn, h.holds, and_true]
      cases g.cocdSem <;> simp [cocdTurn]
    · rw [if_neg serial]
      simp only [network, serial, false_imp_iff, and_true, iff_true]
      by_cases queued : m.device ∈
          [coDevicePower, coDeviceKeyboard, coDeviceScsi, coDeviceMouse, coDeviceBlock]
      · rw [if_pos queued]
        simp [deviceInside]
      · rw [if_neg queued, if_neg (Nat.not_le.mpr device)]
        simp [deviceInside]

theorem hostCopy_totalSize (g : RecordSite) (fits : m.Fits) :
    (hostCopy g m).totalSize = sizeofCoMessage + m.size := by
  have copy := hostCopy_copyOf g fits
  rw [CoMessage.totalSize_eq (copy.fits fits), copy.size]

/-- A record leaves the host's queue exactly if it fits an empty io buffer. -/
theorem hostCopy_leaves_iff (g : RecordSite) (fits : m.Fits) :
    (∀ queue io, (packMessages (hostCopy g m :: queue) 0 io).queue.length ≤ queue.length) ↔
      sizeofCoMessage + m.size ≤ ioBufferCapacity := by
  have total := hostCopy_totalSize g fits
  constructor
  · intro leaves
    by_contra long
    have stays := leaves [] ⟨0, fun _ => 0⟩
    rw [packMessages_cons, Nat.zero_add, total, if_pos (Nat.not_le.mp long)] at stays
    contradiction
  · intro small queue io
    rw [packMessages_cons, Nat.zero_add, total, if_neg (Nat.not_lt.mpr small)]
    split_ifs
    · exact (packMessages_suffix _ _ _).length_le
    · exact Nat.le_refl _

/-- The contract, said of what has become of the record. -/
theorem confined_iff_of_eq (fits : m.Fits) (small : sizeofCoMessage + m.size ≤ ioBufferCapacity)
    {h : Handling} (state : handlePacked g m = h) :
    Confined g m ↔
      (∀ r ∈ h.reads, m.Holds r) ∧
        h.freed + (if h.queued then 1 else 0) = (if h.copied then 1 else 0) ∧ h.crashed = false ∧
          (h.copied = true → (guestCopy g m).device = coDeviceNetwork → ∀ queue,
            conetInterrupt g (guestCopy g m :: queue) =
              conetTurn g (guestCopy g m) :: conetInterrupt g queue) := by
  have room := Nat.not_lt.mpr ((hostCopy_totalSize g fits).trans_le small)
  have packed : handleRecord g m = h := (if_neg room).trans state
  subst packed
  constructor
  · rintro ⟨inside, freedOnce, alive, following, -⟩
    exact ⟨inside, freedOnce, alive, following⟩
  · rintro ⟨inside, freedOnce, alive, following⟩
    exact ⟨inside, freedOnce, alive, following, (hostCopy_leaves_iff g fits).mpr small⟩

/-- A record that never gets as far as a copy in the guest, and is not a crash. -/
theorem confined_of_dropped (fits : m.Fits)
    (small : sizeofCoMessage + m.size ≤ ioBufferCapacity) {reads : List ByteRange}
    (inside : ∀ r ∈ reads, m.Holds r)
    (state : handlePacked g m =
      { reads := reads, copied := false, freed := 0, queued := false, crashed := false }) :
    Confined g m := by
  rw [confined_iff_of_eq fits small state]
  refine ⟨inside, rfl, rfl, fun copied => ?_⟩
  contradiction

/-- A record that is dispatched. -/
theorem confined_dispatched_iff (fits : m.Fits)
    (small : sizeofCoMessage + m.size ≤ ioBufferCapacity) (linux : m.toModule = coModuleLinux)
    (sender : m.fromModule < coModulesMax) (hasDevice : 4 ≤ m.size)
    (device : m.device < coDevicesTotal) (memory : g.kmalloc = true) :
    Confined g m ↔ (m.device = coDeviceNetwork → NetworkFine g m) ∧
      (m.device = coDeviceSerial → g.cocdSem = true → SerialFine g m) := by
  obtain ⟨host, temp⟩ := idsInRange_copies (g := g) fits linux sender hasDevice device
  have hostInside := (hostCopy_copyOf g fits).copyReads_inside fits linux sender hasDevice
  have tempInside := (tempCopy_copyOf g fits).copyReads_inside fits linux sender hasDevice
  have copied := coHandleIncomingMessage_copied g (guestCopy g m)
  have state : handlePacked g m =
      { coHandleIncomingMessage g (guestCopy g m) with
        reads := copyReads (hostCopy g m) ++ copyReads (tempCopy g m) ++
          (coHandleIncomingMessage g (guestCopy g m)).reads } := by
    unfold handlePacked
    rw [if_pos host, if_pos temp, if_pos memory]
  rw [confined_iff_of_eq fits small state,
    ← coHandleIncomingMessage_iff (g := g) (guestCopy_copyOf g fits) fits hasDevice device]
  generalize coHandleIncomingMessage g (guestCopy g m) = h at copied
  simp only [copied, if_true, forall_const]
  apply and_congr_left'
  simp only [List.mem_append, or_imp, forall_and]
  exact ⟨fun inside => inside.2, fun inside => ⟨⟨hostInside, tempInside⟩, inside⟩⟩

/-- A record that fits the io buffer. -/
theorem confined_iff_of_small (fits : m.Fits)
    (small : sizeofCoMessage + m.size ≤ ioBufferCapacity) (linux : m.toModule = coModuleLinux) :
    Confined g m ↔ (m.fromModule < coModulesMax → DataFine g m) := by
  unfold DataFine
  by_cases sender : m.fromModule < coModulesMax
  · rw [forall_prop_of_true sender]
    by_cases hasDevice : 4 ≤ m.size
    · rw [and_iff_right hasDevice]
      by_cases device : m.device < coDevicesTotal
      · rw [forall_prop_of_true device]
        by_cases memory : g.kmalloc = true
        · rw [forall_prop_of_true memory]
          exact confined_dispatched_iff fits small linux sender hasDevice device memory
        · refine iff_of_true ?_ fun granted => absurd granted memory
          obtain ⟨host, temp⟩ := idsInRange_copies (g := g) fits linux sender hasDevice device
          have hostInside :=
            (hostCopy_copyOf g fits).copyReads_inside fits linux sender hasDevice
          have tempInside :=
            (tempCopy_copyOf g fits).copyReads_inside fits linux sender hasDevice
          have inside : ∀ r ∈ copyReads (hostCopy g m) ++ checkReads (tempCopy g m),
              m.Holds r := by
            intro r hr
            rcases List.mem_append.mp hr with hr | hr
            · exact hostInside r hr
            · exact tempInside r (List.mem_append_left _ hr)
          refine confined_of_dropped fits small inside ?_
          unfold handlePacked
          rw [if_pos host, if_pos temp, if_neg memory]
      · refine iff_of_true ?_ fun inRange => absurd inRange device
        refine confined_of_dropped fits small ?_
          (handlePacked_badDevice fits linux sender hasDevice device)
        simp only [List.forall_mem_cons, CoMessage.holds_iff fits, sizeofCoMessage]
        refine ⟨by omega, by omega, ?_⟩
        simp
    · refine iff_of_false (fun confined => hasDevice ?_) fun fine => hasDevice fine.1
      have inside := ((confined_iff_of_eq fits small rfl).mp confined).1 _
        (device_read fits linux sender)
      rw [CoMessage.holds_iff fits] at inside
      simp only [sizeofCoMessage] at inside
      omega
  · refine iff_of_true ?_ fun inRange => absurd inRange sender
    refine confined_of_dropped fits small ?_ (handlePacked_badSender fits sender)
    simp [CoMessage.holds_iff fits]

/-- Whatever the host does with a record, it reads the header of its copy. -/
theorem header_read (g : RecordSite) (m : CoMessage) :
    ∃ r ∈ (handleRecord g m).reads, sizeofCoMessage ≤ r.1 + r.2 := by
  have read : (0, 20) ∈ checkReads (hostCopy g m) := by
    unfold checkReads
    split_ifs <;> exact List.mem_cons_self
  have copied : (0, 20) ∈ copyReads (hostCopy g m) := List.mem_append_left _ read
  unfold handleRecord
  by_cases long : ioBufferCapacity < (hostCopy g m).totalSize
  · rw [if_pos long]
    exact ⟨(16, 4), List.mem_singleton_self _, by decide⟩
  · rw [if_neg long]
    refine ⟨(0, 20), ?_, by decide⟩
    unfold handlePacked
    split_ifs
    · exact List.mem_append_left _ (List.mem_append_left _ copied)
    · exact List.mem_append_left _ copied
    · exact List.mem_append_left _ copied
    · exact read

/-- A record whose copy wraps is not confined. -/
theorem not_confined_of_wraps (wraps : ¬m.Fits) : ¬Confined g m := by
  intro confined
  obtain ⟨r, hr, header⟩ := header_read g m
  exact CoMessage.not_holds_header wraps header (confined.inside r hr)

/-- **Confinement of records for Linux.** A record is confined exactly if it fits the io buffer,
holds what the stages read of it, and names a unit the network has. -/
theorem confined_iff (g : RecordSite) {m : CoMessage} (linux : m.toModule = coModuleLinux) :
    Confined g m ↔ RecordFine g m := by
  unfold RecordFine
  by_cases small : sizeofCoMessage + m.size ≤ ioBufferCapacity
  · have fits : m.Fits := small.trans_lt (by decide)
    rw [and_iff_right small]
    exact confined_iff_of_small fits small linux
  · refine iff_of_false (fun confined => ?_) fun fine => small fine.1
    by_cases fits : m.Fits
    · exact small ((hostCopy_leaves_iff g fits).mp confined.leaves)
    · exact not_confined_of_wraps fits confined

/-- A guest with conet0 up and unit 0 of the serial device open, and clear memory. -/
def quietSite : RecordSite where
  hostMemory := fun _ => 0
  tempStorage := fun _ => 0
  nodeMemory := fun _ => 0
  kmalloc := true
  conetDev := fun unit => if unit = 0 then some true else none
  skb := true
  cocdSem := true
  ttyOpen := fun unit => unit = 0
  flipRoom := 4096

/-- A record of the network with this outer size, unit and inner size. -/
def networkRecord (size unit linuxSize : Nat) : CoMessage :=
  coMessage 8 coModuleLinux 0 1 size (coLinuxMessage coDeviceNetwork unit linuxSize fun _ => 0)

/-- A packet of 60 bytes. -/
theorem confined_networkRecord : Confined quietSite (networkRecord 72 0 60) := by
  refine (confined_iff quietSite (by decide)).mpr ⟨by decide, fun _ => ⟨by decide, ?_⟩⟩
  refine fun _ _ => ⟨fun _ => ⟨by decide, by decide, fun _ => ⟨?_, fun _ => ?_⟩⟩, ?_⟩
  · intro status
    exact absurd status (by decide)
  · exact ⟨by decide, .inr (.inr ⟨by decide, by decide⟩)⟩
  · intro serial
    exact absurd serial (by decide)

/-- A record that is a header only, one with an inner size of 1000 and no data, one for unit 16, one
with an inner size of -1 and one whose copy has four bytes. -/
theorem records_not_confined :
    ¬Confined quietSite (coMessage 8 coModuleLinux 0 1 0 fun _ => 0) ∧
      ¬Confined quietSite (networkRecord 12 0 1000) ∧
      ¬Confined quietSite (networkRecord 12 coModuleMaxConet 0) ∧
      ¬Confined quietSite (networkRecord 12 0 0xffffffff) ∧
      ¬Confined quietSite (networkRecord 0xfffffff0 0 60) := by
  refine ⟨fun confined => ?_, fun confined => ?_, fun confined => ?_, fun confined => ?_,
    fun confined => ?_⟩
  · have inside := confined.inside (20, 4) (by decide +kernel)
    revert inside
    unfold CoMessage.Holds
    decide +kernel
  · have inside := confined.inside (32, 1000) (by decide +kernel)
    revert inside
    unfold CoMessage.Holds
    decide +kernel
  · have freedOnce := confined.freedOnce
    revert freedOnce
    decide +kernel
  · have alive := confined.alive
    revert alive
    decide +kernel
  · have inside := confined.inside (0, 20) (by decide +kernel)
    revert inside
    unfold CoMessage.Holds
    decide +kernel

end CoLinux
