import CoLinux.Winnt.ConetReceive

/-!
# One packet, however it is split

The two paths of a received packet give the guest the same message, and nothing of a packet is kept.
A transfer that fails is not told from one that succeeds.
-/

namespace CoLinux

open Lib

variable {Ψ : Type} {ndis : Ndis Ψ}
variable {adapter : ConetAdapter} {g : ConetAnswers} {f : Indication} {o : TransferOutcome}

/-! ## Messages -/

/-- The header and the data of a message do not depend on what is behind them. -/
theorem conetReceived_bytes {n : Nat} {data data' : ByteMem} (small : n ≤ conetMaxPacketSize)
    (same : data.slice 0 n = data'.slice 0 n) :
    (conetReceived adapter n data).bytes = (conetReceived adapter n data').bytes := by
  have word : (sizeofCoLinuxMessage + n) % wordSize = sizeofCoLinuxMessage + n := by
    simp only [conetMaxPacketSize, sizeofCoLinuxMessage, wordSize] at small ⊢
    omega
  have size : ∀ d : ByteMem, (conetReceived adapter n d).size = sizeofCoLinuxMessage + n := by
    intro d
    unfold conetReceived DriverMessage.conetMessage
    rw [word]
    apply coMessage_size
    simp only [conetMaxPacketSize, sizeofCoLinuxMessage] at small ⊢
    omega
  unfold CoMessage.bytes
  rw [size, size]
  apply ByteMem.slice_congr
  intro i inside
  rw [Nat.zero_add]
  simp only [sizeofCoMessage, sizeofCoLinuxMessage] at inside
  unfold conetReceived DriverMessage.conetMessage coMessage
  by_cases header : i < 20
  · unfold ByteMem.writeWords
    rw [if_pos (by omega), if_pos (by omega)]
  · rw [ByteMem.writeWords_outside _ _ (by omega), ByteMem.writeWords_outside _ _ (by omega)]
    unfold coLinuxMessage
    simp only [sizeofCoMessage, sizeofCoLinuxMessage]
    by_cases linuxHeader : i < 32
    · unfold ByteMem.writeWords
      rw [if_pos (by omega), if_pos (by omega)]
    · rw [ByteMem.writeWords_outside _ _ (by omega), ByteMem.writeWords_outside _ _ (by omega)]
      have byte := ByteMem.slice_inj same (show i - 32 < n by omega)
      simpa [Nat.sub_sub] using byte

theorem packetMessage_bytes {n : Nat} {data : ByteMem} (small : n ≤ conetMaxPacketSize)
    {packet : List UInt8} (whole : data.slice 0 n = packet) :
    (conetReceived adapter n data).bytes = (packetMessage adapter packet).bytes := by
  have length : packet.length = n := by rw [← whole, ByteMem.length_slice]
  unfold packetMessage
  rw [length]
  apply conetReceived_bytes small
  rw [← length, ByteMem.slice_ofList, length, whole]

/-! ## The packet in memory -/

theorem moveParts_slice (m : ByteMem) :
    (moveParts f m).slice 0 (f.headerBufferSize + f.lookAheadBufferSize) =
      f.header ++ f.lookAhead := by
  have header : ((m.copyBytes 0 f.headerBufferSize (ByteMem.ofList f.header)).slice 0
      f.headerBufferSize) = f.header :=
    (ByteMem.slice_copyBytes_inside ..).trans (ByteMem.slice_ofList f.header)
  have lookAhead : (ByteMem.ofList f.lookAhead).slice 0 f.lookAheadBufferSize = f.lookAhead :=
    ByteMem.slice_ofList f.lookAhead
  rw [moveParts, ByteMem.slice_copyBytes_end, header, lookAhead]

theorem packetSize_sub : f.packetSize - f.lookAheadBufferSize = f.remainder.length :=
  Nat.add_sub_cancel_left ..

theorem length_packet : f.packet.length = f.headerBufferSize + f.packetSize := by
  simp only [Indication.packet, Indication.headerBufferSize, Indication.packetSize,
    List.length_append]

/-- The packet that NDIS is asked for, with its two buffers. -/
def givenPacket (ndis : Ndis Ψ) (f : Indication) : Ψ :=
  ndis.chainBufferAtFront
    (ndis.chainBufferAtFront ndis.newPacket ⟨0, f.headerBufferSize + f.lookAheadBufferSize⟩)
    ⟨f.headerBufferSize + f.lookAheadBufferSize, f.remainder.length⟩

theorem givenPacket_buffers (documented : ndis.Documented) : ndis.buffers (givenPacket ndis f) =
    [⟨f.headerBufferSize + f.lookAheadBufferSize, f.remainder.length⟩,
      ⟨0, f.headerBufferSize + f.lookAheadBufferSize⟩] := by
  rw [givenPacket, documented.front, documented.front, documented.newPacket]

/-- What is in the buffer of a packet when its transfer is done. -/
def transferredBuffer (ndis : Ndis Ψ) (f : Indication) (o : TransferOutcome) (m : ByteMem) :
    ByteMem :=
  ndis.transferData f f.lookAheadBufferSize f.remainder.length (givenPacket ndis f) o
    (moveParts f m)

/-- The parts that were moved are in the buffer, whatever is transferred. -/
theorem transferredBuffer_parts (documented : ndis.Documented) (m : ByteMem) :
    (transferredBuffer ndis f o m).slice 0 (f.headerBufferSize + f.lookAheadBufferSize) =
      f.header ++ f.lookAhead := by
  have first : (ndis.buffers (givenPacket ndis f)).head? =
      some ⟨f.headerBufferSize + f.lookAheadBufferSize, f.remainder.length⟩ := by
    rw [givenPacket_buffers documented]
    rfl
  refine Eq.trans (ByteMem.slice_congr fun i inside => ?_) (moveParts_slice m)
  refine documented.outside _ _ _ _ _ _ _ first _ (.inl ?_)
  rw [Nat.zero_add]
  exact inside

theorem transferredBuffer_header (documented : ndis.Documented) (m : ByteMem) :
    (transferredBuffer ndis f o m).slice 0 f.headerBufferSize = f.header := by
  have parts := congrArg (List.take f.headerBufferSize)
    (@transferredBuffer_parts _ _ f o documented m)
  rw [ByteMem.slice_take _ _ (Nat.le_add_right ..)] at parts
  rw [parts]
  exact List.take_left

/-- A transfer that is done brings the remainder. -/
theorem transferredBuffer_remainder (documented : ndis.Documented) (m : ByteMem)
    (done : f.Transferred o) : (transferredBuffer ndis f o m).slice
      (f.headerBufferSize + f.lookAheadBufferSize) f.remainder.length = f.remainder := by
  have first : (ndis.buffers (givenPacket ndis f)).head? =
      some ⟨f.headerBufferSize + f.lookAheadBufferSize, f.remainder.length⟩ := by
    rw [givenPacket_buffers documented]
    rfl
  refine Eq.trans (ByteMem.slice_congr fun i inside => ?_) (ByteMem.slice_ofList f.remainder)
  rw [Nat.zero_add]
  refine (documented.transferred _ _ _ _ _ _ _ first done.1 i ?_ inside inside).trans ?_
  · exact Nat.lt_of_lt_of_le inside done.2
  · exact ByteMem.ofList_append_add f.lookAhead f.remainder i

/-- It makes the packet whole. -/
theorem transferredBuffer_packet (documented : ndis.Documented) (m : ByteMem)
    (done : f.Transferred o) :
    (transferredBuffer ndis f o m).slice 0 (f.headerBufferSize + f.packetSize) = f.packet := by
  have sizes : f.headerBufferSize + f.packetSize =
      f.headerBufferSize + f.lookAheadBufferSize + f.remainder.length :=
    (Nat.add_assoc ..).symm
  rw [sizes, ByteMem.slice_add, transferredBuffer_parts documented, Nat.zero_add,
    transferredBuffer_remainder documented m done, List.append_assoc]
  rfl

/-! ## The filter -/

theorem filterPacket_iff {m : ByteMem} (header : m.slice 0 f.headerBufferSize = f.header) :
    coConetProtoFilterPacket adapter m = true ↔ f.For adapter := by
  have long := f.addresses
  have dest : m.slice 0 6 = f.header.take 6 := by
    rw [← header, ByteMem.slice_take]
    exact Nat.le_trans (by decide) long
  have source : m.slice 6 6 = (f.header.drop 6).take 6 := by
    have behind : 6 ≤ f.headerBufferSize := Nat.le_trans (by decide) long
    rw [← header, ByteMem.slice_drop _ _ behind, ByteMem.slice_take]
    rw [Indication.headerBufferSize]
    omega
  unfold coConetProtoFilterPacket Indication.For
  rw [dest, source]
  dsimp only
  split
  · rename_i same
    exact iff_of_true rfl (.inl same)
  · rename_i other
    rw [or_iff_right other]
    split
    · rename_i multicast
      rw [and_iff_right multicast]
      split
      · rename_i own
        exact iff_of_false Bool.false_ne_true fun ne => ne own
      · rename_i ne
        exact iff_of_true rfl ne
    · rename_i single
      exact iff_of_false Bool.false_ne_true fun both => single both.1

/-! ## The two paths -/

/-- The allocations behind a message. -/
def ConetAnswers.Sends (g : ConetAnswers) : Prop :=
  g.message = true ∧ g.context = true ∧ g.workItem = true

instance (g : ConetAnswers) : Decidable g.Sends := inferInstanceAs (Decidable (_ ∧ _))

@[simp] theorem coConetTransferMessage_ledger (message : CoMessage) (r : ConetRun) :
    (coConetTransferMessage g message r).ledger = r.ledger := by
  unfold coConetTransferMessage
  split_ifs <;> rfl

/-- `co_FreeBuffersAndPacket` gives back every buffer of the chain, and then the packet. -/
theorem coFreeBuffersAndPacket_eq (documented : ndis.Documented) (packet : Ψ) (r : ConetRun) :
    coFreeBuffersAndPacket ndis packet r =
      ((ndis.buffers packet).foldl (fun r b => r.release (.buffer b)) r).release .packet := by
  generalize chained : ndis.buffers packet = chain
  have unchain := documented.unchain packet
  induction chain generalizing packet r with
  | nil =>
    rw [chained] at unchain
    rw [coFreeBuffersAndPacket]
    split
    · rfl
    · rename_i some
      rw [some] at unchain
      cases unchain.1
  | cons b chain ih =>
    rw [chained] at unchain
    rw [coFreeBuffersAndPacket]
    split
    · rename_i none
      rw [none] at unchain
      cases unchain.1
    · rename_i b' packet' some
      rw [some] at unchain
      obtain rfl : b' = b := Option.some.inj unchain.1
      exact ih packet' _ unchain.2 (documented.unchain packet')

theorem coFreeBuffersAndPacket_queued (documented : ndis.Documented) (packet : Ψ) (r : ConetRun) :
    (coFreeBuffersAndPacket ndis packet r).queued = r.queued := by
  rw [coFreeBuffersAndPacket_eq documented]
  generalize ndis.buffers packet = chain
  rw [ConetRun.release]
  induction chain generalizing r with
  | nil => rfl
  | cons b chain ih => exact ih (r.release (.buffer b))

/-- The handlers' way to send a message, for a run that has sent none. -/
theorem sendMessage_queued {m : ByteMem} {message : CoMessage} {r : ConetRun}
    (first : r.queued = []) (header : m.slice 0 f.headerBufferSize = f.header) :
    (if ¬ coConetProtoFilterPacket adapter m then r
      else if ¬ g.message then r else coConetTransferMessage g message r).queued =
      if f.For adapter ∧ g.Sends then [message] else [] := by
  have accepts : coConetProtoFilterPacket adapter m = true ↔ f.For adapter :=
    filterPacket_iff header
  unfold coConetTransferMessage ConetAnswers.Sends
  by_cases dest : f.For adapter
  · rw [if_neg (not_not.mpr (accepts.mpr dest))]
    by_cases memory : g.message = true <;> by_cases context : g.context = true <;>
      by_cases workItem : g.workItem = true <;> simp [first, dest, memory, context, workItem]
  · rw [if_pos (fun accepted => dest (accepts.mp accepted)), first,
      if_neg (fun both => dest both.1)]

theorem sendMessage_ledger {m : ByteMem} {message : CoMessage} (r : ConetRun) :
    (if ¬ coConetProtoFilterPacket adapter m then r
      else if ¬ g.message then r else coConetTransferMessage g message r).ledger = r.ledger := by
  split_ifs
  · exact coConetTransferMessage_ledger message r
  · rfl
  · rfl

/-- Nothing is left of a packet that is given back. -/
theorem coFreeBuffersAndPacket_ledger (documented : ndis.Documented) {packet : Ψ}
    {b b' : NdisBuffer} (chained : ndis.buffers packet = [b, b']) (ne : b ≠ b') {r : ConetRun}
    (held : r.ledger = ((Ledger.empty.acquire .packet).acquire (.buffer b)).acquire (.buffer b')) :
    (coFreeBuffersAndPacket ndis packet r).ledger = .empty := by
  have ne' : ConetResource.buffer b ≠ .buffer b' := fun same => ne (ConetResource.buffer.inj same)
  rw [coFreeBuffersAndPacket_eq documented, chained]
  unfold ConetRun.release
  simp only [List.foldl_cons, List.foldl_nil]
  rw [held, Ledger.release_acquire_ne _ ne', Ledger.release_acquire, Ledger.release_acquire,
    Ledger.release_acquire]

theorem total_eq : (f.headerBufferSize + f.packetSize) % wordSize = f.packet.length := by
  rw [length_packet]
  exact Nat.mod_eq_of_lt f.inMemory

theorem packetRun_big (big : ¬ f.Fits) : packetRun ndis adapter g f o = ⟨.empty, []⟩ := by
  unfold packetRun coConetProtoReceive
  rw [total_eq, if_pos (Nat.lt_of_not_le big)]
  rfl

theorem whole_iff : f.lookAheadBufferSize = f.packetSize ↔ f.Whole := by
  unfold Indication.lookAheadBufferSize Indication.packetSize Indication.Whole
  rw [← List.length_eq_zero_iff]
  omega

/-- A packet that is there at once. -/
theorem packetRun_whole (fits : f.Fits) (whole : f.Whole) :
    (packetRun ndis adapter g f o).ledger = .empty ∧ (packetRun ndis adapter g f o).queued =
      if f.For adapter ∧ g.Sends then
        [conetReceived adapter (f.headerBufferSize + f.lookAheadBufferSize)
          (moveParts f g.messageMemory)] else [] := by
  have run : packetRun ndis adapter g f o =
      if ¬ coConetProtoFilterPacket adapter (ByteMem.ofList f.header) then ⟨.empty, []⟩
      else if ¬ g.message then ⟨.empty, []⟩
      else coConetTransferMessage g (conetReceived adapter
        (f.headerBufferSize + f.lookAheadBufferSize) (moveParts f g.messageMemory))
          ⟨.empty, []⟩ := by
    unfold packetRun coConetProtoReceive
    rw [total_eq, if_neg (Nat.not_lt.mpr fits), if_pos (whole_iff.mpr whole)]
    split_ifs <;> rfl
  rw [run]
  exact ⟨sendMessage_ledger _, sendMessage_queued rfl (ByteMem.slice_ofList f.header)⟩

/-- The packet, with what NDIS has done. -/
def transferredPacket (ndis : Ndis Ψ) (f : Indication) (o : TransferOutcome) (m : ByteMem) :
    ConetPacket Ψ where
  ndisPacket := givenPacket ndis f
  transferStatus := o.returned.1
  bytesTransferred := o.returned.2
  packetBuffer := transferredBuffer ndis f o m

/-- What is held while the transfer goes on. -/
def givenRun (f : Indication) : ConetRun :=
  (((ConetRun.acquire ⟨.empty, []⟩ .packet).acquire
    (.buffer ⟨0, f.headerBufferSize + f.lookAheadBufferSize⟩)).acquire
      (.buffer ⟨f.headerBufferSize + f.lookAheadBufferSize, f.remainder.length⟩)).acquire
        .pendingEntry

/-- Its buffers in the order of what is in them. -/
theorem chainFrontAtBack_buffers (documented : ndis.Documented) :
    ndis.buffers (chainFrontAtBack ndis (givenPacket ndis f)) =
      [⟨0, f.headerBufferSize + f.lookAheadBufferSize⟩,
        ⟨f.headerBufferSize + f.lookAheadBufferSize, f.remainder.length⟩] := by
  have unchain := documented.unchain (givenPacket ndis f)
  rw [givenPacket_buffers documented] at unchain
  unfold chainFrontAtBack
  split
  · rename_i none
    rw [none] at unchain
    cases unchain.1
  · rename_i b packet some
    rw [some] at unchain
    rw [documented.back, unchain.2, Option.some.inj unchain.1]
    rfl

/-- `co_conet_proto_transfer_complete` does the same whatever it is told. -/
theorem transferComplete_given (documented : ndis.Documented) (status : NdisStatus) (bytes : Nat) :
    (coConetProtoTransferComplete ndis adapter g (transferredPacket ndis f o g.packetMemory) status
      bytes (givenRun f)).ledger = .empty ∧
    (coConetProtoTransferComplete ndis adapter g (transferredPacket ndis f o g.packetMemory) status
      bytes (givenRun f)).queued =
        if f.For adapter ∧ g.Sends then
          [conetReceived adapter f.packet.length (g.messageMemory.copyBytes 0 f.packet.length
            (transferredBuffer ndis f o g.packetMemory))] else [] := by
  have chained := @chainFrontAtBack_buffers Ψ ndis f documented
  have total : ndis.queryPacketLength
      (chainFrontAtBack ndis (transferredPacket ndis f o g.packetMemory).ndisPacket) =
        f.packet.length := by
    rw [transferredPacket, documented.length, chained, length_packet]
    exact Nat.add_assoc ..
  have pending : ((givenRun f).release .pendingEntry).ledger =
      ((Ledger.empty.acquire .packet).acquire
        (.buffer ⟨0, f.headerBufferSize + f.lookAheadBufferSize⟩)).acquire
          (.buffer ⟨f.headerBufferSize + f.lookAheadBufferSize, f.remainder.length⟩) := by
    unfold givenRun ConetRun.release ConetRun.acquire
    rw [Ledger.release_acquire]
  have ne : (⟨0, f.headerBufferSize + f.lookAheadBufferSize⟩ : NdisBuffer) ≠
      ⟨f.headerBufferSize + f.lookAheadBufferSize, f.remainder.length⟩ := by
    intro same
    have start := congrArg NdisBuffer.start same
    have long := f.addresses
    simp only [Indication.headerBufferSize] at start
    omega
  unfold coConetProtoTransferComplete
  dsimp only
  rw [total]
  constructor
  · exact coFreeBuffersAndPacket_ledger documented chained ne ((sendMessage_ledger _).trans pending)
  · rw [coFreeBuffersAndPacket_queued documented]
    exact sendMessage_queued rfl (transferredBuffer_header documented g.packetMemory)

/-- What a packet with a remainder needs. -/
def ConetAnswers.GivesPacket (g : ConetAnswers) : Prop :=
  g.packet = true ∧ g.headerBuffer = true ∧ g.transferBuffer = true

theorem packetRun_split (fits : f.Fits) (split : ¬ f.Whole) :
    packetRun ndis adapter g f o =
      (receiveRemainder ndis adapter g f o ⟨.empty, []⟩).finish ndis adapter g o := by
  unfold packetRun coConetProtoReceive
  rw [total_eq, if_neg (Nat.not_lt.mpr fits), if_neg fun same => split (whole_iff.mp same)]

/-- A packet whose remainder is asked for is handed to the handler once, by NDIS or by
`co_conet_proto_receive`. -/
theorem packetRun_given (fits : f.Fits) (split : ¬ f.Whole) (gives : g.GivesPacket) :
    ∃ status bytes, packetRun ndis adapter g f o = coConetProtoTransferComplete ndis adapter g
      (transferredPacket ndis f o g.packetMemory) status bytes (givenRun f) := by
  obtain ⟨packet, header, transfer⟩ := gives
  rw [packetRun_split fits split]
  unfold receiveRemainder
  rw [packetSize_sub, if_neg (not_not.mpr packet), if_neg (not_not.mpr header),
    if_neg (not_not.mpr transfer)]
  by_cases pending : o.returned.1 = .pending
  · refine ⟨o.completed.1, o.completed.2, ?_⟩
    have left : ¬ (transferredPacket ndis f o g.packetMemory).transferStatus ≠ .pending :=
      not_not.mpr pending
    exact congrArg (ReceiveResult.finish ndis adapter g o) (if_neg left)
  · refine ⟨o.returned.1, o.returned.2, ?_⟩
    have done : (transferredPacket ndis f o g.packetMemory).transferStatus ≠ .pending := pending
    exact congrArg (ReceiveResult.finish ndis adapter g o) (if_pos done)

/-- Where an allocation fails before the transfer, what there is is given back. -/
theorem packetRun_refused (documented : ndis.Documented) (fits : f.Fits) (split : ¬ f.Whole)
    (refused : ¬ g.GivesPacket) :
    packetRun ndis adapter g f o = ⟨.empty, []⟩ := by
  rw [packetRun_split fits split]
  unfold receiveRemainder
  by_cases packet : g.packet = true
  · rw [if_neg (not_not.mpr packet)]
    by_cases header : g.headerBuffer = true
    · have transfer : ¬ g.transferBuffer = true :=
        fun transfer => refused ⟨packet, header, transfer⟩
      rw [if_neg (not_not.mpr header), if_pos transfer, coFreeBuffersAndPacket_eq documented,
        documented.front, documented.newPacket]
      simp [ReceiveResult.finish, ConetRun.acquire, ConetRun.release]
    · rw [if_pos header]
      simp [ReceiveResult.finish, ConetRun.acquire, ConetRun.release]
  · rw [if_pos packet]
    rfl

/-! ## Which packets are handled as they should be -/

theorem granted_whole (whole : f.Whole) : f.Granted g ↔ g.Sends := by
  unfold Indication.Granted ConetAnswers.Sends
  rw [← and_assoc, and_assoc]
  exact ⟨fun ⟨message, context, workItem, _⟩ => ⟨message, context, workItem⟩,
    fun ⟨message, context, workItem⟩ => ⟨message, context, workItem, fun some => absurd whole some⟩⟩

theorem granted_split (split : ¬ f.Whole) : f.Granted g ↔ g.Sends ∧ g.GivesPacket := by
  unfold Indication.Granted ConetAnswers.Sends ConetAnswers.GivesPacket
  constructor
  · rintro ⟨message, context, workItem, gives⟩
    exact ⟨⟨message, context, workItem⟩, gives split⟩
  · rintro ⟨⟨message, context, workItem⟩, gives⟩
    exact ⟨message, context, workItem, fun _ => gives⟩

/-- A packet with a remainder is sent, transferred or not. -/
theorem packetRun_remainder (documented : ndis.Documented) (fits : f.Fits) (split : ¬ f.Whole) :
    (packetRun ndis adapter g f o).ledger = .empty ∧ (packetRun ndis adapter g f o).queued =
      if f.For adapter ∧ f.Granted g then
        [conetReceived adapter f.packet.length (g.messageMemory.copyBytes 0 f.packet.length
          (transferredBuffer ndis f o g.packetMemory))] else [] := by
  by_cases gives : g.GivesPacket
  · obtain ⟨status, bytes, run⟩ := @packetRun_given Ψ ndis adapter g f o fits split gives
    rw [run]
    simp only [granted_split split, and_iff_left gives]
    exact transferComplete_given documented status bytes
  · rw [packetRun_refused documented fits split gives, if_neg]
    · exact ⟨rfl, rfl⟩
    · exact fun both => gives ((granted_split split).mp both.2).2

theorem packetRun_ledger (documented : ndis.Documented) :
    (packetRun ndis adapter g f o).ledger = .empty := by
  by_cases fits : f.Fits
  · by_cases whole : f.Whole
    · exact (packetRun_whole fits whole).1
    · exact (packetRun_remainder documented fits whole).1
  · rw [packetRun_big fits]

/-- The message is the same on both paths. -/
theorem packetRun_identical (documented : ndis.Documented)
    (there : f.Whole ∨ f.Transferred o) :
    (packetRun ndis adapter g f o).queued.map CoMessage.bytes =
      if f.Fits ∧ f.For adapter ∧ f.Granted g then [(packetMessage adapter f.packet).bytes]
      else [] := by
  by_cases fits : f.Fits
  · simp only [fits, true_and]
    by_cases whole : f.Whole
    · have data : (moveParts f g.messageMemory).slice 0
          (f.headerBufferSize + f.lookAheadBufferSize) = f.packet := by
        rw [moveParts_slice, Indication.packet, show f.remainder = [] from whole, List.append_nil]
      have small : f.headerBufferSize + f.lookAheadBufferSize ≤ conetMaxPacketSize := by
        rw [whole_iff.mpr whole, ← length_packet]
        exact fits
      rw [(packetRun_whole fits whole).2]
      simp only [granted_whole whole]
      split_ifs
      · rw [List.map_singleton, packetMessage_bytes small data]
      · rfl
    · have done : f.Transferred o := there.resolve_left whole
      have data : (g.messageMemory.copyBytes 0 f.packet.length
          (transferredBuffer ndis f o g.packetMemory)).slice 0 f.packet.length = f.packet := by
        rw [ByteMem.slice_copyBytes_inside, length_packet,
          transferredBuffer_packet documented _ done]
      rw [(packetRun_remainder documented fits whole).2]
      split_ifs
      · rw [List.map_singleton, packetMessage_bytes fits data]
      · rfl
  · rw [packetRun_big fits, if_neg fun all => fits all.1]
    rfl

/-- NDIS with the chain itself as the descriptor. -/
def chainNdis : Ndis (List NdisBuffer) where
  buffers := id
  newPacket := []
  chainBufferAtFront chain b := b :: chain
  chainBufferAtBack chain b := chain ++ [b]
  unchainBufferAtFront chain := (chain.head?, chain.tail)
  queryPacketLength chain := (chain.map NdisBuffer.length).sum
  transferData f skip count chain o m :=
    match chain with
    | [] => m
    | b :: _ => m.copyBytes b.start (min o.final.2 (min count b.length))
        (ByteMem.ofList ((f.lookAhead ++ f.remainder).drop skip))
  unchain_lt := by
    rintro (_ | ⟨b, chain⟩) chain' b' unchained
    · cases unchained
    · obtain rfl := (Prod.mk.inj unchained).2
      exact Nat.lt_succ_self _

theorem chainNdis_documented : chainNdis.Documented where
  newPacket := rfl
  front _ _ := rfl
  back _ _ := rfl
  unchain _ := ⟨rfl, rfl⟩
  length _ := rfl
  outside := by
    rintro f skip count (_ | ⟨b, chain⟩) o m b' first i away
    · rfl
    · obtain rfl := Option.some.inj first
      exact ByteMem.copyBytes_outside _ _ (by omega)
  transferred := by
    rintro f skip count (_ | ⟨b, chain⟩) o m b' first - i moved asked inside
    · cases first
    · obtain rfl := Option.some.inj first
      refine (ByteMem.copyBytes_inside _ _ (Nat.le_add_right ..) (by omega)).trans ?_
      rw [Nat.add_sub_cancel_left]
      simp [ByteMem.ofList, List.getD]

/-- A broadcast of which NDIS indicates the header and two of five bytes. -/
def splitBroadcast : Indication where
  header := List.replicate 6 255 ++ List.replicate 8 0
  lookAhead := [1, 2]
  remainder := [3, 4, 5]
  addresses := by decide
  inMemory := by decide

/-- Everything is granted. -/
def grantedAnswers : ConetAnswers where
  packetMemory := fun _ => 0
  messageMemory := fun _ => 0
  packet := true
  headerBuffer := true
  transferBuffer := true
  message := true
  context := true
  workItem := true

end CoLinux
