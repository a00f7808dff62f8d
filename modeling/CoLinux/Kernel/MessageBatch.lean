import CoLinux.Common.Messages
import Mathlib.Data.List.Infix
import Mathlib.Tactic.SplitIfs

/-!
# Message batches for the guest

`callback_return_messages` of `kernel/monitor.c` packs queued messages into the io buffer, and
the loop of the guest's `co_callback` takes the buffer apart again. Host addresses inside the
buffer are offsets from `io_buffer->buffer`; the queue is the list of its messages, oldest
first.
-/

namespace CoLinux

open Lib

/-- `co_io_buffer_t`. -/
structure CoIoBuffer where
  messagesWaiting : Nat
  buffer : ByteMem

/-- `CO_VPTR_IO_AREA_SIZE - sizeof(co_io_buffer_t)`: the bytes of `io_buffer->buffer`. -/
abbrev ioBufferCapacity : Nat := coVptrIoAreaSize - sizeofCoIoBuffer

/-- What `callback_return_messages` works on. -/
structure MessageState where
  linuxMessageQueue : List CoMessage
  ioBuffer : CoIoBuffer
  /-- `co_passage_page->params[0]`. -/
  params0 : Nat

/-- The variables of the packing loop. -/
structure Packing where
  queue : List CoMessage
  offset : Nat
  ioBuffer : CoIoBuffer

/-- The loop of `callback_return_messages`. A message with a bad id is dropped, and ends it. -/
def packMessages : List CoMessage → Nat → CoIoBuffer → Packing
  | [], offset, io => ⟨[], offset, io⟩
  | message :: queue, offset, io =>
    if ioBufferCapacity < offset + message.totalSize then ⟨message :: queue, offset, io⟩
    else if coModulesMax ≤ message.fromModule then ⟨queue, offset, io⟩
    else if coModulesMax ≤ message.toModule then ⟨queue, offset, io⟩
    else if coDevicesTotal ≤ message.device then ⟨queue, offset, io⟩
    else
      packMessages queue (offset + message.totalSize)
        { messagesWaiting := io.messagesWaiting + 1
          buffer := io.buffer.copyBytes offset message.totalSize message }

/-- `callback_return_messages`. -/
def callbackReturnMessages (s : MessageState) : MessageState :=
  if s.ioBuffer.messagesWaiting ≠ 0 then { s with params0 := 0 }
  else
    let packing := packMessages s.linuxMessageQueue 0 { s.ioBuffer with messagesWaiting := 0 }
    { linuxMessageQueue := packing.queue
      ioBuffer := packing.ioBuffer
      params0 := packing.offset }

theorem callbackReturnMessages_of_idle {s : MessageState} (h : s.ioBuffer.messagesWaiting = 0) :
    callbackReturnMessages s =
      { linuxMessageQueue := (packMessages s.linuxMessageQueue 0 s.ioBuffer).queue
        ioBuffer := (packMessages s.linuxMessageQueue 0 s.ioBuffer).ioBuffer
        params0 := (packMessages s.linuxMessageQueue 0 s.ioBuffer).offset } := by
  have same : CoIoBuffer.mk 0 s.ioBuffer.buffer = s.ioBuffer := by rw [← h]
  unfold callbackReturnMessages
  rw [if_neg (not_not.mpr h)]
  simp only [same]

/-- Packing only takes messages off the front of the queue. -/
theorem packMessages_suffix (queue : List CoMessage) (offset : Nat) (io : CoIoBuffer) :
    (packMessages queue offset io).queue <:+ queue := by
  induction queue generalizing offset io with
  | nil => exact List.suffix_refl _
  | cons m queue ih =>
    unfold packMessages
    split_ifs
    · exact List.suffix_refl _
    · exact List.suffix_cons _ _
    · exact List.suffix_cons _ _
    · exact List.suffix_cons _ _
    · exact (ih _ _).trans (List.suffix_cons _ _)

theorem callbackReturnMessages_suffix (s : MessageState) :
    (callbackReturnMessages s).linuxMessageQueue <:+ s.linuxMessageQueue := by
  unfold callbackReturnMessages
  split_ifs
  · exact List.suffix_refl _
  · exact packMessages_suffix _ _ _

/-- A message that fits an empty buffer leaves the queue, whatever its ids are. -/
theorem callbackReturnMessages_pops {s : MessageState} (idle : s.ioBuffer.messagesWaiting = 0)
    {m : CoMessage} {queue : List CoMessage} (head : s.linuxMessageQueue = m :: queue)
    (fits : m.totalSize ≤ ioBufferCapacity) :
    (callbackReturnMessages s).linuxMessageQueue.length < s.linuxMessageQueue.length := by
  rw [callbackReturnMessages_of_idle idle, head, packMessages, Nat.zero_add,
    if_neg (Nat.not_lt.mpr fits)]
  split_ifs
  · exact Nat.lt_succ_self _
  · exact Nat.lt_succ_self _
  · exact Nat.lt_succ_self _
  · exact Nat.lt_succ_of_le (packMessages_suffix _ _ _).length_le

/-! ## The guest -/

/-- The checks of one turn of the loop of `co_callback`; `none` is a `BUG_ON`. -/
def coCallbackMessage (tempStorage : ByteMem) (offset : Nat) : Option CoMessage :=
  let message : CoMessage := fun i => tempStorage (offset + i)
  if coModulesMax ≤ message.fromModule then none
  else if coModulesMax ≤ message.toModule then none
  else if coDevicesTotal ≤ message.device then none
  else some message

/-- `co_message_add_to_incoming`; `allocated` says whether `kmalloc` succeeds. -/
def coMessageAddToIncoming (allocated : Bool) (message : CoMessage)
    (incoming : List (List UInt8)) : List (List UInt8) :=
  if allocated then incoming ++ [message.slice 0 message.totalSize] else incoming

/-- The loop of `co_callback` with a bound on its turns; `alloc` has the answer of each
`kmalloc`. -/
def coCallbackMessages (alloc : Nat → Bool) (tempStorage : ByteMem) (ioSize : Nat) :
    Nat → Nat → List (List UInt8) → Option (List (List UInt8))
  | 0, _, _ => none
  | fuel + 1, offset, incoming =>
    if offset < ioSize then
      match coCallbackMessage tempStorage offset with
      | none => none
      | some message =>
        coCallbackMessages alloc tempStorage ioSize fuel (offset + message.totalSize)
          (coMessageAddToIncoming (alloc offset) message incoming)
    else some incoming

/-! ## Valid messages -/

/-- A message with ids in range, among them the device id at the start of its data. -/
structure CoMessage.Valid (m : CoMessage) : Prop where
  fromModule : m.fromModule < coModulesMax
  toModule : m.toModule < coModulesMax
  device : m.device < coDevicesTotal
  deviceInside : 4 ≤ m.size
  fits : m.Fits

theorem coMessageDup_valid {m : CoMessage} (h : m.Valid) (memory : ByteMem) :
    (coMessageDup memory m).Valid := by
  have size := coMessageDup_size h.fits memory
  have word : ∀ a, a ≤ 20 → (coMessageDup memory m).readWord a = m.readWord a := by
    intro a ha
    have := h.deviceInside
    exact coMessageDup_word h.fits memory (by simp only [sizeofCoMessage]; omega)
  refine ⟨?_, ?_, ?_, ?_, ?_⟩
  · exact lt_of_eq_of_lt (word 0 (by omega)) h.fromModule
  · exact lt_of_eq_of_lt (word 4 (by omega)) h.toModule
  · exact lt_of_eq_of_lt (word 20 (by omega)) h.device
  · rw [size]
    exact h.deviceInside
  · unfold CoMessage.Fits
    rw [size]
    exact h.fits

/-- The bytes of a batch. -/
def batchBytes (ms : List CoMessage) : List UInt8 := (ms.map CoMessage.bytes).flatten

@[simp] theorem batchBytes_nil : batchBytes [] = [] := rfl

@[simp] theorem batchBytes_cons (m : CoMessage) (ms : List CoMessage) :
    batchBytes (m :: ms) = m.bytes ++ batchBytes ms := rfl

/-- `packed` is the longest prefix of `packed ++ rest` that fits `capacity` bytes. -/
def LongestFitting (capacity : Nat) (packed rest : List CoMessage) : Prop :=
  (batchBytes packed).length ≤ capacity ∧
    ∀ m ms, rest = m :: ms → capacity < (batchBytes packed).length + (sizeofCoMessage + m.size)

/-- The packing loop appends the longest fitting prefix of the queue to the buffer. -/
theorem packMessages_spec {queue : List CoMessage} (valid : ∀ m ∈ queue, m.Valid) {offset : Nat}
    (io : CoIoBuffer) (room : offset ≤ ioBufferCapacity) :
    ∃ packed, queue = packed ++ (packMessages queue offset io).queue ∧
      LongestFitting (ioBufferCapacity - offset) packed (packMessages queue offset io).queue ∧
      (packMessages queue offset io).offset = offset + (batchBytes packed).length ∧
      (packMessages queue offset io).ioBuffer.messagesWaiting =
        io.messagesWaiting + packed.length ∧
      (packMessages queue offset io).ioBuffer.buffer.slice offset (batchBytes packed).length =
        batchBytes packed ∧
      ∀ x, x < offset → (packMessages queue offset io).ioBuffer.buffer x = io.buffer x := by
  induction queue generalizing offset io with
  | nil => exact ⟨[], rfl, ⟨Nat.zero_le _, by simp [packMessages]⟩, rfl, rfl, rfl, fun _ _ => rfl⟩
  | cons m queue ih =>
    have hm := valid m List.mem_cons_self
    have total := CoMessage.totalSize_eq hm.fits
    by_cases full : ioBufferCapacity < offset + m.totalSize
    · rw [packMessages, if_pos full]
      refine ⟨[], rfl, ⟨Nat.zero_le _, ?_⟩, rfl, rfl, rfl, fun _ _ => rfl⟩
      intro m' ms' same
      obtain ⟨rfl, rfl⟩ := List.cons.inj same
      rw [total] at full
      exact Nat.sub_lt_left_of_lt_add room (by simpa using full)
    · simp only [packMessages, if_neg full, if_neg (Nat.not_le.mpr hm.fromModule),
        if_neg (Nat.not_le.mpr hm.toModule), if_neg (Nat.not_le.mpr hm.device)]
      generalize hio : (CoIoBuffer.mk (io.messagesWaiting + 1)
        (io.buffer.copyBytes offset m.totalSize m)) = io'
      obtain ⟨packed, prefixed, ⟨small, next⟩, end_, waiting, stored, kept⟩ :=
        ih (fun m' hm' => valid m' (List.mem_cons_of_mem _ hm')) io' (Nat.not_lt.mp full)
      have length : (batchBytes (m :: packed)).length = m.totalSize + (batchBytes packed).length := by
        rw [batchBytes_cons, List.length_append, CoMessage.length_bytes, total]
      refine ⟨m :: packed, congrArg (m :: ·) prefixed, ⟨?_, ?_⟩, ?_, ?_, ?_, ?_⟩
      · omega
      · intro m' ms' same
        have := next m' ms' same
        omega
      · omega
      · rw [waiting, ← hio, List.length_cons, Nat.add_assoc, Nat.add_comm 1]
      · have first : (packMessages queue (offset + m.totalSize) io').ioBuffer.buffer.slice offset
            m.totalSize = m.bytes := by
          calc _ = io'.buffer.slice offset m.totalSize :=
                ByteMem.slice_congr fun i hi => kept _ (by omega)
            _ = m.bytes := by
                rw [← hio, ByteMem.slice_copyBytes_inside, total]
                rfl
        rw [length, ByteMem.slice_add, first, stored, batchBytes_cons]
      · intro x hx
        rw [kept x (by omega), ← hio]
        exact io.buffer.copyBytes_outside m (by omega)

/-- Memory that holds a message shows the same message. -/
theorem coCallbackMessage_of_bytes {m : CoMessage} (hm : m.Valid) {mem : ByteMem} {offset : Nat}
    (h : mem.slice offset (sizeofCoMessage + m.size) = m.bytes) :
    ∃ message, coCallbackMessage mem offset = some message ∧ message.totalSize = m.totalSize ∧
      message.slice 0 m.totalSize = m.bytes := by
  have same : ∀ i, i < sizeofCoMessage + m.size → mem (offset + i) = m i := by
    intro i hi
    have := ByteMem.slice_inj h hi
    rwa [Nat.zero_add] at this
  have word : ∀ a, a ≤ 20 → ByteMem.readWord (fun i => mem (offset + i)) a = m.readWord a := by
    intro a ha
    have := hm.deviceInside
    simp only [sizeofCoMessage] at same
    exact ByteMem.readWord_congr fun x _ _ => same x (by omega)
  refine ⟨fun i => mem (offset + i), ?_, ?_, ?_⟩
  · have hfrom : CoMessage.fromModule (fun i => mem (offset + i)) < coModulesMax :=
      lt_of_eq_of_lt (word 0 (by omega)) hm.fromModule
    have hto : CoMessage.toModule (fun i => mem (offset + i)) < coModulesMax :=
      lt_of_eq_of_lt (word 4 (by omega)) hm.toModule
    have hdevice : CoMessage.device (fun i => mem (offset + i)) < coDevicesTotal :=
      lt_of_eq_of_lt (word 20 (by omega)) hm.device
    simp only [coCallbackMessage, if_neg (Nat.not_le.mpr hfrom), if_neg (Nat.not_le.mpr hto),
      if_neg (Nat.not_le.mpr hdevice)]
  · simp only [CoMessage.totalSize, CoMessage.size]
    rw [word 16 (by omega)]
  · rw [CoMessage.totalSize_eq hm.fits, ← h]
    exact ByteMem.slice_congr fun i _ => by rw [Nat.zero_add]

/-- The guest's loop takes a stored batch apart. -/
theorem coCallbackMessages_of_batch {ms : List CoMessage} (valid : ∀ m ∈ ms, m.Valid)
    {mem : ByteMem} {ioSize offset : Nat} (size : ioSize = offset + (batchBytes ms).length)
    (h : mem.slice offset (batchBytes ms).length = batchBytes ms) {fuel : Nat}
    (enough : ms.length < fuel) (incoming : List (List UInt8)) :
    coCallbackMessages (fun _ => true) mem ioSize fuel offset incoming =
      some (incoming ++ ms.map CoMessage.bytes) := by
  induction ms generalizing offset fuel incoming with
  | nil =>
    obtain ⟨fuel, rfl⟩ := Nat.exists_eq_succ_of_ne_zero (Nat.ne_of_gt enough)
    rw [coCallbackMessages, if_neg (by simp [size])]
    simp
  | cons m ms ih =>
    obtain ⟨fuel, rfl⟩ := Nat.exists_eq_succ_of_ne_zero (Nat.ne_zero_of_lt enough)
    have hm := valid m List.mem_cons_self
    have length : (batchBytes (m :: ms)).length =
        sizeofCoMessage + m.size + (batchBytes ms).length := by simp
    rw [length, ByteMem.slice_add, batchBytes_cons] at h
    obtain ⟨first, others⟩ := List.append_inj h (by simp)
    obtain ⟨message, found, total, block⟩ := coCallbackMessage_of_bytes hm first
    have whole := CoMessage.totalSize_eq hm.fits
    have more : offset < ioSize := by
      simp only [sizeofCoMessage] at length
      omega
    rw [coCallbackMessages, if_pos more, found]
    simp only [coMessageAddToIncoming, if_true, total, block]
    rw [ih (fun m' hm' => valid m' (List.mem_cons_of_mem _ hm')) (by omega)
      (by rw [whole]; exact others) (by simpa using enough)]
    simp

/-! ## The round trip -/

/-- A batch goes through the io buffer unchanged: the longest fitting prefix of the queue is
packed, and the guest's loop over the bytes that `params[0]` announces yields its messages,
headers and data, in order; the rest of the queue stays. -/
theorem callbackReturnMessages_roundTrip (s : MessageState)
    (valid : ∀ m ∈ s.linuxMessageQueue, m.Valid) (idle : s.ioBuffer.messagesWaiting = 0) :
    ∃ packed, s.linuxMessageQueue = packed ++ (callbackReturnMessages s).linuxMessageQueue ∧
      LongestFitting ioBufferCapacity packed (callbackReturnMessages s).linuxMessageQueue ∧
      (callbackReturnMessages s).params0 = (batchBytes packed).length ∧
      (callbackReturnMessages s).ioBuffer.messagesWaiting = packed.length ∧
      ∀ (tempStorage : ByteMem) (incoming : List (List UInt8)) (fuel : Nat),
        (callbackReturnMessages s).ioBuffer.messagesWaiting < fuel →
        coCallbackMessages (fun _ => true)
          (tempStorage.copyBytes 0 (callbackReturnMessages s).params0
            (callbackReturnMessages s).ioBuffer.buffer)
          (callbackReturnMessages s).params0 fuel 0 incoming =
            some (incoming ++ packed.map CoMessage.bytes) := by
  rw [callbackReturnMessages_of_idle idle]
  obtain ⟨packed, prefixed, longest, size, waiting, stored, -⟩ :=
    packMessages_spec valid s.ioBuffer (Nat.zero_le _)
  rw [Nat.zero_add] at size
  rw [idle, Nat.zero_add] at waiting
  refine ⟨packed, prefixed, longest, size, waiting, ?_⟩
  intro tempStorage incoming fuel enough
  have validPacked : ∀ m ∈ packed, m.Valid := fun m hm =>
    valid m (prefixed ▸ List.mem_append_left _ hm)
  apply coCallbackMessages_of_batch validPacked
  · exact size.trans (Nat.zero_add _).symm
  · rw [← size, ByteMem.slice_copyBytes_inside, size, stored]
  · rwa [waiting] at enough

/-- A key press and a network packet on the queue of an idle monitor. -/
def keyAndPacket : MessageState where
  linuxMessageQueue := [coMessage 2 0 1 1 17 (coLinuxMessage 2 0 5 fun i => UInt8.ofNat i),
    coMessage 8 0 0 1 72 (coLinuxMessage 3 0 60 fun _ => 255)]
  ioBuffer := { messagesWaiting := 0, buffer := fun _ => 0 }
  params0 := 0

theorem keyAndPacket_valid : ∀ m ∈ keyAndPacket.linuxMessageQueue, m.Valid := by
  intro m hm
  rcases List.mem_pair.mp hm with rfl | rfl
  · constructor <;> decide
  · constructor <;> decide

theorem callbackReturnMessages_roundTrip_keyAndPacket :
    ∃ packed, keyAndPacket.linuxMessageQueue =
        packed ++ (callbackReturnMessages keyAndPacket).linuxMessageQueue ∧
      (callbackReturnMessages keyAndPacket).params0 = (batchBytes packed).length := by
  obtain ⟨packed, prefixed, -, size, -⟩ :=
    callbackReturnMessages_roundTrip keyAndPacket keyAndPacket_valid rfl
  exact ⟨packed, prefixed, size⟩

end CoLinux
