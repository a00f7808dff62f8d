import CoLinux.Kernel.MessageChannel

/-!
# No message is lost, repeated or reordered on the way to the guest

The invariant of the channel names the messages that are on their way through the shared pages
and says where their bytes are: in the io buffer from the packing step to `co_callback`, in
`temp_storage` from there on. Every step moves messages from one place to the next, oldest
first, so that the four places together always hold what was queued.
-/

namespace CoLinux

open Lib

namespace Channel

/-- The batch `ms` fills the addresses from `a` to `b`. -/
def Stored (mem : ByteMem) (a b : Nat) (ms : List CoMessage) : Prop :=
  b = a + (batchBytes ms).length ∧ mem.slice a (batchBytes ms).length = batchBytes ms

/-- A valid message that fits the io buffer. -/
def Sendable (m : CoMessage) : Prop := m.Valid ∧ sizeofCoMessage + m.size ≤ ioBufferCapacity

/-- What the producers and the allocators of the guest are assumed to do. -/
def Allowed (s : Channel) : ChannelEvent → Prop
  | .messageFromUser message _ => message.toModule = coModuleLinux → Sendable message
  | .guestSend message =>
    s.phase = .guest ∧ message.toModule < coModulesMax ∧
      sizeofCoMessage + message.size ≤ ioBufferCapacity
  | .parse allocated => allocated = true
  | _ => True

/-- The messages an event puts on the queue of the monitor. -/
def enqueued : ChannelEvent → List (List UInt8)
  | .messageFromUser message (some _) =>
    if message.toModule = coModuleLinux then [message.bytes] else []
  | _ => []

/-- The messages the guest sends in an event. -/
def sent : ChannelEvent → List (List UInt8)
  | .guestSend message => [message.bytes]
  | _ => []

/-- The invariant; `ms` are the messages in transit. -/
structure Inv (s : Channel) (ms : List CoMessage) : Prop where
  queue : ∀ m ∈ s.linuxMessageQueue, Sendable m
  valid : ∀ m ∈ ms, m.Valid
  dropped : s.droppedSends = 0
  noBug : s.phase ≠ .bug
  /-- Before `co_callback` the batch is in the io buffer. -/
  batch : s.phase = .callback → s.operation = .messageFromMonitor ∧ s.point = .running ∧
    s.params0 ≤ ioBufferCapacity ∧ Stored s.ioBuffer.buffer 0 s.params0 ms ∧
    s.ioBuffer.messagesWaiting = ms.length
  ordinary : s.phase ≠ .callback → s.point = .running → ms = []
  copied : ∀ offset ioSize, s.point = .parsing offset ioSize →
    Stored s.tempStorage offset ioSize ms
  /-- Whenever the guest can send, the buffer is free. -/
  free : s.phase = .guest ∨ s.phase = .returned → s.ioBuffer.messagesWaiting = 0
  outgoing : s.phase = .switched →
    (s.ioBuffer.messagesWaiting ≠ 0 ↔ s.operation = .messageToMonitor)
  outgoingTo : s.phase = .switched → s.operation = .messageToMonitor →
    CoMessage.toModule s.ioBuffer.buffer < coModulesMax
  resume : s.phase = .switched ∨ s.phase = .returned →
    s.operation = .idle ∨ s.operation = .forwardInterrupt → s.point = .running
  inactive : s.coMessagesActive = false → s.point = .running

/-- Everything that was accepted for the guest, in the order it passes through. -/
def accepted (s : Channel) (ms : List CoMessage) : List (List UInt8) :=
  s.handled ++ s.incoming ++ ms.map CoMessage.bytes ++ s.linuxMessageQueue.map CoMessage.bytes

/-- What a step `e` from `s` to `s'` keeps; `ms` and `ms'` are the messages in transit. -/
structure Advance (s : Channel) (ms : List CoMessage) (e : ChannelEvent) (s' : Channel)
    (ms' : List CoMessage) : Prop where
  inv : Inv s' ms'
  accepted : s.coMessagesActive = true → s'.accepted ms' = s.accepted ms ++ enqueued e
  host : s'.toHost ++ s'.outgoing = s.toHost ++ s.outgoing ++ sent e
  active : s.coMessagesActive = true → s'.coMessagesActive = true

variable {s : Channel} {ms : List CoMessage}

/-- A stored batch starts with its first message. -/
theorem Stored.cons {mem : ByteMem} {a b : Nat} {m : CoMessage} (h : Stored mem a b (m :: ms)) :
    mem.slice a (sizeofCoMessage + m.size) = m.bytes ∧
      Stored mem (a + (sizeofCoMessage + m.size)) b ms := by
  obtain ⟨size, bytes⟩ := h
  have length : (batchBytes (m :: ms)).length =
      sizeofCoMessage + m.size + (batchBytes ms).length := by simp
  rw [length, ByteMem.slice_add, batchBytes_cons] at bytes
  obtain ⟨first, others⟩ := List.append_inj bytes (by simp)
  exact ⟨first, by omega, others⟩

theorem Stored.eq_nil {mem : ByteMem} {a b : Nat} (h : Stored mem a b ms) (done : b ≤ a) :
    ms = [] := by
  cases ms with
  | nil => rfl
  | cons m ms =>
    have size := h.1
    simp only [batchBytes_cons, List.length_append, CoMessage.length_bytes,
      sizeofCoMessage] at size
    omega

theorem Stored.split {mem : ByteMem} {a b : Nat} (h : Stored mem a b ms) :
    (coMessageFraming.split (mem.slice a (b - a))).1 = ms.map CoMessage.bytes := by
  have records : ∀ r ∈ ms.map CoMessage.bytes, coMessageFraming.Record r := by
    intro r hr
    obtain ⟨m, -, rfl⟩ := List.mem_map.mp hr
    exact coMessageFraming_record_bytes m
  rw [h.1, Nat.add_sub_cancel_left, h.2, ← List.append_nil (batchBytes ms)]
  exact congrArg Prod.fst (coMessageFraming.split_unique records coMessageFraming.not_starts_nil)

/-- The bytes in the shared pages are those of the messages in transit. -/
theorem Inv.inTransit (inv : Inv s ms) : s.inTransit = ms.map CoMessage.bytes := by
  unfold Channel.inTransit
  by_cases hcallback : s.phase = .callback
  · obtain ⟨-, -, -, stored, -⟩ := inv.batch hcallback
    rw [hcallback]
    exact stored.split
  · cases hpoint : s.point with
    | running =>
      rw [inv.ordinary hcallback hpoint]
      cases hphase : s.phase <;> first | rfl | exact absurd hphase hcallback
    | parsing offset ioSize =>
      have stored := (inv.copied offset ioSize hpoint).split
      cases hphase : s.phase <;> first | exact stored | exact absurd hphase hcallback

/-! ## The steps -/

theorem Inv.messageFromUser (inv : Inv s ms) {message : CoMessage} {allocation : Option ByteMem}
    (allowed : Allowed s (.messageFromUser message allocation)) :
    Advance s ms (.messageFromUser message allocation) (s.messageFromUser message allocation)
      ms := by
  unfold Channel.messageFromUser
  by_cases accepts : message.toModule = coModuleLinux
  · rw [if_pos accepts]
    cases allocation with
    | none => exact ⟨inv, by simp [enqueued], by simp [sent], id⟩
    | some memory =>
      obtain ⟨valid, small⟩ := allowed accepts
      refine ⟨{ inv with queue := ?_ }, ?_, ?_, id⟩
      · intro m hm
        rcases List.mem_append.mp hm with hm | hm
        · exact inv.queue m hm
        · rw [List.mem_singleton.mp hm]
          refine ⟨coMessageDup_valid valid memory, ?_⟩
          rw [coMessageDup_size valid.fits]
          exact small
      · intro _
        simp [Channel.accepted, enqueued, accepts, coMessageDup_bytes valid.fits]
      · simp [sent, Channel.outgoing]
  · rw [if_neg accepts]
    cases allocation with
    | none => exact ⟨inv, by simp [enqueued], by simp [sent], id⟩
    | some memory => exact ⟨inv, by simp [enqueued, accepts], by simp [sent], id⟩

/-- A switch for a request other than `co_send_message` touches none of the places. -/
theorem Inv.guestSwitch (inv : Inv s ms) (phase : s.phase = .guest) (operation : CoOperation) :
    Advance s ms (.guestSwitch operation) (s.guestSwitch operation) ms := by
  have free := inv.free (.inl phase)
  have same : Advance s ms (.guestSwitch operation) s ms :=
    ⟨inv, by simp [enqueued], by simp [sent], id⟩
  have moved : (operation ≠ .messageToMonitor) →
      (operation = .idle ∨ operation = .forwardInterrupt → s.point = .running) →
      Advance s ms (.guestSwitch operation) { s with operation, phase := .switched } ms := by
    intro quiet resume
    refine ⟨⟨inv.queue, inv.valid, inv.dropped, ?_, ?_, ?_, inv.copied, ?_, ?_, ?_, ?_,
      inv.inactive⟩, by simp [Channel.accepted, enqueued], ?_, id⟩
    · simp
    · simp
    · exact fun _ => inv.ordinary (by simp [phase])
    · simp
    · exact fun _ => ⟨fun h => absurd free h, fun h => absurd h quiet⟩
    · exact fun _ h => absurd h quiet
    · exact fun _ => resume
    · simp [sent, Channel.outgoing, phase, quiet]
  unfold Channel.guestSwitch
  cases operation with
  | idle | forwardInterrupt =>
    by_cases running : s.point = .running
    · rw [if_pos running]
      exact moved (by simp) fun _ => running
    · rw [if_neg running]
      exact same
  | empty | start | messageToMonitor | messageFromMonitor => exact same
  | terminate | device | getTime | debugLine | getHighPrecTime | tracePoint | freePages
  | allocPages | getpp => exact moved (by simp) (by simp)

/-- The buffer is free when the guest sends, so the message is stored and not dropped. -/
theorem Inv.guestSend (inv : Inv s ms) {message : CoMessage}
    (allowed : Allowed s (.guestSend message)) :
    Advance s ms (.guestSend message) (s.guestSend message) ms := by
  obtain ⟨phase, valid, fits⟩ := allowed
  have free := inv.free (.inl phase)
  have total : message.totalSize = sizeofCoMessage + message.size :=
    CoMessage.totalSize_eq (Nat.lt_of_le_of_lt fits (by decide))
  have header : ∀ a, a + 4 ≤ sizeofCoMessage →
      (s.ioBuffer.buffer.copyBytes 0 message.totalSize message).readWord a =
        message.readWord a := by
    intro a ha
    apply ByteMem.readWord_congr
    intro x _ hx
    simp only [sizeofCoMessage] at total ha
    exact s.ioBuffer.buffer.copyBytes_inside message (Nat.zero_le x) (by omega)
  unfold Channel.guestSend
  rw [if_neg (Nat.not_lt.mpr fits), if_neg (not_not.mpr free)]
  refine ⟨⟨inv.queue, inv.valid, inv.dropped, ?_, ?_, ?_, inv.copied, ?_, ?_, ?_, ?_,
    inv.inactive⟩, by simp [Channel.accepted, enqueued], ?_, id⟩
  · simp
  · simp
  · exact fun _ => inv.ordinary (by simp [phase])
  · simp
  · simp
  · intro _ _
    have word : CoMessage.toModule (s.ioBuffer.buffer.copyBytes 0 message.totalSize message) =
        message.toModule := header 4 (by decide)
    exact lt_of_eq_of_lt word valid
  · simp
  · have size : CoMessage.size (s.ioBuffer.buffer.copyBytes 0 message.totalSize message) =
        message.size := header 16 (by decide)
    have stored : CoMessage.bytes (s.ioBuffer.buffer.copyBytes 0 message.totalSize message) =
        message.bytes := by
      unfold CoMessage.bytes
      rw [size, ← total, ByteMem.slice_copyBytes_inside]
    simp [sent, Channel.outgoing, phase, stored]

/-- `co_callback` copies the batch and only then frees the buffer. -/
theorem Inv.callback (inv : Inv s ms) (phase : s.phase = .callback) :
    ∃ ms', Advance s ms .callback s.callback ms' := by
  obtain ⟨operation, point, small, stored, waiting⟩ := inv.batch phase
  have outgoing : s.outgoing = [] := by simp [Channel.outgoing, phase]
  unfold Channel.callback
  rw [if_neg (not_not.mpr operation)]
  by_cases drains : s.coMessagesActive = true ∧ 0 < s.params0 ∧ s.params0 ≤ coVptrIoAreaSize
  · rw [if_pos drains]
    refine ⟨ms, ⟨inv.queue, inv.valid, inv.dropped, ?_, ?_, ?_, ?_, ?_, ?_, ?_, ?_, ?_⟩,
      by simp [Channel.accepted, enqueued], ?_, id⟩
    · simp
    · simp
    · simp
    · intro offset ioSize same
      obtain ⟨rfl, rfl⟩ : 0 = offset ∧ s.params0 = ioSize := by simpa using same
      have size : s.params0 = (batchBytes ms).length := stored.1.trans (Nat.zero_add _)
      refine ⟨stored.1, ?_⟩
      rw [← size, ByteMem.slice_copyBytes_inside, size]
      exact stored.2
    · simp
    · simp
    · simp
    · simp
    · simp [drains.1]
    · rw [outgoing]
      simp [sent, Channel.outgoing]
  · rw [if_neg drains]
    refine ⟨[], ⟨inv.queue, by simp, inv.dropped, ?_, ?_, ?_, ?_, ?_, ?_, ?_, ?_, ?_⟩, ?_, ?_,
      id⟩
    · simp
    · simp
    · simp
    · simp [point]
    · simp
    · simp
    · simp
    · simp
    · exact fun _ => point
    · intro active
      have empty : ms = [] := stored.eq_nil (by
        simp only [active, true_and, not_and, ioBufferCapacity, coVptrIoAreaSize,
          sizeofCoIoBuffer] at drains small
        omega)
      simp [Channel.accepted, enqueued, empty]
    · rw [outgoing]
      simp [sent, Channel.outgoing]

/-- A turn of the loop puts the first message of the copy on the incoming list. -/
theorem Inv.parse (inv : Inv s ms) (phase : s.phase = .guest) {offset ioSize : Nat}
    (point : s.point = .parsing offset ioSize) {allocated : Bool}
    (allowed : Allowed s (.parse allocated)) :
    Advance s ms (.parse allocated) (s.parse offset ioSize allocated) ms.tail := by
  have stored := inv.copied offset ioSize point
  have free := inv.free (.inl phase)
  have active : s.coMessagesActive = true := by
    rw [← Bool.not_eq_false]
    intro h
    have := inv.inactive h
    simp [point] at this
  unfold Channel.parse
  by_cases more : offset < ioSize
  · rw [if_pos more]
    cases ms with
    | nil =>
      have size := stored.1
      simp only [batchBytes_nil, List.length_nil] at size
      omega
    | cons m ms =>
      have hm := inv.valid m List.mem_cons_self
      obtain ⟨first, others⟩ := stored.cons
      obtain ⟨message, found, total, block⟩ := coCallbackMessage_of_bytes hm first
      rw [found]
      refine ⟨⟨inv.queue, fun m' hm' => inv.valid m' (List.mem_cons_of_mem _ hm'),
        inv.dropped, inv.noBug, ?_, ?_, ?_, inv.free, inv.outgoing,
        inv.outgoingTo, ?_, ?_⟩, ?_, ?_, id⟩
      · simp [phase]
      · simp
      · intro offset' ioSize' same
        obtain ⟨rfl, rfl⟩ : offset + message.totalSize = offset' ∧ ioSize = ioSize' := by
          simpa using same
        rw [total, CoMessage.totalSize_eq hm.fits]
        exact others
      · simp [phase]
      · simp [active]
      · intro _
        simp only [Allowed] at allowed
        simp [Channel.accepted, enqueued, coMessageAddToIncoming, allowed, total, block]
      · simp [sent, Channel.outgoing, phase]
  · rw [if_neg more]
    obtain rfl : ms = [] := stored.eq_nil (Nat.not_lt.mp more)
    refine ⟨⟨inv.queue, inv.valid, inv.dropped, inv.noBug, ?_, ?_, ?_, inv.free,
      inv.outgoing, inv.outgoingTo, ?_, ?_⟩, by simp [Channel.accepted, enqueued], ?_, id⟩
    · simp [phase]
    · simp
    · simp
    · simp [phase]
    · simp
    · simp [sent, Channel.outgoing, phase]

theorem Inv.handleIncoming (inv : Inv s ms) : Advance s ms .handleIncoming s.handleIncoming ms := by
  unfold Channel.handleIncoming
  cases hincoming : s.incoming with
  | nil => exact ⟨inv, by simp [enqueued], by simp [sent], id⟩
  | cons message incoming =>
    by_cases active : s.coMessagesActive = true
    · simp only [if_pos active]
      refine ⟨{ inv with }, ?_, by simp [sent, Channel.outgoing], id⟩
      simp [Channel.accepted, enqueued, hincoming]
    · simp only [if_neg active]
      exact ⟨inv, by simp [enqueued], by simp [sent], id⟩

/-- The monitor takes the message of the guest out of the buffer before it frees it. -/
theorem Inv.dispatch (inv : Inv s ms) (phase : s.phase = .switched) (params0 : Nat) :
    Advance s ms (.dispatch params0) (s.dispatch params0) ms := by
  have outgoing := inv.outgoing phase
  have ordinary : s.point = .running → ms = [] := inv.ordinary (by simp [phase])
  unfold Channel.dispatch
  cases operation : s.operation with
  | messageToMonitor =>
    refine ⟨⟨inv.queue, inv.valid, inv.dropped, ?_, ?_, ?_, inv.copied, ?_, ?_, ?_, ?_,
      inv.inactive⟩, by simp [Channel.accepted, enqueued], ?_, id⟩
    · simp
    · simp
    · exact fun _ => ordinary
    · simp
    · simp
    · simp
    · simp [operation]
    · simp [sent, Channel.outgoing, phase, operation, inv.outgoingTo phase operation]
  | terminate =>
    refine ⟨⟨inv.queue, inv.valid, inv.dropped, ?_, ?_, ?_, inv.copied, ?_, ?_, ?_, ?_,
      inv.inactive⟩, by simp [Channel.accepted, enqueued], ?_, id⟩
    · simp
    · simp
    · exact fun _ => ordinary
    · simp
    · simp
    · simp
    · simp
    · simp [sent, Channel.outgoing, operation]
  | _ =>
    rw [operation] at outgoing
    refine ⟨⟨inv.queue, inv.valid, inv.dropped, ?_, ?_, ?_, inv.copied, ?_, ?_, ?_, ?_,
      inv.inactive⟩, by simp [Channel.accepted, enqueued], ?_, id⟩
    · simp
    · simp
    · exact fun _ => ordinary
    · intro _
      simpa using outgoing
    · simp
    · simp
    · intro _ h
      exact inv.resume (.inl phase) (by simpa [operation] using h)
    · simp [sent, Channel.outgoing, operation]

/-- Packing finds the buffer free and moves the front of the queue into it. -/
theorem Inv.iterate (inv : Inv s ms) (phase : s.phase = .returned) :
    ∃ ms', Advance s ms .iterate s.iterate ms' := by
  have free := inv.free (.inr phase)
  have ordinary : s.point = .running → ms = [] := inv.ordinary (by simp [phase])
  have packs : s.operation = .idle ∨ s.operation = .forwardInterrupt →
      ∃ ms', Advance s ms .iterate
        { s with
          toMessageState := callbackReturnMessages s.toMessageState
          operation := .messageFromMonitor
          phase := .callback } ms' := by
    intro operation
    have point := inv.resume (.inr phase) operation
    have empty := ordinary point
    rw [callbackReturnMessages_of_idle free]
    obtain ⟨packed, prefixed, ⟨small, -⟩, size, waiting, stored, -⟩ :=
      packMessages_spec (fun m hm => (inv.queue m hm).1) s.ioBuffer (Nat.zero_le _)
    rw [free, Nat.zero_add] at waiting
    rw [Nat.sub_zero] at small
    have mem : ∀ m, m ∈ packed ∨ m ∈ (packMessages s.linuxMessageQueue 0 s.ioBuffer).queue →
        Sendable m := fun m hm => inv.queue m (by rw [prefixed]; exact List.mem_append.mpr hm)
    refine ⟨packed, ⟨fun m hm => mem m (.inr hm), fun m hm => (mem m (.inl hm)).1, inv.dropped,
      ?_, ?_, ?_, ?_, ?_, ?_, ?_, ?_, inv.inactive⟩, ?_, ?_, id⟩
    · simp
    · intro _
      rw [Nat.zero_add] at size
      exact ⟨rfl, point, by rw [size]; exact small,
        ⟨size.trans (Nat.zero_add _).symm, stored⟩, waiting⟩
    · simp
    · simp [point]
    · simp
    · simp
    · simp
    · simp
    · intro _
      have whole := congrArg (List.map CoMessage.bytes) prefixed
      rw [List.map_append] at whole
      simp [Channel.accepted, enqueued, empty, ← whole]
    · simp [sent, Channel.outgoing, phase]
  unfold Channel.iterate
  cases operation : s.operation with
  | idle => exact packs (.inl operation)
  | forwardInterrupt => exact packs (.inr operation)
  | _ =>
    refine ⟨ms, ⟨inv.queue, inv.valid, inv.dropped, ?_, ?_, ?_, inv.copied, ?_, ?_, ?_, ?_,
      inv.inactive⟩, by simp [Channel.accepted, enqueued], ?_, id⟩
    · simp
    · simp
    · exact fun _ => ordinary
    · exact fun _ => free
    · simp
    · simp
    · simp
    · simp [sent, Channel.outgoing, phase]

theorem Inv.activate (inv : Inv s ms) :
    Advance s ms .activate s.activate ms :=
  ⟨{ inv with inactive := by simp [Channel.activate] },
    by simp [Channel.activate, Channel.accepted, enqueued],
    (List.append_nil (s.toHost ++ s.outgoing)).symm, fun _ => rfl⟩

/-- An event that finds the channel in another phase. -/
theorem Inv.unchanged (inv : Inv s ms) {e : ChannelEvent} (quiet : enqueued e = [])
    (silent : sent e = []) : Advance s ms e s ms :=
  ⟨inv, by simp [quiet], by simp [silent], id⟩

/-- Every step keeps the invariant and moves the messages on. -/
theorem Inv.step (inv : Inv s ms) {e : ChannelEvent} (allowed : Allowed s e) :
    ∃ ms', Advance s ms e (step e s) ms' := by
  cases e with
  | messageFromUser message allocation => exact ⟨ms, inv.messageFromUser allowed⟩
  | activate =>
    cases hphase : s.phase <;> cases hpoint : s.point <;>
      simp only [Channel.step, hphase, hpoint]
    case guest.running => exact ⟨ms, inv.activate⟩
    all_goals exact ⟨ms, inv.unchanged rfl rfl⟩
  | guestSwitch operation =>
    cases hphase : s.phase <;> simp only [Channel.step, hphase]
    case guest => exact ⟨ms, inv.guestSwitch hphase operation⟩
    all_goals exact ⟨ms, inv.unchanged rfl rfl⟩
  | guestSend message =>
    simp only [Channel.step, allowed.1]
    exact ⟨ms, inv.guestSend allowed⟩
  | callback =>
    cases hphase : s.phase <;> simp only [Channel.step, hphase]
    case callback => exact inv.callback hphase
    all_goals exact ⟨ms, inv.unchanged rfl rfl⟩
  | parse allocated =>
    cases hphase : s.phase <;> cases hpoint : s.point <;>
      simp only [Channel.step, hphase, hpoint]
    case guest.parsing offset ioSize => exact ⟨ms.tail, inv.parse hphase hpoint allowed⟩
    all_goals exact ⟨ms, inv.unchanged rfl rfl⟩
  | handleIncoming =>
    cases hphase : s.phase <;> cases hpoint : s.point <;>
      simp only [Channel.step, hphase, hpoint]
    case guest.running => exact ⟨ms, inv.handleIncoming⟩
    all_goals exact ⟨ms, inv.unchanged rfl rfl⟩
  | dispatch params0 =>
    cases hphase : s.phase <;> simp only [Channel.step, hphase]
    case switched => exact ⟨ms, inv.dispatch hphase params0⟩
    all_goals exact ⟨ms, inv.unchanged rfl rfl⟩
  | iterate =>
    cases hphase : s.phase <;> simp only [Channel.step, hphase]
    case returned => exact inv.iterate hphase
    all_goals exact ⟨ms, inv.unchanged rfl rfl⟩

/-! ## Runs -/

theorem boot_inv (buffer tempStorage : ByteMem) : Inv (boot buffer tempStorage) [] := by
  constructor <;> simp [boot]

/-- What a run keeps. -/
theorem Inv.run (inv : Inv s ms) {es : List ChannelEvent} (allowed : RunOk Channel.step Allowed es s) :
    ∃ ms', Inv (Lib.run Channel.step es s) ms' ∧
      (s.coMessagesActive = true → (Lib.run Channel.step es s).coMessagesActive = true ∧
        (Lib.run Channel.step es s).accepted ms' = s.accepted ms ++ es.flatMap enqueued) ∧
      (Lib.run Channel.step es s).toHost ++ (Lib.run Channel.step es s).outgoing =
        s.toHost ++ s.outgoing ++ es.flatMap sent := by
  induction es generalizing s ms with
  | nil => exact ⟨ms, inv, by simp, by simp⟩
  | cons e es ih =>
    obtain ⟨ms₁, next⟩ := inv.step allowed.1
    obtain ⟨ms₂, inv₂, accepted, host⟩ := ih next.inv allowed.2
    refine ⟨ms₂, inv₂, ?_, ?_⟩
    · intro active
      obtain ⟨active₂, accepted₂⟩ := accepted (next.active active)
      refine ⟨active₂, ?_⟩
      rw [run_cons, accepted₂, next.accepted active, List.flatMap_cons, List.append_assoc]
    · rw [run_cons, host, next.host, List.flatMap_cons, List.append_assoc]

/-- While `messages_waiting` is set, no step writes to the buffer. -/
theorem step_buffer {e : ChannelEvent} (waiting : s.ioBuffer.messagesWaiting ≠ 0) :
    (step e s).ioBuffer.buffer = s.ioBuffer.buffer := by
  unfold Channel.step
  split
  · unfold Channel.messageFromUser
    repeat' split
    all_goals rfl
  · rfl
  · unfold Channel.guestSwitch
    repeat' split
    all_goals rfl
  · unfold Channel.guestSend
    rw [if_pos waiting]
    split_ifs <;> rfl
  · unfold Channel.callback
    split_ifs <;> rfl
  · unfold Channel.parse
    repeat' split
    all_goals rfl
  · unfold Channel.handleIncoming
    repeat' split
    all_goals rfl
  · unfold Channel.dispatch
    repeat' split
    all_goals rfl
  · unfold Channel.iterate callbackReturnMessages
    rw [if_pos waiting]
    split <;> rfl
  · rfl

/-- Messages of either side that are still to be processed keep the buffer taken. -/
theorem Inv.waiting (inv : Inv s ms)
    (pending : s.phase = .callback ∧ s.inTransit ≠ [] ∨ s.outgoing ≠ []) :
    s.ioBuffer.messagesWaiting ≠ 0 := by
  rcases pending with ⟨phase, transit⟩ | outgoing
  · obtain ⟨-, -, -, -, waiting⟩ := inv.batch phase
    rw [inv.inTransit] at transit
    rw [waiting]
    exact fun h => transit (by rw [List.length_eq_zero_iff.mp h]; rfl)
  · by_cases sends : s.phase = .switched ∧ s.operation = .messageToMonitor
    · exact (inv.outgoing sends.1).mpr sends.2
    · simp [Channel.outgoing, sends] at outgoing

/-! ## Draining -/

/-- `s'` is reached from `s` without new messages. -/
def Reaches (s s' : Channel) : Prop :=
  ∃ es, RunOk step Allowed es s ∧ es.flatMap enqueued = [] ∧ run step es s = s'

theorem Reaches.refl (s : Channel) : Reaches s s := ⟨[], trivial, rfl, rfl⟩

theorem Reaches.trans {s₁ s₂ s₃ : Channel} (h : Reaches s₁ s₂) (h' : Reaches s₂ s₃) :
    Reaches s₁ s₃ := by
  obtain ⟨es, allowed, quiet, rfl⟩ := h
  obtain ⟨fs, allowed', quiet', rfl⟩ := h'
  refine ⟨es ++ fs, (runOk_append step Allowed es fs s₁).mpr ⟨allowed, allowed'⟩, ?_,
    run_append step es fs s₁⟩
  rw [List.flatMap_append, quiet, quiet', List.append_nil]

theorem Reaches.single {e : ChannelEvent} (allowed : Allowed s e) (quiet : enqueued e = []) :
    Reaches s (step e s) :=
  ⟨[e], ⟨allowed, trivial⟩, by simp [quiet], rfl⟩

theorem Reaches.inv {s' : Channel} (h : Reaches s s') (inv : Inv s ms) : ∃ ms', Inv s' ms' := by
  obtain ⟨es, allowed, -, rfl⟩ := h
  obtain ⟨ms', inv', -⟩ := inv.run allowed
  exact ⟨ms', inv'⟩

/-- The guest has not stopped the monitor. -/
def Alive (s : Channel) : Prop :=
  s.phase ≠ .terminated ∧ ¬(s.phase = .switched ∧ s.operation = .terminate)

/-- The loop of `co_callback` ends. -/
theorem reaches_running (inv : Inv s ms) (phase : s.phase = .guest) :
    ∃ s', Reaches s s' ∧ s'.phase = .guest ∧ s'.point = .running ∧
      s'.linuxMessageQueue = s.linuxMessageQueue := by
  induction hlen : ms.length generalizing s ms with
  | zero =>
    cases point : s.point with
    | running => exact ⟨s, .refl s, phase, point, rfl⟩
    | parsing offset ioSize =>
      have stored := inv.copied offset ioSize point
      rw [List.length_eq_zero_iff.mp hlen] at stored
      have last : step (.parse true) s = { s with point := .running } := by
        simp only [step, phase, point, Channel.parse]
        rw [if_neg (by simp [stored.1])]
      refine ⟨_, .single (e := .parse true) rfl rfl, ?_⟩
      rw [last]
      exact ⟨phase, rfl, rfl⟩
  | succ n ih =>
    cases point : s.point with
    | running =>
      rw [inv.ordinary (by simp [phase]) point] at hlen
      simp at hlen
    | parsing offset ioSize =>
      have allowed : Allowed s (.parse true) := rfl
      have next := inv.parse phase point allowed
      have same : step (.parse true) s = s.parse offset ioSize true := by
        simp only [step, phase, point]
      have kept : (s.parse offset ioSize true).phase = .guest ∧
          (s.parse offset ioSize true).linuxMessageQueue = s.linuxMessageQueue := by
        have noBug := next.inv.noBug
        revert noBug
        unfold Channel.parse
        repeat' split
        all_goals simp [phase]
      obtain ⟨s', reaches, phase', point', queue⟩ := ih next.inv kept.1 (by simp [hlen])
      refine ⟨s', .trans (.single (e := .parse true) rfl rfl) ?_, phase', point',
        queue.trans kept.2⟩
      rw [same]
      exact reaches

theorem callback_kept (s : Channel) :
    s.callback.phase = .guest ∧ s.callback.linuxMessageQueue = s.linuxMessageQueue := by
  unfold Channel.callback
  repeat' split
  all_goals exact ⟨rfl, rfl⟩

theorem iterate_phase (s : Channel) : s.iterate.phase = .callback ∨ s.iterate.phase = .guest := by
  unfold Channel.iterate
  split <;> simp

theorem dispatch_phase (s : Channel) (params0 : Nat) (alive : s.operation ≠ .terminate) :
    (s.dispatch params0).phase = .returned := by
  unfold Channel.dispatch
  split
  · contradiction
  all_goals rfl

/-- Unless it was stopped, the guest comes back to ordinary code. -/
theorem reaches_guest (inv : Inv s ms) (alive : s.Alive) :
    ∃ s', Reaches s s' ∧ s'.phase = .guest ∧ s'.point = .running := by
  have fromGuest : ∀ s₁, Reaches s s₁ → s₁.phase = .guest →
      ∃ s', Reaches s s' ∧ s'.phase = .guest ∧ s'.point = .running := by
    intro s₁ reaches phase
    obtain ⟨ms₁, inv₁⟩ := reaches.inv inv
    obtain ⟨s', more, phase', point', -⟩ := reaches_running inv₁ phase
    exact ⟨s', reaches.trans more, phase', point'⟩
  have fromCallback : ∀ s₁, Reaches s s₁ → s₁.phase = .callback →
      ∃ s', Reaches s s' ∧ s'.phase = .guest ∧ s'.point = .running := by
    intro s₁ reaches phase
    have next : step .callback s₁ = s₁.callback := by simp only [step, phase]
    apply fromGuest (step .callback s₁) (reaches.trans (.single trivial rfl))
    rw [next]
    exact s₁.callback_kept.1
  have fromReturned : ∀ s₁, Reaches s s₁ → s₁.phase = .returned →
      ∃ s', Reaches s s' ∧ s'.phase = .guest ∧ s'.point = .running := by
    intro s₁ reaches phase
    have next : step .iterate s₁ = s₁.iterate := by simp only [step, phase]
    have reaches' : Reaches s (step .iterate s₁) := reaches.trans (.single trivial rfl)
    rcases s₁.iterate_phase with callback | guest
    · exact fromCallback _ reaches' (by rw [next]; exact callback)
    · exact fromGuest _ reaches' (by rw [next]; exact guest)
  cases phase : s.phase with
  | guest => exact fromGuest s (.refl s) phase
  | callback => exact fromCallback s (.refl s) phase
  | returned => exact fromReturned s (.refl s) phase
  | switched =>
    have next : step (.dispatch 0) s = s.dispatch 0 := by simp only [step, phase]
    apply fromReturned (step (.dispatch 0) s) (.single trivial rfl)
    rw [next]
    exact s.dispatch_phase 0 fun h => alive.2 ⟨phase, h⟩
  | terminated => exact absurd phase alive.1
  | bug => exact absurd phase inv.noBug

/-- One idle round takes at least one message off the queue. -/
theorem idle_round (inv : Inv s ms) (phase : s.phase = .guest) (point : s.point = .running)
    (queued : s.linuxMessageQueue ≠ []) :
    ∃ s', Reaches s s' ∧ s'.phase = .guest ∧ s'.point = .running ∧
      s'.linuxMessageQueue.length < s.linuxMessageQueue.length := by
  obtain ⟨m, queue, head⟩ := List.exists_cons_of_ne_nil queued
  have hm : Sendable m := inv.queue m (by rw [head]; exact List.mem_cons_self)
  have popped := callbackReturnMessages_pops (inv.free (.inl phase)) head (by
    rw [CoMessage.totalSize_eq hm.1.fits]
    exact hm.2)
  let events : List ChannelEvent := [.guestSwitch .idle, .dispatch 0, .iterate, .callback]
  have allowed : RunOk step Allowed events s := by simp [events, Allowed]
  have round : run step events s =
      Channel.callback { s with
        toMessageState := callbackReturnMessages s.toMessageState
        operation := .messageFromMonitor
        phase := .callback } := by
    simp only [events, run_cons, run_nil, step, phase, point, Channel.guestSwitch, if_true,
      Channel.dispatch, Channel.iterate]
  obtain ⟨phase₁, queue₁⟩ := callback_kept { s with
    toMessageState := callbackReturnMessages s.toMessageState
    operation := .messageFromMonitor
    phase := .callback }
  rw [← round] at phase₁ queue₁
  obtain ⟨ms₁, inv₁, -⟩ := inv.run allowed
  obtain ⟨s', reaches, phase', point', queue'⟩ := reaches_running inv₁ phase₁
  refine ⟨s', .trans ⟨events, allowed, rfl, rfl⟩ reaches, phase', point', ?_⟩
  rw [queue', queue₁]
  exact popped

/-- As long as it is not stopped, the guest can go idle until everything is on its list. -/
theorem drains (inv : Inv s ms) (alive : s.Alive) :
    ∃ s', Reaches s s' ∧ s'.inTransit = [] ∧ s'.linuxMessageQueue = [] := by
  obtain ⟨s₁, reaches, phase, point⟩ := reaches_guest inv alive
  obtain ⟨ms₁, inv₁⟩ := reaches.inv inv
  induction hlen : s₁.linuxMessageQueue.length using Nat.strongRecOn generalizing s₁ ms₁ with
  | ind n ih =>
    by_cases queued : s₁.linuxMessageQueue = []
    · refine ⟨s₁, reaches, ?_, queued⟩
      rw [inv₁.inTransit, inv₁.ordinary (by simp [phase]) point]
      rfl
    · obtain ⟨s₂, more, phase₂, point₂, shorter⟩ := idle_round inv₁ phase point queued
      obtain ⟨ms₂, inv₂⟩ := more.inv inv₁
      exact ih _ (hlen ▸ shorter) s₂ (reaches.trans more) phase₂ point₂ ms₂ inv₂ rfl

/-- **The host-to-guest message protocol.** In every run from boot, let `s₁` be a state in
which the guest is active and `s` a later one.

Everything queued up to `s₁` that was not on the list then, and everything queued since, is on
the guest's incoming list, in transit or on the queue, once and in order; unless the guest
stopped the monitor, it can go on until nothing is in transit or queued. Every message the
guest sent was handed to the monitor, or is in the buffer; no send was dropped, since the
buffer is free whenever the guest can send. While messages in the buffer are unprocessed,
`messages_waiting` is set, and no step writes to the buffer then. No `BUG_ON` is hit. -/
theorem messages_delivered_in_order (buffer tempStorage : ByteMem) {es fs : List ChannelEvent}
    (allowed : RunOk step Allowed (es ++ fs) (boot buffer tempStorage))
    (active : (run step es (boot buffer tempStorage)).coMessagesActive = true) :
    let s₁ := run step es (boot buffer tempStorage)
    let s := run step fs s₁
    (s.handled ++ s.incoming ++ s.inTransit ++ s.linuxMessageQueue.map CoMessage.bytes =
      s₁.handled ++ s₁.incoming ++ s₁.inTransit ++ s₁.linuxMessageQueue.map CoMessage.bytes ++
        fs.flatMap enqueued) ∧
    (s.Alive → ∃ s₂, Reaches s s₂ ∧ s₂.inTransit = [] ∧ s₂.linuxMessageQueue = [] ∧
      s₂.handled ++ s₂.incoming =
        s₁.handled ++ s₁.incoming ++ s₁.inTransit ++ s₁.linuxMessageQueue.map CoMessage.bytes ++
          fs.flatMap enqueued) ∧
    s.toHost ++ s.outgoing = (es ++ fs).flatMap sent ∧
    s.droppedSends = 0 ∧
    (s.phase = .guest → s.ioBuffer.messagesWaiting = 0) ∧
    (s.phase = .callback ∧ s.inTransit ≠ [] ∨ s.outgoing ≠ [] →
      s.ioBuffer.messagesWaiting ≠ 0) ∧
    (∀ e, s.ioBuffer.messagesWaiting ≠ 0 →
      (step e s).ioBuffer.buffer = s.ioBuffer.buffer) ∧
    s.phase ≠ .bug := by
  intro s₁ s
  obtain ⟨before, after⟩ := (runOk_append step Allowed es fs _).mp allowed
  obtain ⟨ms₁, inv₁, -, host₁⟩ := (boot_inv buffer tempStorage).run before
  obtain ⟨ms, inv, accepted, host⟩ := inv₁.run after
  have whole : ∀ {s' ms'}, Inv s' ms' → s'.accepted ms' =
      s'.handled ++ s'.incoming ++ s'.inTransit ++ s'.linuxMessageQueue.map CoMessage.bytes := by
    intro s' ms' inv'
    rw [inv'.inTransit]
    rfl
  obtain ⟨active', accepted⟩ := accepted active
  rw [whole inv, whole inv₁] at accepted
  refine ⟨accepted, ?_, ?_, inv.dropped, fun phase => inv.free (.inl phase), inv.waiting,
    fun _ => step_buffer, inv.noBug⟩
  · intro alive
    obtain ⟨s₂, reaches, transit, queue⟩ := drains inv alive
    refine ⟨s₂, reaches, transit, queue, ?_⟩
    obtain ⟨gs, allowed₂, quiet, rfl⟩ := reaches
    obtain ⟨ms₂, inv₂, accepted₂, -⟩ := inv.run allowed₂
    have kept := (accepted₂ active').2
    rw [whole inv₂, whole inv, transit, queue, quiet, List.append_nil, List.map_nil,
      List.append_nil, List.append_nil, accepted] at kept
    exact kept
  · rw [host, host₁, List.flatMap_append]
    rfl

/-- A key press for the guest. -/
def keyPress : CoMessage := coMessage 2 0 1 1 17 (coLinuxMessage 2 0 5 fun i => UInt8.ofNat i)

theorem keyPress_sendable : Sendable keyPress :=
  ⟨by constructor <;> decide, by decide⟩

/-- A key press, an idle round that delivers it, and a line for the console. -/
def keyPressRun : List ChannelEvent :=
  [.messageFromUser keyPress (some fun _ => 0), .guestSwitch .idle, .dispatch 0, .iterate,
    .callback, .parse true, .parse true, .guestSend (coMessage 0 7 0 0 3 fun _ => 65)]

theorem messages_delivered_in_order_keyPress :
    RunOk step Allowed ([.iterate, .activate] ++ keyPressRun) (boot (fun _ => 0) fun _ => 0) ∧
      (run step keyPressRun
        (run step [.iterate, .activate] (boot (fun _ => 0) fun _ => 0))).droppedSends = 0 := by
  have allowed : RunOk step Allowed ([.iterate, .activate] ++ keyPressRun)
      (boot (fun _ => 0) fun _ => 0) :=
    ⟨trivial, trivial, fun _ => keyPress_sendable, trivial, trivial, trivial, trivial, rfl, rfl,
      ⟨by decide +kernel, by decide, by decide⟩, trivial⟩
  exact ⟨allowed, (messages_delivered_in_order _ _ allowed (by decide +kernel)).2.2.2.1⟩

end Channel

end CoLinux
