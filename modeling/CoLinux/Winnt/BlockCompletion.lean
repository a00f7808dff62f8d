import CoLinux.Winnt.Block
import Mathlib.Data.List.Perm.Basic
import Mathlib.Tactic.Tauto

/-!
# Every block request is answered once

What holds of the requests, their messages and what they hold after every step, as long as the
host serves the driver as the code expects. Two answers of the host are taken for success that
are not: a read that starts behind the end of the file, and a completion that has transferred
less than was asked for.
-/

namespace CoLinux

open Lib

namespace AsyncBlock

/-- The requests of a list of contexts. -/
def ids (contexts : List CallbackContext) : List Nat := contexts.map (·.msg.request)

/-- The messages that are queued or have been handed to the guest. -/
def messages (s : AsyncBlock) : List BlockMessage := s.queue.map (·.msg) ++ s.delivered

/-- How many messages a request is to have in the end. -/
def due (s : AsyncBlock) (n : Nat) : Nat :=
  match s.requests[n]? with
  | some r => if r.rc = .ok then 1 else 0
  | none => 0

/-- The request has this unit and `irq_request`. -/
def Asked (s : AsyncBlock) (m : BlockMessage) (r : BlockRequest) : Prop :=
  s.requests[m.request]? = some r ∧ r.unit = m.unit ∧ r.irqRequest = m.irqRequest

/-- The contract of the block requests. An I/O that is pending at the host has no message yet;
otherwise a request that returned OK has one message, and one that returned an error none. -/
structure Answered (s : AsyncBlock) : Prop where
  once : ∀ n, (ids s.pending).count n + (s.messages.map (·.request)).count n = s.due n
  asynchronous : ∀ r ∈ s.requests, r.rc = .ok → r.async = true
  started : ∀ c ∈ s.pending, ∃ r, s.Asked c.msg r ∧ r.size = c.size ∧ c.msg.uptodate = 0
  own : ∀ m ∈ s.messages, ∃ r, s.Asked m r ∧ (m.uptodate = 1 → r.size ≤ s.transferred m.request)
  /-- The mapping of a request is held exactly as long as its I/O is pending. -/
  mapped : ∀ n, s.ledger.live.count (.mapping n) = (ids s.pending).count n
  /-- The context of a request is held until its message has been handed over. -/
  held : ∀ n, s.ledger.live.count (.context n) = (ids s.pending).count n + (ids s.queue).count n
  clean : s.ledger.faults = []

/-- The request gets to the point where its page is mapped. -/
def Starts (s : AsyncBlock) (call : BlockCall) : Prop :=
  s.coMonitorBlockDevFromIndex call.unit = some .opened ∧ call.contextGranted = true ∧
    (coMonitorHostLinuxvmTransferMap call.address call.size call.world).isOk = true

end AsyncBlock

/-- The condition on a step: `co_os_map` succeeds and no I/O is refused with
`STATUS_END_OF_FILE`; a completion finds memory for its queue item, and a successful one has
transferred all bytes. -/
def HostServes (s : AsyncBlock) : BlockEvent → Prop
  | .request call => s.Starts call → call.mapGranted = true ∧ call.status ≠ .endOfFile
  | .complete i status information granted => ∀ c, s.pending[i]? = some c →
    granted = true ∧ (status = .success → c.size ≤ information)
  | .returnMessage => True

namespace AsyncBlock

variable {s : AsyncBlock}

theorem due_append (s : AsyncBlock) (r : BlockRequest) (n : Nat) :
    due { s with requests := s.requests ++ [r] } n =
      if s.requests.length = n then (if r.rc = .ok then 1 else 0) else s.due n := by
  unfold due
  by_cases last : s.requests.length = n
  · subst last
    simp
  · rw [if_neg last, List.getElem?_append]
    split_ifs with old
    · rfl
    · rw [List.getElem?_eq_none (by simp; omega), List.getElem?_eq_none (by omega)]

theorem due_le_one (s : AsyncBlock) (n : Nat) : s.due n ≤ 1 := by
  unfold due
  split
  · split_ifs <;> omega
  · omega

theorem due_next (s : AsyncBlock) : s.due s.requests.length = 0 := by
  unfold due
  rw [List.getElem?_eq_none (Nat.le_refl _)]

theorem Asked.append {m : BlockMessage} {r : BlockRequest} (h : s.Asked m r)
    (q : BlockRequest) : Asked { s with requests := s.requests ++ [q] } m r :=
  ⟨(List.getElem?_append_left (List.getElem?_eq_some_iff.mp h.1).1).trans h.1, h.2⟩

/-- Nothing belongs to the next request yet. -/
theorem Answered.next (h : s.Answered) :
    (ids s.pending).count s.requests.length = 0 ∧
      (s.messages.map (·.request)).count s.requests.length = 0 := by
  have total := h.once s.requests.length
  rw [due_next] at total
  omega

/-- A request that returns an error and leaves nothing behind. -/
theorem Answered.refuse (h : s.Answered) {r : BlockRequest} (refused : r.rc = .error) :
    Answered { s with requests := s.requests ++ [r] } := by
  refine ⟨fun n => ?_, fun q mem isOk => ?_, fun c mem => ?_, fun m mem => ?_, h.mapped, h.held,
    h.clean⟩
  · have total := h.once n
    refine Eq.trans total ((due_append s r n).trans ?_).symm
    split_ifs with last isOk
    · rw [refused] at isOk
      contradiction
    · subst last
      exact (due_next s).symm
    · rfl
  · rcases List.mem_append.mp mem with mem | mem
    · exact h.asynchronous q mem isOk
    · rw [List.mem_singleton.mp mem, refused] at isOk
      contradiction
  · obtain ⟨q, asked, rest⟩ := h.started c mem
    exact ⟨q, asked.append r, rest⟩
  · obtain ⟨q, asked, rest⟩ := h.own m mem
    exact ⟨q, asked.append r, rest⟩

/-- A request whose I/O is started. -/
theorem Answered.start (h : s.Answered) {call : BlockCall} {r : BlockRequest}
    (isOk : r.rc = .ok) (async : r.async = true) (unit : r.unit = call.unit)
    (irq : r.irqRequest = call.irqRequest) (size : r.size = call.size) :
    Answered { s with
      requests := s.requests ++ [r]
      pending := s.pending ++ [s.newContext call]
      ledger := (s.ledger.acquire (.context s.requests.length)).acquire
        (.mapping s.requests.length) } := by
  have added : ∀ n, (ids (s.pending ++ [s.newContext call])).count n =
      (ids s.pending).count n + if s.requests.length = n then 1 else 0 := by
    intro n
    unfold ids
    rw [List.map_append, List.count_append]
    congr 1
    simp only [List.map_cons, List.map_nil, newContext, List.count_singleton, beq_iff_eq]
  obtain ⟨noPending, noMessage⟩ := h.next
  refine ⟨fun n => ?_, fun q mem isOk => ?_, fun c mem => ?_, fun m mem => ?_, fun n => ?_,
    fun n => ?_, h.clean⟩
  · show (ids (s.pending ++ [s.newContext call])).count n + _ = _
    rw [added]
    refine Eq.trans ?_ (due_append s r n).symm
    have total := h.once n
    split_ifs with last
    · subst last
      rw [noPending]
      show 0 + 1 + (s.messages.map (·.request)).count s.requests.length = 1
      rw [noMessage]
    · exact total
  · rcases List.mem_append.mp mem with mem | mem
    · exact h.asynchronous q mem isOk
    · rw [List.mem_singleton.mp mem]
      exact async
  · rcases List.mem_append.mp mem with mem | mem
    · obtain ⟨q, asked, rest⟩ := h.started c mem
      exact ⟨q, asked.append r, rest⟩
    · rw [List.mem_singleton.mp mem]
      refine ⟨r, ⟨?_, unit, irq⟩, size, rfl⟩
      simp [newContext]
  · obtain ⟨q, asked, rest⟩ := h.own m mem
    exact ⟨q, asked.append r, rest⟩
  · show _ = (ids (s.pending ++ [s.newContext call])).count n
    rw [added, ← h.mapped n]
    simp only [Ledger.acquire_live, List.count_cons, beq_iff_eq, BlockResource.mapping.injEq,
      reduceCtorEq, if_false, Nat.add_zero]
  · show _ = (ids (s.pending ++ [s.newContext call])).count n + _
    have before := h.held n
    rw [added]
    simp only [Ledger.acquire_live, List.count_cons, beq_iff_eq, BlockResource.context.injEq,
      reduceCtorEq, if_false, Nat.add_zero]
    rw [before]
    split_ifs <;> omega

theorem transferMap_error {address size : Nat} {w : World} {rc : CoRc}
    (h : coMonitorHostLinuxvmTransferMap address size w = .error rc) : rc ≠ .ok := by
  unfold coMonitorHostLinuxvmTransferMap coMonitorGetPfn at h
  split_ifs at h <;> cases h <;> decide

/-- Success and pending I/O aside, `STATUS_END_OF_FILE` is the only status that becomes OK. -/
theorem coStatusConvert_ok {status : NtStatus} (idle : ¬(status = .pending ∨ status = .success)) :
    coStatusConvert status = .ok ↔ status = .endOfFile := by
  cases status <;> simp_all [coStatusConvert]

/-- The contract does not name the host's I/O. -/
theorem answered_log_iff (ios : List HostIo) : Answered { s with ios := ios } ↔ s.Answered :=
  ⟨fun h => { h with }, fun h => { h with }⟩

/-- The request behind its transfer map, where `co_os_map` succeeds. -/
theorem startIo_mapped (s : AsyncBlock) {call : BlockCall} (granted : call.mapGranted = true)
    (pfn : Nat) :
    startIo call pfn (s.acquire (.context s.requests.length)) =
      if call.status = .pending ∨ call.status = .success then
        (.ok, { s with
          pending := s.pending ++ [s.newContext call]
          ledger := (s.ledger.acquire (.context s.requests.length)).acquire
            (.mapping s.requests.length)
          ios := s.ios ++ [s.hostIo call pfn] })
      else (coStatusConvert call.status, { s with ios := s.ios ++ [s.hostIo call pfn] }) := by
  unfold startIo
  rw [if_pos granted]
  by_cases started : call.status = .pending ∨ call.status = .success
  · rw [if_pos started, if_pos started]
    rfl
  · rw [if_neg started, if_neg started]
    simp [acquire, release, hostIo]

theorem startIo_requests (call : BlockCall) (pfn : Nat) (s : AsyncBlock) :
    (startIo call pfn s).2.requests = s.requests := by
  unfold startIo
  by_cases started : call.status = .pending ∨ call.status = .success
  · rw [if_pos started]
    cases call.mapGranted <;> rfl
  · rw [if_neg started]
    cases call.mapGranted <;> rfl

/-- A started request that is refused with `STATUS_END_OF_FILE` returns OK and gets no message. -/
theorem not_answered_endOfFile (h : s.Answered) {r : BlockRequest} (isOk : r.rc = .ok) :
    ¬Answered { s with requests := s.requests ++ [r] } := by
  intro later
  have none : (ids s.pending).count s.requests.length +
      (s.messages.map (·.request)).count s.requests.length = 1 :=
    (later.once s.requests.length).trans ((due_append s r _).trans (by simp [isOk]))
  obtain ⟨noPending, noMessage⟩ := h.next
  omega

/-- A refused `co_os_map` goes wrong in both branches: the mapping that a pending I/O counts on
is not there, and otherwise it is undone though it was never made. -/
theorem not_answered_unmapped (h : s.Answered) {call : BlockCall}
    (refused : call.mapGranted = false) (pfn : Nat) {r : BlockRequest} :
    ¬Answered { (startIo call pfn (s.acquire (.context s.requests.length))).2 with
      requests := s.requests ++ [r] } := by
  obtain ⟨noPending, -⟩ := h.next
  have notHeld : s.ledger.live.count (.mapping s.requests.length) = 0 :=
    (h.mapped _).trans noPending
  unfold startIo
  rw [refused]
  simp only [Bool.false_eq_true, if_false]
  split_ifs with started
  · intro later
    have counted : s.ledger.live.count (.mapping s.requests.length) =
        (ids (s.pending ++ [s.newContext call])).count s.requests.length := by
      refine Eq.trans ?_ (later.mapped s.requests.length)
      simp [acquire]
    rw [notHeld] at counted
    simp [ids, newContext] at counted
  · intro later
    have missing : BlockResource.mapping s.requests.length ∉
        (s.ledger.acquire (.context s.requests.length)).live := by
      rw [Ledger.acquire_live, List.mem_cons, not_or]
      exact ⟨by simp, List.count_eq_zero.mp notHeld⟩
    have faults : ((s.ledger.acquire (.context s.requests.length)).release
        (.mapping s.requests.length)).release (.context s.requests.length) =
          ⟨s.ledger.live, .mapping s.requests.length :: s.ledger.faults⟩ := by
      rw [Ledger.release_not_mem missing]
      simp [Ledger.release, Ledger.fault, Ledger.acquire]
    have clean := later.clean
    simp only [acquire, release, faults] at clean
    contradiction

theorem request_answered_iff (h : s.Answered) (call : BlockCall) :
    (s.coMonitorBlockRequest call).Answered ↔ HostServes s (.request call) := by
  unfold coMonitorBlockRequest HostServes
  by_cases dev : s.coMonitorBlockDevFromIndex call.unit = some .opened
  · rw [if_pos dev]
    by_cases memory : call.contextGranted = true
    · cases map : coMonitorHostLinuxvmTransferMap call.address call.size call.world with
      | error rc =>
        have idle : ¬s.Starts call := by
          rintro ⟨-, -, mapped⟩
          rw [map] at mapped
          contradiction
        simp only [coOsFileBlockAsyncReadWrite, if_pos memory, map]
        refine iff_of_true ?_ fun starts => absurd starts idle
        simp only [acquire, release, Ledger.release_acquire]
        exact h.refuse (if_neg (transferMap_error map))
      | ok pfn =>
        have starts : s.Starts call := ⟨dev, memory, by rw [map]; rfl⟩
        simp only [coOsFileBlockAsyncReadWrite, if_pos memory, map, starts, forall_const]
        cases granted : call.mapGranted with
        | false =>
          refine iff_of_false ?_ fun served => absurd served.1 (by decide)
          rw [startIo_requests]
          exact not_answered_unmapped h granted pfn
        | true =>
          rw [startIo_mapped s granted]
          by_cases started : call.status = .pending ∨ call.status = .success
          · rw [if_pos started]
            refine iff_of_true ?_ ⟨rfl, by rintro eq; simp [eq] at started⟩
            exact (answered_log_iff _).mpr (h.start rfl rfl rfl rfl rfl)
          · rw [if_neg started]
            by_cases ended : call.status = .endOfFile
            · refine iff_of_false (fun answered => ?_) fun served => absurd ended served.2
              exact not_answered_endOfFile h (if_pos ((coStatusConvert_ok started).mpr ended))
                ((answered_log_iff _).mp answered)
            · refine iff_of_true ?_ ⟨rfl, ended⟩
              exact (answered_log_iff _).mpr
                (h.refuse (if_neg fun isOk => ended ((coStatusConvert_ok started).mp isOk)))
    · refine iff_of_true ?_ fun starts => absurd starts.2.1 memory
      simp only [coOsFileBlockAsyncReadWrite, if_neg memory]
      exact h.refuse rfl
  · rw [if_neg dev]
    exact iff_of_true (h.refuse rfl) fun starts => absurd starts.1 dev

/-! ## Completions -/

/-- The I/O at a position of `pending` and the others. -/
theorem ids_eraseIdx {contexts : List CallbackContext} {i : Nat} {c : CallbackContext}
    (h : contexts[i]? = some c) (n : Nat) :
    (ids contexts).count n =
      (ids (contexts.eraseIdx i)).count n + if c.msg.request = n then 1 else 0 := by
  obtain ⟨inside, rfl⟩ := List.getElem?_eq_some_iff.mp h
  have perm := (List.getElem_cons_eraseIdx_perm inside).map fun c => c.msg.request
  unfold ids
  rw [← perm.count_eq, List.map_cons, List.count_cons]
  simp only [beq_iff_eq]

/-- A completion that finds memory for its queue item. -/
theorem callback_queued {i : Nat} {c : CallbackContext} (at_ : s.pending[i]? = some c)
    (status : NtStatus) (information : Nat) :
    s.transferFileBlockCallback i status information true =
      { s with
        pending := s.pending.eraseIdx i
        queue := s.queue ++ [completed c status]
        transferred := Function.update s.transferred c.msg.request information
        ledger := s.ledger.release (.mapping c.msg.request) } := by
  unfold transferFileBlockCallback
  simp only [at_, if_true]

theorem messages_queued (s : AsyncBlock) (c : CallbackContext) (m : BlockMessage) :
    m ∈ (s.queue ++ [c]).map (·.msg) ++ s.delivered ↔ m = c.msg ∨ m ∈ s.messages := by
  unfold messages
  simp only [List.map_append, List.map_cons, List.map_nil, List.mem_append, List.mem_singleton]
  tauto

/-- A request with a pending I/O has no message. -/
theorem Answered.silent (h : s.Answered) {c : CallbackContext} (mem : c ∈ s.pending)
    {m : BlockMessage} (hm : m ∈ s.messages) : m.request ≠ c.msg.request := by
  intro same
  have total := h.once c.msg.request
  have one := due_le_one s c.msg.request
  have pending : 0 < (ids s.pending).count c.msg.request :=
    List.count_pos_iff.mpr (List.mem_map_of_mem mem)
  have queued : 0 < (s.messages.map (·.request)).count c.msg.request :=
    List.count_pos_iff.mpr (same ▸ List.mem_map_of_mem hm)
  omega

theorem Answered.complete (h : s.Answered) {i : Nat} {c : CallbackContext}
    (at_ : s.pending[i]? = some c) {status : NtStatus} {information : Nat}
    (whole : status = .success → c.size ≤ information) :
    (s.transferFileBlockCallback i status information true).Answered := by
  have mem : c ∈ s.pending := List.mem_of_getElem? at_
  have erased := ids_eraseIdx at_
  have live : BlockResource.mapping c.msg.request ∈ s.ledger.live := by
    apply List.count_pos_iff.mp
    rw [h.mapped]
    exact List.count_pos_iff.mpr (List.mem_map_of_mem mem)
  rw [callback_queued at_]
  refine ⟨fun n => ?_, h.asynchronous, fun d hd => ?_, fun m hm => ?_, fun n => ?_, fun n => ?_, ?_⟩
  · have total := h.once n
    rw [erased] at total
    refine Eq.trans ?_ total
    simp only [messages, List.map_append, List.map_cons, List.map_nil, List.count_append,
      List.count_singleton, beq_iff_eq]
    show _ + (_ + (if c.msg.request = n then 1 else 0) + _) = _
    omega
  · exact h.started d (List.mem_of_mem_eraseIdx hd)
  · rcases (messages_queued s _ m).mp hm with rfl | hm
    · obtain ⟨r, asked, size, fresh⟩ := h.started c mem
      refine ⟨r, asked, fun uptodate => ?_⟩
      show r.size ≤ Function.update s.transferred c.msg.request information c.msg.request
      rw [Function.update_self, size]
      apply whole
      by_contra failed
      simp [completed, failed, fresh] at uptodate
    · obtain ⟨r, asked, full⟩ := h.own m hm
      refine ⟨r, asked, fun uptodate => ?_⟩
      show r.size ≤ Function.update s.transferred c.msg.request information m.request
      rw [Function.update_of_ne (h.silent mem hm)]
      exact full uptodate
  · show (s.ledger.release (.mapping c.msg.request)).live.count (.mapping n) = _
    have before := h.mapped n
    rw [erased] at before
    by_cases same : c.msg.request = n
    · rw [same, Ledger.count_release_self, before, if_pos same, Nat.add_sub_cancel]
    · rw [Ledger.count_release (by simpa using Ne.symm same), before, if_neg same, Nat.add_zero]
  · show (s.ledger.release (.mapping c.msg.request)).live.count (.context n) =
      (ids (s.pending.eraseIdx i)).count n + (ids (s.queue ++ [completed c status])).count n
    rw [Ledger.count_release (by simp), h.held n, erased]
    simp only [ids, List.map_append, List.map_cons, List.map_nil, List.count_append,
      List.count_singleton, beq_iff_eq]
    show _ = _ + (_ + if c.msg.request = n then 1 else 0)
    omega
  · show (s.ledger.release (.mapping c.msg.request)).faults = []
    rw [Ledger.release_mem live]
    exact h.clean

theorem complete_answered_iff (h : s.Answered) (i : Nat) (status : NtStatus) (information : Nat)
    (granted : Bool) :
    (s.transferFileBlockCallback i status information granted).Answered ↔
      HostServes s (.complete i status information granted) := by
  unfold HostServes
  cases at_ : s.pending[i]? with
  | none =>
    have same : s.transferFileBlockCallback i status information granted = s := by
      unfold transferFileBlockCallback
      rw [at_]
    rw [same]
    refine iff_of_true h fun c hc => ?_
    rw [at_] at hc
    contradiction
  | some c =>
    have mem : c ∈ s.pending := List.mem_of_getElem? at_
    cases granted with
    | true =>
      constructor
      · intro later d hd
        obtain rfl := Option.some.inj (at_.symm.trans hd)
        refine ⟨rfl, fun success => ?_⟩
        -- the message that is queued says the transfer is complete
        rw [callback_queued at_] at later
        obtain ⟨r, asked, full⟩ := later.own (completed c status).msg
          ((messages_queued s _ _).mpr (.inl rfl))
        obtain ⟨q, asked', size, -⟩ := h.started c mem
        have same : q = r := Option.some.inj (asked'.1.symm.trans asked.1)
        have enough := full (if_pos success)
        have transferred : Function.update s.transferred c.msg.request information
            c.msg.request = information := Function.update_self ..
        rw [← size, same]
        exact transferred ▸ enough
      · intro served
        exact h.complete at_ (served c at_).2
    | false =>
      refine iff_of_false (fun later => ?_) fun served => absurd (served c at_).1 (by decide)
      -- the request was to have a message, and now nothing of it is left
      have before := h.once c.msg.request
      rw [ids_eraseIdx at_, if_pos rfl] at before
      have after := later.once c.msg.request
      have state : s.transferFileBlockCallback i status information false =
          release { s with
            pending := s.pending.eraseIdx i
            transferred := Function.update s.transferred c.msg.request information
            ledger := s.ledger.release (.mapping c.msg.request) } (.context c.msg.request) := by
        unfold transferFileBlockCallback
        simp [at_]
      rw [state] at after
      have after : (ids (s.pending.eraseIdx i)).count c.msg.request +
          (s.messages.map (·.request)).count c.msg.request = s.due c.msg.request := after
      omega

/-! ## Handing messages over -/

theorem Answered.returnMessage (h : s.Answered) : s.returnMessage.Answered := by
  unfold AsyncBlock.returnMessage
  cases head : s.queue with
  | nil => exact h
  | cons c queue =>
    have moved : ∀ m, m ∈ queue.map (·.msg) ++ (s.delivered ++ [c.msg]) ↔ m ∈ s.messages := by
      intro m
      unfold messages
      rw [head]
      simp only [List.map_cons, List.mem_append, List.mem_cons, List.not_mem_nil, or_false]
      tauto
    have live : BlockResource.context c.msg.request ∈ s.ledger.live := by
      apply List.count_pos_iff.mp
      rw [h.held, head]
      exact Nat.add_pos_right _ (List.count_pos_iff.mpr List.mem_cons_self)
    refine ⟨fun n => ?_, h.asynchronous, h.started, fun m hm => h.own m ((moved m).mp hm), fun n => ?_,
      fun n => ?_, ?_⟩
    · refine Eq.trans ?_ (h.once n)
      unfold messages
      rw [head]
      simp only [List.map_append, List.map_cons, List.map_nil, List.count_append,
        List.cons_append, List.count_cons, List.count_nil]
      omega
    · show (s.ledger.release (.context c.msg.request)).live.count (.mapping n) = _
      rw [Ledger.count_release (by simp), h.mapped]
    · show (s.ledger.release (.context c.msg.request)).live.count (.context n) =
        (ids s.pending).count n + (ids queue).count n
      have before := h.held n
      rw [head] at before
      simp only [ids, List.map_cons, List.count_cons, beq_iff_eq] at before ⊢
      by_cases same : c.msg.request = n
      · rw [same, Ledger.count_release_self, before, if_pos same]
        omega
      · rw [Ledger.count_release (by simpa using Ne.symm same), before, if_neg same]
        omega
    · show (s.ledger.release (.context c.msg.request)).faults = []
      rw [Ledger.release_mem live]
      exact h.clean

theorem answered_boot (blockDevs : Nat → Option FileBlockState) : (boot blockDevs).Answered := by
  refine ⟨fun n => ?_, ?_, ?_, ?_, fun n => rfl, fun n => rfl, rfl⟩
  · simp [boot, ids, messages, due]
  all_goals simp [boot, messages]

end AsyncBlock

theorem blockStep_answered_iff {s : AsyncBlock} (h : s.Answered) (e : BlockEvent) :
    (blockStep e s).Answered ↔ HostServes s e := by
  cases e with
  | request call => exact AsyncBlock.request_answered_iff h call
  | complete i status information granted =>
    exact AsyncBlock.complete_answered_iff h i status information granted
  | returnMessage => exact iff_of_true h.returnMessage trivial

/-- **Asynchronous block completion.** Every request is answered as it should be, all through a
run, exactly if the host serves every step as the code expects. -/
theorem block_answered_iff (blockDevs : Nat → Option FileBlockState) (es : List BlockEvent) :
    (∀ p, p <+: es → (run blockStep p (AsyncBlock.boot blockDevs)).Answered) ↔
      RunOk blockStep HostServes es (AsyncBlock.boot blockDevs) := by
  have keeps : ∀ (s : AsyncBlock) (e : BlockEvent), True → True := fun _ _ h => h
  have kept_iff : ∀ (s : AsyncBlock) e, True → s.Answered →
      ((blockStep e s).Answered ↔ HostServes s e) := fun _ e _ good => blockStep_answered_iff good e
  exact forall_prefix_iff_runOk keeps kept_iff trivial (AsyncBlock.answered_boot blockDevs)

/-- A guest of 8 MB with all its pages in frame 5. -/
def blockGuest : World where
  mem := fun _ => 0
  host := { out := [], answers := [], mallocs := [] }
  manager :=
    { hostmemPages := 4096
      reversedMapPfns := fun _ => 0
      reversedPageCount := 4
      reversedMapPgds := fun _ => 0
      reversedMapPgdsCount := 4 }
  monitor :=
    { memorySize := 0x800000
      endPhysical := coArchKernelOffset + 0x800000
      hasPpPfns := true
      ppPfns := fun _ => some fun _ => 5
      blocksAllocated := 0
      kernelSwapperPgDir := coArchKernelOffset
      ioBuffer := 0x80000000
      passagePage := 0x80010000
      pgd := 0 }

/-- A request for one sector of cobd0. -/
def sectorCall (status : NtStatus) : BlockCall where
  world := blockGuest
  unit := 0
  write := false
  offset := 0x1000
  address := coArchKernelOffset + 0x1000
  size := 512
  irqRequest := 0xc0400000
  contextGranted := true
  mapGranted := true
  status := status

/-- The state after these events, with cobd0 open. -/
def blockRun (es : List BlockEvent) : AsyncBlock :=
  run blockStep es (AsyncBlock.boot fun unit => if unit = 0 then some .opened else none)

/-- A read that the host refuses with `STATUS_END_OF_FILE` returns OK and has neither a message
nor a pending I/O; a read that succeeds with no byte transferred is reported as up to date; and a
completion without memory for its queue item leaves the request unanswered. -/
theorem blockRun_not_answered :
    ¬(blockRun [.request (sectorCall .endOfFile)]).Answered ∧
      ¬(blockRun [.request (sectorCall .pending), .complete 0 .success 0 true]).Answered ∧
      ¬(blockRun [.request (sectorCall .pending), .complete 0 .success 512 false]).Answered := by
  refine ⟨fun answered => ?_, fun answered => ?_, fun answered => ?_⟩
  · have once := answered.once 0
    revert once
    decide +kernel
  · obtain ⟨r, asked, whole⟩ := answered.own ⟨0, 0, 0xc0400000, 1⟩ (List.mem_singleton.mpr rfl)
    have size : r.size = 512 := by
      have made : (blockRun [.request (sectorCall .pending), .complete 0 .success 0 true]).requests[0]? =
          some ⟨0, 0xc0400000, false, 0x1000, coArchKernelOffset + 0x1000, 512, .ok, true⟩ := rfl
      exact congrArg BlockRequest.size (Option.some.inj (asked.1.symm.trans made))
    have none : r.size ≤ 0 := whole rfl
    omega
  · have once := answered.once 0
    revert once
    decide +kernel

end CoLinux
