import CoLinux.Winnt.BlockCompletion

/-!
# The I/O of a block request

What `ZwReadFile` and `ZwWriteFile` are called with is what the request in the passage page says,
with the frame of its page. A request comes to one call at most, and every message of the host is
about a request that came to one.
-/

namespace CoLinux

open Lib

/-- The request carries what the call says. -/
structure BlockRequest.Of (r : BlockRequest) (call : BlockCall) : Prop where
  unit : r.unit = call.unit
  irqRequest : r.irqRequest = call.irqRequest
  write : r.write = call.write
  offset : r.offset = call.offset
  address : r.address = call.address
  size : r.size = call.size

/-- The host reads or writes what the request asks for, where the guest's memory is `w`. -/
structure HostIo.For (io : HostIo) (r : BlockRequest) (w : World) : Prop where
  unit : io.unit = r.unit
  write : io.write = r.write
  offset : io.offset = r.offset
  size : io.size = r.size
  start : io.start = r.address % coArchPageSize
  page : ∃ pfn, coMonitorHostLinuxvmTransferMap r.address r.size w = .ok pfn ∧ io.page = some pfn

namespace AsyncBlock

/-- The requests that came to a call of the host. -/
def launched (s : AsyncBlock) : List Nat := s.ios.map (·.request)

/-- The host's calls and the requests, with the worlds in which these were made. -/
structure Launched (worlds : Nat → World) (s : AsyncBlock) : Prop where
  own : ∀ io ∈ s.ios, ∃ r, s.requests[io.request]? = some r ∧ io.For r (worlds io.request)
  once : s.launched.Nodup
  pending : ∀ c ∈ s.pending, c.msg.request ∈ s.launched
  messages : ∀ m ∈ s.messages, m.request ∈ s.launched

variable {s : AsyncBlock} {worlds : Nat → World} {call : BlockCall}

theorem answer_of (call : BlockCall) (rc : CoRc) (async : Bool) : (answer call rc async).Of call :=
  ⟨rfl, rfl, rfl, rfl, rfl, rfl⟩

/-- What a request leaves alone. -/
theorem coMonitorBlockRequest_frame (call : BlockCall) (s : AsyncBlock) :
    (s.coMonitorBlockRequest call).queue = s.queue ∧
      (s.coMonitorBlockRequest call).delivered = s.delivered ∧
      (s.coMonitorBlockRequest call).transferred = s.transferred := by
  unfold coMonitorBlockRequest coOsFileBlockAsyncReadWrite startIo
  split
  · split
    · split
      · exact ⟨rfl, rfl, rfl⟩
      · dsimp only
        split <;> split <;> exact ⟨rfl, rfl, rfl⟩
    · exact ⟨rfl, rfl, rfl⟩
  · exact ⟨rfl, rfl, rfl⟩

/-- A request that returns OK is under way, and one that returns an error is not. -/
theorem coMonitorBlockRequest_cases (call : BlockCall) (s : AsyncBlock)
    (notEnded : call.status ≠ .endOfFile) :
    ∃ r : BlockRequest, (s.coMonitorBlockRequest call).requests = s.requests ++ [r] ∧ r.Of call ∧
      (r.rc = .ok ∧ r.async = true ∧
          (s.coMonitorBlockRequest call).pending = s.pending ++ [s.newContext call] ∨
        r.rc = .error ∧ (s.coMonitorBlockRequest call).pending = s.pending) := by
  unfold coMonitorBlockRequest coOsFileBlockAsyncReadWrite
  split
  · split
    · split
      · rename_i rc map
        have failed := transferMap_error map
        exact ⟨answer call rc true, rfl, answer_of .., .inr ⟨if_neg failed, rfl⟩⟩
      · rename_i pfn _
        refine ⟨answer call (startIo call pfn (s.acquire (.context s.requests.length))).1 true, ?_,
          answer_of .., ?_⟩
        · dsimp only
          rw [startIo_requests]
          rfl
        · unfold startIo
          by_cases started : call.status = .pending ∨ call.status = .success
          · rw [if_pos started]
            refine .inl ⟨rfl, rfl, ?_⟩
            dsimp only
            split <;> rfl
          · rw [if_neg started]
            refine .inr ⟨if_neg fun isOk => notEnded ((coStatusConvert_ok started).mp isOk), ?_⟩
            dsimp only
            split <;> rfl
    · exact ⟨answer call .outOfMemory true, rfl, answer_of .., .inr ⟨rfl, rfl⟩⟩
  · exact ⟨answer call .error false, rfl, answer_of .., .inr ⟨rfl, rfl⟩⟩

/-- A request calls the host once, when its page is mapped, or not at all. -/
theorem coMonitorBlockRequest_ios (call : BlockCall) (s : AsyncBlock) :
    ∃ r : BlockRequest, (s.coMonitorBlockRequest call).requests = s.requests ++ [r] ∧ r.Of call ∧
      ((s.coMonitorBlockRequest call).ios = s.ios ∧
          (s.coMonitorBlockRequest call).pending = s.pending ∨
        ∃ pfn, s.Starts call ∧
          coMonitorHostLinuxvmTransferMap call.address call.size call.world = .ok pfn ∧
          (s.coMonitorBlockRequest call).ios = s.ios ++ [s.hostIo call pfn] ∧
          ∀ c ∈ (s.coMonitorBlockRequest call).pending, c ∈ s.pending ∨ c = s.newContext call) := by
  by_cases dev : s.coMonitorBlockDevFromIndex call.unit = some .opened
  swap
  · refine ⟨answer call .error false, ?_, answer_of .., .inl ⟨?_, ?_⟩⟩
    all_goals rw [coMonitorBlockRequest, if_neg dev]
  by_cases memory : call.contextGranted = true
  swap
  · refine ⟨answer call .outOfMemory true, ?_, answer_of .., .inl ⟨?_, ?_⟩⟩
    all_goals rw [coMonitorBlockRequest, if_pos dev, coOsFileBlockAsyncReadWrite, if_neg memory]
  unfold coMonitorBlockRequest coOsFileBlockAsyncReadWrite
  rw [if_pos dev, if_pos memory]
  cases map : coMonitorHostLinuxvmTransferMap call.address call.size call.world with
  | error rc => exact ⟨answer call rc true, rfl, answer_of .., .inl ⟨rfl, rfl⟩⟩
  | ok pfn =>
    refine ⟨answer call (startIo call pfn (s.acquire (.context s.requests.length))).1 true, ?_,
      answer_of .., .inr ⟨pfn, ⟨dev, memory, by rw [map]; rfl⟩, rfl, ?_, fun c mem => ?_⟩⟩
    · dsimp only
      rw [startIo_requests]
      rfl
    · dsimp only
      unfold startIo
      by_cases started : call.status = .pending ∨ call.status = .success
      · rw [if_pos started]
        cases call.mapGranted <;> rfl
      · rw [if_neg started]
        cases call.mapGranted <;> rfl
    · dsimp only at mem
      unfold startIo at mem
      by_cases started : call.status = .pending ∨ call.status = .success
      · rw [if_pos started] at mem
        have mem : c ∈ s.pending ++ [s.newContext call] := by
          revert mem
          cases call.mapGranted <;> exact id
        exact (List.mem_append.mp mem).imp_right List.mem_singleton.mp
      · rw [if_neg started] at mem
        refine .inl ?_
        revert mem
        cases call.mapGranted <;> exact id

/-- What came to a call of the host stays. -/
theorem launched_request (call : BlockCall) (s : AsyncBlock) :
    ∀ n ∈ s.launched, n ∈ (s.coMonitorBlockRequest call).launched := by
  intro n mem
  obtain ⟨r, -, -, ⟨ios, -⟩ | ⟨pfn, -, -, ios, -⟩⟩ := coMonitorBlockRequest_ios call s
  · rwa [launched, ios]
  · rw [launched, ios, List.map_append]
    exact List.mem_append_left _ mem

theorem Launched.lt (h : s.Launched worlds) {n : Nat} (mem : n ∈ s.launched) :
    n < s.requests.length := by
  obtain ⟨io, called, rfl⟩ := List.mem_map.mp mem
  obtain ⟨r, made, -⟩ := h.own io called
  exact (List.getElem?_eq_some_iff.mp made).1

/-- A request whose page is mapped when its turn comes. -/
theorem Launched.request (h : s.Launched worlds) (world : call.world = worlds s.requests.length)
    (granted : s.Starts call → call.mapGranted = true) :
    (s.coMonitorBlockRequest call).Launched worlds := by
  obtain ⟨r, requests, isCall, ios⟩ := coMonitorBlockRequest_ios call s
  obtain ⟨queue, delivered, -⟩ := coMonitorBlockRequest_frame call s
  have messages : (s.coMonitorBlockRequest call).messages = s.messages := by
    unfold AsyncBlock.messages
    rw [queue, delivered]
  have old : ∀ io ∈ s.ios, ∃ r, (s.coMonitorBlockRequest call).requests[io.request]? = some r ∧
      io.For r (worlds io.request) := by
    intro io mem
    obtain ⟨r', made, isFor⟩ := h.own io mem
    rw [requests]
    exact ⟨r', (List.getElem?_append_left (List.getElem?_eq_some_iff.mp made).1).trans made, isFor⟩
  rcases ios with ⟨ios, pending⟩ | ⟨pfn, starts, map, ios, pending⟩
  · have launched : (s.coMonitorBlockRequest call).launched = s.launched := by
      rw [AsyncBlock.launched, ios, AsyncBlock.launched]
    exact ⟨ios ▸ old, launched ▸ h.once, by rw [pending, launched]; exact h.pending,
      by rw [messages, launched]; exact h.messages⟩
  · have launched : (s.coMonitorBlockRequest call).launched =
        s.launched ++ [s.requests.length] := by
      rw [AsyncBlock.launched, ios, List.map_append, AsyncBlock.launched]
      rfl
    refine ⟨fun io mem => ?_, ?_, fun c mem => ?_, fun m mem => ?_⟩
    · rw [ios] at mem
      rcases List.mem_append.mp mem with mem | mem
      · exact old io mem
      · obtain rfl := List.mem_singleton.mp mem
        have last : (s.requests ++ [r])[s.requests.length]? = some r := by simp
        refine ⟨r, requests ▸ last, ?_⟩
        exact
          { unit := isCall.unit.symm
            write := isCall.write.symm
            offset := isCall.offset.symm
            size := isCall.size.symm
            start := congrArg (· % coArchPageSize) isCall.address.symm
            page := by
              refine ⟨pfn, ?_, if_pos (granted starts)⟩
              rw [isCall.address, isCall.size, ← map, world]
              rfl }
    · rw [launched, List.nodup_append]
      refine ⟨h.once, List.nodup_singleton _, fun n mem n' mem' => ?_⟩
      obtain rfl := List.mem_singleton.mp mem'
      exact Nat.ne_of_lt (h.lt mem)
    · rw [launched]
      rcases pending c mem with mem | rfl
      · exact List.mem_append_left _ (h.pending c mem)
      · exact List.mem_append_right _ (List.mem_singleton.mpr rfl)
    · rw [launched]
      exact List.mem_append_left _ (h.messages m (messages ▸ mem))

theorem Launched.complete (h : s.Launched worlds) (i : Nat) (status : NtStatus) (information : Nat)
    (granted : Bool) :
    (s.transferFileBlockCallback i status information granted).Launched worlds := by
  unfold transferFileBlockCallback
  cases at' : s.pending[i]? with
  | none => exact h
  | some c =>
    have mem := List.mem_of_getElem? at'
    have rest : ∀ c ∈ s.pending.eraseIdx i, c.msg.request ∈ s.launched :=
      fun c' mem' => h.pending c' (List.mem_of_mem_eraseIdx mem')
    dsimp only
    split
    · refine ⟨h.own, h.once, rest, fun m hm => ?_⟩
      rcases (messages_queued s _ m).mp hm with rfl | hm
      · exact h.pending c mem
      · exact h.messages m hm
    · exact ⟨h.own, h.once, rest, h.messages⟩

theorem Launched.returnMessage (h : s.Launched worlds) : s.returnMessage.Launched worlds := by
  unfold AsyncBlock.returnMessage
  cases queue : s.queue with
  | nil => exact h
  | cons c rest =>
    refine ⟨h.own, h.once, h.pending, fun m mem => h.messages m ?_⟩
    unfold AsyncBlock.messages at mem ⊢
    rw [queue]
    simp only [List.map_cons, List.mem_append, List.mem_cons, List.not_mem_nil, or_false] at mem ⊢
    tauto

theorem launched_boot (blockDevs : Nat → Option FileBlockState) :
    (boot blockDevs).Launched worlds :=
  ⟨fun _ mem => absurd mem List.not_mem_nil, List.nodup_nil, fun _ mem => absurd mem List.not_mem_nil,
    fun _ mem => absurd mem List.not_mem_nil⟩

end AsyncBlock

end CoLinux
