import CoLinux.Linux.Cobd
import CoLinux.Winnt.BlockIo

/-!
# The pieces of the guest's block requests

`Core` says where every segment of a request is: still to be sent, under way, in the hands of the
driver, or ended. `Core.endHead` and `Core.asking` are about one segment, `doCobdRequest_core` about
the request function.
-/

namespace CoLinux

open Lib

/-- The host is asked for the current segment of the request, at its own place. -/
structure BlockRequest.Moves (b : BlockRequest) (r : DiskRequest) : Prop where
  irqRequest : b.irqRequest = r.id
  write : b.write = r.write
  offset : b.offset = 512 * r.sector
  address : b.address = r.buffer
  size : b.size = 512 * r.currentNrSectors

namespace Cobd

variable {layer : BlockLayer}

/-- The host's requests that the guest has not got an answer to. -/
def inFlight (s : Cobd layer) : List Nat :=
  AsyncBlock.ids s.host.pending ++ AsyncBlock.ids s.host.queue ++
    (s.host.delivered.drop s.taken).map (·.request)

/-- Request `n` of the host is for `t`. -/
def Sent (s : Cobd layer) (n : Nat) (t : SentPiece) : Prop := s.sent[n]? = some t

/-- `d` is the segment `k` of the queue. -/
def DoneAt (s : Cobd layer) (q k : Nat) (d : DonePiece) : Prop := (s.done q)[k]? = some d

variable (segments : layer.Queue → List DiskRequest) (unit : Nat → Fin coModuleMaxCobd)
  (serve : Nat → CobdAnswer)

/-- The segments of a queue that are still to be ended. -/
def plan (s : Cobd layer) (q : Nat) : List DiskRequest := segments (s.queues q)

/-- All bytes of the segment were transferred, by the I/O of the request `n`. -/
def Whole (s : Cobd layer) (n : Nat) (r : DiskRequest) : Prop :=
  n ∈ s.host.launched ∧ 512 * r.currentNrSectors ≤ s.host.transferred n

/-- What holds all through a run. The driver may have the outcome of some requests of the host in
hand. -/
structure Core (hand : List Nat) (s : Cobd layer) : Prop where
  host : s.host.Answered
  /-- What the host is asked for is the I/O of its requests. -/
  launched : s.host.Launched fun n => (serve n).world
  faults : s.faults = 0
  /-- The segments of a queue are ended in order. -/
  order : ∀ q, (s.done q).map (·.piece) ++ s.plan segments q = s.submitted q
  /-- What is sent is a segment of the queue, as it was submitted. -/
  sent : ∀ n t, s.Sent n t →
    (s.submitted t.queue)[t.position]? = some t.piece ∧ t.piece.fs = true
  asked : ∀ n t, s.Sent n t → ∃ b, s.host.requests[n]? = some b ∧ b.unit = unit t.queue ∧
    b.Moves t.piece
  length : s.sent.length = s.host.requests.length
  /-- What was not sent fails. -/
  unsent : ∀ q, ∀ d ∈ s.done q, d.number = none → d.piece.fs = false ∧ d.uptodate = 0
  /-- A segment is ended with the outcome of its own transfer. -/
  ended : ∀ q k d n, s.DoneAt q k d → d.number = some n → ∃ t, s.Sent n t ∧ t.queue = q ∧
    t.position = k ∧ (d.uptodate = 1 → s.Whole n d.piece)
  each : ∀ n t, s.Sent n t → n ∈ hand ++ s.inFlight ∨
    ∃ d, s.DoneAt t.queue t.position d ∧ d.number = some n
  /-- What is under way is the first segment that is not ended. -/
  current : ∀ n ∈ hand ++ s.inFlight, ∃ t, s.Sent n t ∧ t.position = (s.done t.queue).length
  /-- A queue has one I/O under way at most. -/
  single : ∀ n ∈ hand ++ s.inFlight, ∀ n' ∈ hand ++ s.inFlight, ∀ t t', s.Sent n t →
    s.Sent n' t' → t.queue = t'.queue → n = n'
  apart : ∀ n ∈ hand, n ∉ s.inFlight
  taken : s.taken ≤ s.host.delivered.length
  owner : ∀ q, ∀ r ∈ s.plan segments q, s.made[r.id]? = some q

/-- Nothing of the queue is under way. -/
def Idle (s : Cobd layer) (q : Nat) : Prop := ∀ n ∈ s.inFlight, ∀ t, s.Sent n t → t.queue ≠ q

/-- A queue that is not empty is not forgotten. -/
def Busy (s : Cobd layer) (q : Nat) : Prop :=
  s.plan segments q ≠ [] → s.plugged q = true ∨ ∃ n ∈ s.inFlight, ∃ t, s.Sent n t ∧ t.queue = q

variable {segments unit serve} {s : Cobd layer} {q : Nat} {r : DiskRequest}
  {rest : List DiskRequest} {hand : List Nat}

theorem elvNextRequest_head (documented : layer.Documented segments)
    (head : s.plan segments q = r :: rest) : layer.elvNextRequest (s.queues q) = some r :=
  (documented.elvNextRequest _).trans (congrArg List.head? head)

theorem elvNextRequest_empty (documented : layer.Documented segments)
    (empty : s.plan segments q = []) : layer.elvNextRequest (s.queues q) = none :=
  (documented.elvNextRequest _).trans (congrArg List.head? empty)

theorem Core.piece_of_head (core : Core segments unit serve hand s)
    (head : s.plan segments q = r :: rest) : (s.submitted q)[(s.done q).length]? = some r := by
  rw [← core.order q, head, List.getElem?_append_right (by simp)]
  simp

/-- The turns that the request function may take are enough. -/
theorem Core.enough (core : Core segments unit serve hand s) (q : Nat) :
    (s.plan segments q).length ≤ (s.submitted q).length := by
  rw [← core.order q, List.length_append]
  exact Nat.le_add_left _ _

/-- A segment that is under way is the first of its queue. -/
theorem Core.head_of_sent (core : Core segments unit serve hand s) {n : Nat} {t : SentPiece}
    (flying : n ∈ hand ++ s.inFlight) (sent : s.Sent n t) :
    t.position = (s.done t.queue).length ∧ ∃ rest, s.plan segments t.queue = t.piece :: rest := by
  obtain ⟨t', sent', position⟩ := core.current n flying
  obtain rfl : t' = t := Option.some.inj (sent'.symm.trans sent)
  have there := (core.sent n t' sent').1
  rw [← core.order t'.queue, position, List.getElem?_append_right (by simp)] at there
  cases head : s.plan segments t'.queue with
  | nil => simp [head] at there
  | cons r rest =>
    rw [head] at there
    obtain rfl : r = t'.piece := by simpa using there
    exact ⟨position, rest, rfl⟩

/-- `end_request` of the head. -/
theorem endRequest_head (documented : layer.Documented segments) (made : s.made[r.id]? = some q)
    (head : s.plan segments q = r :: rest) (uptodate : Nat) (number : Option Nat) :
    s.endRequest r.id uptodate number =
      { s with
        queues := Function.update s.queues q (layer.endRequest r.id uptodate (s.queues q))
        done := Function.update s.done q (s.done q ++ [⟨r, uptodate, number⟩]) } := by
  rw [endRequest, made]
  dsimp only
  rw [elvNextRequest_head documented head, Option.filter_some, if_pos (decide_eq_true rfl)]

theorem plan_endRequest (documented : layer.Documented segments) (made : s.made[r.id]? = some q)
    (head : s.plan segments q = r :: rest) (uptodate : Nat) (number : Option Nat) (q' : Nat) :
    (s.endRequest r.id uptodate number).plan segments q' =
      if q' = q then rest else s.plan segments q' := by
  rw [endRequest_head documented made head, plan]
  dsimp only
  split
  · rename_i same
    rw [same, Function.update_self]
    exact documented.endRequest _ r rest uptodate head
  · rename_i other
    rw [Function.update_of_ne other]
    rfl

/-! ## Ending a segment -/

/-- One more segment of `q` is done. -/
def doneMore (s : Cobd layer) (q : Nat) (d : DonePiece) : Nat → List DonePiece :=
  Function.update s.done q (s.done q ++ [d])

theorem doneMore_of_doneAt {k q' : Nat} {d e : DonePiece} (at' : s.DoneAt q' k d) :
    (s.doneMore q e q')[k]? = some d := by
  unfold doneMore
  by_cases same : q' = q
  · subst same
    rw [Function.update_self]
    exact (List.getElem?_append_left (List.getElem?_eq_some_iff.mp at').1).trans at'
  · rw [Function.update_of_ne same]
    exact at'

theorem doneMore_last (s : Cobd layer) (q : Nat) (e : DonePiece) :
    (s.doneMore q e q)[(s.done q).length]? = some e := by
  rw [doneMore, Function.update_self]
  simp

theorem doneMore_cases {k q' : Nat} {d e : DonePiece} (at' : (s.doneMore q e q')[k]? = some d) :
    s.DoneAt q' k d ∨ q' = q ∧ k = (s.done q).length ∧ d = e := by
  unfold doneMore at at'
  by_cases same : q' = q
  · subst same
    rw [Function.update_self, List.getElem?_append] at at'
    split at at'
    · exact .inl at'
    · obtain ⟨lt, rfl⟩ := List.getElem?_eq_some_iff.mp at'
      simp only [List.length_singleton] at lt
      exact .inr ⟨rfl, by omega, List.getElem_singleton _⟩
  · rw [Function.update_of_ne same] at at'
    exact .inl at'

/-- The first segment is ended, by what its transfer came to or because it is none. -/
theorem Core.endHead (documented : layer.Documented segments)
    (core : Core segments unit serve hand s) (head : s.plan segments q = r :: rest)
    (uptodate : Nat) (number : Option Nat)
    (outcome : number = none ∧ hand = [] ∧ s.Idle q ∧ r.fs = false ∧ uptodate = 0 ∨
      ∃ n t, number = some n ∧ hand = [n] ∧ s.Sent n t ∧ t.queue = q ∧
        (uptodate = 1 → s.Whole n t.piece)) :
    Core segments unit serve [] (s.endRequest r.id uptodate number) ∧
      (s.endRequest r.id uptodate number).Idle q := by
  have made := core.owner q r (head ▸ List.mem_cons_self)
  -- nothing of the queue is under way, beside what is in hand
  have idle : s.Idle q := by
    rcases outcome with ⟨-, -, idle, -, -⟩ | ⟨n, t, -, rfl, sent, rfl, -⟩
    · exact idle
    · intro m flying t' sent' same
      have eq := core.single n (by simp) m (by simp [flying]) t t' sent sent' same.symm
      exact core.apart n (by simp) (eq ▸ flying)
  have inHand : ∀ n ∈ s.inFlight, n ∈ hand ++ s.inFlight := fun n flying =>
    List.mem_append_right hand flying
  have plans := plan_endRequest documented made head uptodate number
  rw [endRequest_head documented made head] at plans ⊢
  refine ⟨?_, idle⟩
  refine
    { host := core.host
      launched := core.launched
      faults := core.faults
      order := ?_
      sent := core.sent
      asked := core.asked
      length := core.length
      unsent := ?_
      ended := ?_
      each := ?_
      current := ?_
      single := fun n flying n' flying' => core.single n (inHand n flying) n' (inHand n' flying')
      apart := nofun
      taken := core.taken
      owner := ?_ }
  · intro q'
    rw [plans]
    by_cases same : q' = q
    · subst same
      rw [← core.order q', head]
      simp [List.append_assoc]
    · simp only [if_neg same, Function.update_of_ne same]
      exact core.order q'
  · intro q' d mem none
    obtain ⟨k, at'⟩ := List.getElem?_of_mem mem
    rcases doneMore_cases at' with old | ⟨-, -, rfl⟩
    · exact core.unsent q' d (List.mem_of_getElem? old) none
    · rcases outcome with ⟨-, -, -, fs, failed⟩ | ⟨n, t, number', -⟩
      · exact ⟨fs, failed⟩
      · exact absurd (none.symm.trans number') nofun
  · intro q' k d n at' number'
    rcases doneMore_cases at' with old | ⟨rfl, rfl, rfl⟩
    · exact core.ended q' k d n old number'
    · rcases outcome with ⟨none, -⟩ | ⟨n', t, some', rfl, sent, rfl, full⟩
      · exact absurd (none.symm.trans number') nofun
      · obtain rfl : n' = n := Option.some.inj (some'.symm.trans number')
        obtain ⟨position, rest', head'⟩ := core.head_of_sent (by simp) sent
        rw [head] at head'
        obtain ⟨rfl, -⟩ := List.cons.inj head'
        exact ⟨t, sent, rfl, position, full⟩
  · intro n t sent
    rcases core.each n t sent with flying | ⟨d, old, number'⟩
    · rcases List.mem_append.mp flying with mem | flying
      · rcases outcome with ⟨-, rfl, -⟩ | ⟨n', t', some', rfl, sent', rfl, -⟩
        · exact absurd mem List.not_mem_nil
        · obtain rfl := List.mem_singleton.mp mem
          obtain rfl : t' = t := Option.some.inj (sent'.symm.trans sent)
          have position := (core.head_of_sent (by simp) sent).1
          refine .inr ⟨⟨r, uptodate, number⟩, ?_, some'⟩
          rw [position]
          exact doneMore_last s _ _
      · exact .inl flying
    · exact .inr ⟨d, doneMore_of_doneAt old, number'⟩
  · intro n flying
    obtain ⟨t, sent, position⟩ := core.current n (inHand n flying)
    refine ⟨t, sent, ?_⟩
    dsimp only
    rw [Function.update_of_ne (idle n flying t sent)]
    exact position
  · intro q' r' mem
    rw [plans] at mem
    by_cases same : q' = q
    · rw [if_pos same] at mem
      exact core.owner q' r' (same ▸ head ▸ List.mem_cons_of_mem r mem)
    · rw [if_neg same] at mem
      exact core.owner q' r' mem

/-! ## Asking the host -/

/-- The host has got a request for the head of `q`. -/
def asking (host : AsyncBlock) (q : Nat) (r : DiskRequest) (s : Cobd layer) : Cobd layer :=
  { s with
    host := host
    sent := s.sent ++ [⟨q, (s.done q).length, r⟩] }

variable {host : AsyncBlock}

theorem sent_asking_of_sent {n : Nat} {t : SentPiece} (sent : s.Sent n t) :
    (s.asking host q r).Sent n t :=
  (List.getElem?_append_left (List.getElem?_eq_some_iff.mp sent).1).trans sent

theorem sent_asking_last (s : Cobd layer) :
    (s.asking host q r).Sent s.sent.length ⟨q, (s.done q).length, r⟩ := by
  simp [Sent, asking]

theorem sent_asking_cases {n : Nat} {t : SentPiece} (sent : (s.asking host q r).Sent n t) :
    s.Sent n t ∨ n = s.sent.length ∧ t = ⟨q, (s.done q).length, r⟩ := by
  unfold Sent asking at sent
  dsimp only at sent
  rw [List.getElem?_append] at sent
  split at sent
  · exact .inl sent
  · obtain ⟨lt, rfl⟩ := List.getElem?_eq_some_iff.mp sent
    simp only [List.length_singleton] at lt
    exact .inr ⟨by omega, List.getElem_singleton _⟩

/-- The new request is under way or its outcome in hand. -/
theorem Core.asking (core : Core segments unit serve [] s) (idle : s.Idle q)
    (head : s.plan segments q = r :: rest) (fs : r.fs = true) {request : BlockRequest}
    (answered : host.Answered) (launched : host.Launched fun n => (serve n).world)
    (kept : ∀ n ∈ s.host.launched, n ∈ host.launched)
    (requests : host.requests = s.host.requests ++ [request])
    (own : request.unit = unit q ∧ request.Moves r)
    (transferred : host.transferred = s.host.transferred) (delivered : host.delivered = s.host.delivered)
    (mem : ∀ m, m ∈ hand ++ (s.asking host q r).inFlight ↔ m ∈ s.inFlight ∨ m = s.sent.length)
    (apart : ∀ m ∈ hand, m ∉ (s.asking host q r).inFlight) :
    Core segments unit serve hand (s.asking host q r) := by
  have fresh : ∀ n t, s.Sent n t → n ≠ s.sent.length := fun n t sent =>
    Nat.ne_of_lt (List.getElem?_eq_some_iff.mp sent).1
  refine
    { host := answered
      launched := launched
      faults := core.faults
      order := core.order
      sent := ?_
      asked := ?_
      length := ?_
      unsent := core.unsent
      ended := ?_
      each := ?_
      current := ?_
      single := ?_
      apart := apart
      taken := delivered ▸ core.taken
      owner := core.owner }
  · intro n t sent
    rcases sent_asking_cases sent with sent | ⟨-, rfl⟩
    · exact core.sent n t sent
    · exact ⟨core.piece_of_head head, fs⟩
  · intro n t sent
    show ∃ r, host.requests[n]? = some r ∧ _
    rw [requests]
    rcases sent_asking_cases sent with sent | ⟨rfl, rfl⟩
    · obtain ⟨r', at', rest⟩ := core.asked n t sent
      exact ⟨r', (List.getElem?_append_left (List.getElem?_eq_some_iff.mp at').1).trans at', rest⟩
    · exact ⟨request, by rw [core.length]; simp, own⟩
  · show (s.sent ++ [_]).length = host.requests.length
    rw [requests, List.length_append, List.length_append, core.length]
    rfl
  · intro q' k d n at' number
    obtain ⟨t, sent, queue, position, full⟩ := core.ended q' k d n at' number
    refine ⟨t, sent_asking_of_sent sent, queue, position, fun good => ⟨kept n (full good).1, ?_⟩⟩
    show _ ≤ host.transferred n
    rw [transferred]
    exact (full good).2
  · intro n t sent
    rw [mem]
    rcases sent_asking_cases sent with sent | ⟨rfl, -⟩
    · exact (core.each n t sent).imp_left .inl
    · exact .inl (.inr rfl)
  · intro n flying
    rcases (mem n).mp flying with flying | rfl
    · obtain ⟨t, sent, position⟩ := core.current n flying
      exact ⟨t, sent_asking_of_sent sent, position⟩
    · exact ⟨_, sent_asking_last s, rfl⟩
  · intro n flying n' flying' t t' sent sent' same
    rcases (mem n).mp flying with flying | rfl
    · rcases sent_asking_cases sent with sent | ⟨rfl, -⟩
      · rcases (mem n').mp flying' with flying' | rfl
        · rcases sent_asking_cases sent' with sent' | ⟨rfl, -⟩
          · exact core.single n flying n' flying' t t' sent sent' same
          · obtain ⟨t1, sent1, -⟩ := core.current _ flying'
            exact absurd rfl (fresh _ t1 sent1)
        · rcases sent_asking_cases sent' with sent' | ⟨-, rfl⟩
          · exact absurd rfl (fresh _ t' sent')
          · exact absurd same (idle n flying t sent)
      · obtain ⟨t1, sent1, -⟩ := core.current _ flying
        exact absurd rfl (fresh _ t1 sent1)
    · rcases sent_asking_cases sent with sent | ⟨-, rfl⟩
      · exact absurd rfl (fresh _ t sent)
      · rcases (mem n').mp flying' with flying' | rfl
        · rcases sent_asking_cases sent' with sent' | ⟨rfl, -⟩
          · exact absurd same.symm (idle n' flying' t' sent')
          · rfl
        · rfl

/-- The passage page has the segment's own place on the disk and in memory. -/
theorem moves_of_blockCall {b : BlockRequest} {answer : CobdAnswer}
    (isCall : b.Of (blockCall unit q r answer)) : b.Moves r where
  irqRequest := isCall.irqRequest
  write := isCall.write
  offset := isCall.offset.trans ((Nat.shiftLeft_eq ..).trans (Nat.mul_comm ..))
  address := isCall.address
  size := isCall.size.trans ((Nat.shiftLeft_eq ..).trans (Nat.mul_comm ..))

/-- The state after `cobd_transfer`. -/
def transferred (unit : Nat → Fin coModuleMaxCobd) (serve : Nat → CobdAnswer) (q : Nat)
    (r : DiskRequest) (s : Cobd layer) : Cobd layer :=
  s.asking (s.host.coMonitorBlockRequest (blockCall unit q r (serve s.host.requests.length))) q r

theorem cobdTransfer_eq {request : BlockRequest}
    (requests : (s.host.coMonitorBlockRequest
      (blockCall unit q r (serve s.host.requests.length))).requests =
        s.host.requests ++ [request]) :
    cobdTransfer unit serve q r s =
      (request.rc, request.async, s.transferred unit serve q r) := by
  have last : (s.host.coMonitorBlockRequest
      (blockCall unit q r (serve s.host.requests.length))).requests[s.host.requests.length]? =
        some request := by
    rw [requests]
    simp
  unfold cobdTransfer
  dsimp only
  rw [last]
  rfl

theorem mem_inFlight (s : Cobd layer) (m : Nat) : m ∈ s.inFlight ↔
    m ∈ AsyncBlock.ids s.host.pending ∨ m ∈ AsyncBlock.ids s.host.queue ∨
      m ∈ (s.host.delivered.drop s.taken).map (·.request) := by
  unfold inFlight
  rw [List.append_assoc, List.mem_append, List.mem_append]

variable (unit serve) in
/-- A request that the host takes is under way. -/
theorem mem_inFlight_transferred {call : BlockCall}
    (isCall : call = blockCall unit q r (serve s.host.requests.length))
    (pending : (s.host.coMonitorBlockRequest call).pending = s.host.pending ++ [s.host.newContext call])
    (m : Nat) : m ∈ (s.transferred unit serve q r).inFlight ↔
      m ∈ s.inFlight ∨ m = s.host.requests.length := by
  subst isCall
  obtain ⟨queue, delivered, -⟩ := AsyncBlock.coMonitorBlockRequest_frame
    (blockCall unit q r (serve s.host.requests.length)) s.host
  rw [mem_inFlight, mem_inFlight]
  simp only [transferred, asking, queue, delivered, pending, AsyncBlock.ids, List.map_append,
    List.map_singleton, List.mem_append, List.mem_singleton, AsyncBlock.newContext]
  tauto

theorem mem_inFlight_transferred_refused {call : BlockCall}
    (isCall : call = blockCall unit q r (serve s.host.requests.length))
    (pending : (s.host.coMonitorBlockRequest call).pending = s.host.pending)
    (m : Nat) : m ∈ (s.transferred unit serve q r).inFlight ↔ m ∈ s.inFlight := by
  subst isCall
  obtain ⟨queue, delivered, -⟩ := AsyncBlock.coMonitorBlockRequest_frame
    (blockCall unit q r (serve s.host.requests.length)) s.host
  rw [mem_inFlight, mem_inFlight]
  simp only [transferred, asking, queue, delivered, pending]

/-- A request is under way, or refused and its outcome in hand. -/
theorem cobdTransfer_cases (core : Core segments unit serve [] s) (idle : s.Idle q)
    (head : s.plan segments q = r :: rest) (fs : r.fs = true)
    (served : ∀ n, (serve n).mapGranted = true ∧ (serve n).status ≠ .endOfFile) :
    cobdTransfer unit serve q r s = (.ok, true, s.transferred unit serve q r) ∧
        Core segments unit serve [] (s.transferred unit serve q r) ∧
        s.sent.length ∈ (s.transferred unit serve q r).inFlight ∨
      ∃ async, cobdTransfer unit serve q r s = (.error, async, s.transferred unit serve q r) ∧
        Core segments unit serve [s.sent.length] (s.transferred unit serve q r) := by
  let call := blockCall unit q r (serve s.host.requests.length)
  obtain ⟨request, requests, isCall, outcome⟩ :=
    AsyncBlock.coMonitorBlockRequest_cases call s.host (served _).2
  obtain ⟨-, delivered, moved⟩ := AsyncBlock.coMonitorBlockRequest_frame call s.host
  have answered : (s.host.coMonitorBlockRequest call).Answered :=
    (AsyncBlock.request_answered_iff core.host call).mpr fun _ => served _
  have launched : (s.host.coMonitorBlockRequest call).Launched fun n => (serve n).world :=
    core.launched.request rfl fun _ => (served _).1
  have kept := AsyncBlock.launched_request call s.host
  have own : request.unit = unit q ∧ request.Moves r := ⟨isCall.unit, moves_of_blockCall isCall⟩
  rcases outcome with ⟨isOk, async, pending⟩ | ⟨failed, pending⟩
  · have more := mem_inFlight_transferred unit serve (s := s) (q := q) (r := r) rfl pending
    rw [← core.length] at more
    refine .inl ⟨?_, ?_, (more _).mpr (.inr rfl)⟩
    · rw [cobdTransfer_eq requests, isOk, async]
    · exact core.asking idle head fs answered launched kept requests own moved delivered more nofun
  · have same := mem_inFlight_transferred_refused (s := s) (q := q) (r := r) rfl pending
    refine .inr ⟨request.async, ?_, ?_⟩
    · rw [cobdTransfer_eq requests, failed]
    · refine core.asking idle head fs answered launched kept requests own moved delivered
        (fun m => ?_) fun m mem => ?_
      · rw [List.singleton_append, List.mem_cons, or_comm]
        exact or_congr_left (same m)
      · obtain rfl := List.mem_singleton.mp mem
        intro flying
        obtain ⟨t, sent, -⟩ := core.current _ ((same _).mp flying)
        exact absurd (List.getElem?_eq_some_iff.mp sent).1 (Nat.lt_irrefl _)

/-! ## The request function -/

/-- What the request function of `q` leaves alone. -/
structure Spares (segments : layer.Queue → List DiskRequest) (q : Nat) (s s' : Cobd layer) :
    Prop where
  queues : ∀ q', q' ≠ q → s'.plan segments q' = s.plan segments q'
  plugged : s'.plugged = s.plugged
  sent : ∀ n t, s.Sent n t → s'.Sent n t
  inFlight : ∀ n ∈ s.inFlight, n ∈ s'.inFlight
  done : (s.done q).length ≤ (s'.done q).length
  submitted : s'.submitted = s.submitted
  owner : (∀ q', ∀ r ∈ s.plan segments q', s.made[r.id]? = some q') →
    ∀ q', ∀ r ∈ s'.plan segments q', s'.made[r.id]? = some q'

theorem Spares.refl (q : Nat) (s : Cobd layer) : Spares segments q s s :=
  ⟨fun _ _ => rfl, rfl, fun _ _ => id, fun _ => id, Nat.le_refl _, rfl, id⟩

theorem Spares.trans {s' s'' : Cobd layer} (one : Spares segments q s s')
    (two : Spares segments q s' s'') : Spares segments q s s'' :=
  ⟨fun q' other => (two.queues q' other).trans (one.queues q' other),
    two.plugged.trans one.plugged, fun n t sent => two.sent n t (one.sent n t sent),
    fun n flying => two.inFlight n (one.inFlight n flying), Nat.le_trans one.done two.done,
    two.submitted.trans one.submitted, fun owner => two.owner (one.owner owner)⟩

theorem spares_endRequest (documented : layer.Documented segments)
    (made : s.made[r.id]? = some q) (head : s.plan segments q = r :: rest) (uptodate : Nat)
    (number : Option Nat) : Spares segments q s (s.endRequest r.id uptodate number) := by
  have plans := plan_endRequest documented made head uptodate number
  rw [endRequest_head documented made head] at plans ⊢
  refine ⟨fun q' other => (plans q').trans (if_neg other), rfl, fun _ _ => id, fun _ => id, ?_, rfl,
    fun owner q' r' mem => ?_⟩
  · dsimp only
    rw [Function.update_self, List.length_append]
    exact Nat.le_add_right _ _
  · rw [plans] at mem
    by_cases same : q' = q
    · rw [if_pos same] at mem
      exact owner q' r' (same ▸ head ▸ List.mem_cons_of_mem r mem)
    · rw [if_neg same] at mem
      exact owner q' r' mem

variable (segments unit) in
theorem spares_transferred (s : Cobd layer) (q : Nat) (r : DiskRequest)
    (served : ∀ n, (serve n).mapGranted = true ∧ (serve n).status ≠ .endOfFile) :
    Spares segments q s (s.transferred unit serve q r) := by
  let call := blockCall unit q r (serve s.host.requests.length)
  obtain ⟨request, -, -, outcome⟩ :=
    AsyncBlock.coMonitorBlockRequest_cases call s.host (served _).2
  refine ⟨fun _ _ => rfl, rfl, fun _ _ sent => sent_asking_of_sent sent, fun n flying => ?_,
    Nat.le_refl _, rfl, id⟩
  rcases outcome with ⟨-, -, pending⟩ | ⟨-, pending⟩
  · exact (mem_inFlight_transferred unit serve rfl pending n).mpr (.inl flying)
  · exact (mem_inFlight_transferred_refused rfl pending n).mpr flying

variable (unit) in
theorem doCobdRequest_spares (documented : layer.Documented segments) (q : Nat)
    (served : ∀ n, (serve n).mapGranted = true ∧ (serve n).status ≠ .endOfFile) (fuel : Nat)
    (owner : ∀ q', ∀ r ∈ s.plan segments q', s.made[r.id]? = some q') :
    Spares segments q s (doCobdRequest unit serve fuel q s) := by
  induction fuel generalizing s with
  | zero => exact Spares.refl q s
  | succ fuel ih =>
    rw [doCobdRequest]
    cases head : s.plan segments q with
    | nil =>
      rw [elvNextRequest_empty documented head]
      exact Spares.refl q s
    | cons r rest =>
      rw [elvNextRequest_head documented head]
      dsimp only
      have made := owner q r (head ▸ List.mem_cons_self)
      split
      · obtain ⟨request, requests, -⟩ := AsyncBlock.coMonitorBlockRequest_cases
          (blockCall unit q r (serve s.host.requests.length)) s.host (served _).2
        have asked := spares_transferred segments unit s q r served
        have ended := fun uptodate number => asked.trans (spares_endRequest
          (s := s.transferred unit serve q r) documented made head uptodate number)
        rw [cobdTransfer_eq requests]
        cases request.rc with
        | ok =>
          dsimp only
          split
          · exact asked
          · exact (ended _ _).trans (ih ((ended _ _).owner owner))
        | error => exact (ended _ _).trans (ih ((ended _ _).owner owner))
      · have ended := spares_endRequest documented made head 0 none
        exact ended.trans (ih (ended.owner owner))

theorem length_plan_endRequest (documented : layer.Documented segments)
    (made : s.made[r.id]? = some q) (head : s.plan segments q = r :: rest) (uptodate : Nat)
    (number : Option Nat) :
    ((s.endRequest r.id uptodate number).plan segments q).length + 1 =
      (s.plan segments q).length := by
  rw [plan_endRequest documented made head, if_pos rfl, head, List.length_cons]

/-- The request function on a queue of which nothing is under way: it is empty in the end, or its
head is under way. -/
theorem doCobdRequest_core (documented : layer.Documented segments)
    (served : ∀ n, (serve n).mapGranted = true ∧ (serve n).status ≠ .endOfFile) {fuel : Nat}
    (core : Core segments unit serve [] s) (idle : s.Idle q)
    (enough : (s.plan segments q).length ≤ fuel) :
    Core segments unit serve [] (doCobdRequest unit serve fuel q s) ∧
      ((doCobdRequest unit serve fuel q s).plan segments q ≠ [] →
        ∃ n ∈ (doCobdRequest unit serve fuel q s).inFlight, ∃ t,
          (doCobdRequest unit serve fuel q s).Sent n t ∧ t.queue = q) := by
  induction fuel generalizing s with
  | zero =>
    refine ⟨core, fun some => ?_⟩
    exact absurd (List.length_eq_zero_iff.mp (Nat.le_zero.mp enough)) some
  | succ fuel ih =>
    rw [doCobdRequest]
    cases head : s.plan segments q with
    | nil =>
      rw [elvNextRequest_empty documented head]
      exact ⟨core, fun some => absurd head some⟩
    | cons r rest =>
      rw [elvNextRequest_head documented head]
      dsimp only
      have made := core.owner q r (head ▸ List.mem_cons_self)
      split
      · rename_i fs
        rcases cobdTransfer_cases core idle head fs served with
          ⟨eq, asked, flying⟩ | ⟨async, eq, asked⟩
        · rw [eq]
          exact ⟨asked, fun _ => ⟨_, flying, _, sent_asking_last s, rfl⟩⟩
        · rw [eq]
          have number : s.host.requests.length = s.sent.length := core.length.symm
          obtain ⟨ended, idle'⟩ := asked.endHead documented head 0 (some s.sent.length)
            (.inr ⟨_, _, rfl, rfl, sent_asking_last s, rfl, fun good => absurd good nofun⟩)
          dsimp only
          rw [number]
          refine ih ended idle' ?_
          have shorter := length_plan_endRequest (s := s.transferred unit serve q r) documented made
            head 0 (some s.sent.length)
          have same : ((s.transferred unit serve q r).plan segments q).length =
            (s.plan segments q).length := rfl
          omega
      · rename_i notFs
        obtain ⟨ended, idle'⟩ := core.endHead documented head 0 none
          (.inl ⟨rfl, rfl, idle, Bool.eq_false_iff.mpr notFs, rfl⟩)
        refine ih ended idle' ?_
        have shorter := length_plan_endRequest documented made head 0 none
        omega

end Cobd

end CoLinux
