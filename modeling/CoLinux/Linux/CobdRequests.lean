import CoLinux.Linux.CobdPieces

/-!
# Block requests from the guest's queues to the host's files and back

The driver has at most one I/O of a queue under way, as long as the block layer does not call its
request function meanwhile: it does not look whether the head of the queue was sent already.
-/

namespace CoLinux.Cobd

open Lib

variable {layer : BlockLayer} {segments : layer.Queue → List DiskRequest}
  {unit : Nat → Fin coModuleMaxCobd} {serve : Nat → CobdAnswer} {s : Cobd layer} {q : Nat}
  {r : DiskRequest} {rest : List DiskRequest} {hand : List Nat} {host : AsyncBlock}

/-! ## Every step -/

/-- What a maintainer relies on. -/
structure Sound (segments : layer.Queue → List DiskRequest) (unit : Nat → Fin coModuleMaxCobd)
    (serve : Nat → CobdAnswer) (s : Cobd layer) : Prop where
  core : Core segments unit serve [] s
  busy : ∀ q, s.Busy segments q

/-- The block layer does not call the request function while an I/O of the queue is under way, and
the host serves its completions as the code expects. -/
def Allowed (s : Cobd layer) : CobdEvent → Prop
  | .requestFn q => s.Idle q
  | .complete i status information granted =>
    HostServes s.host (.complete i status information granted)
  | _ => True

section Steps

variable (documented : layer.Documented segments)
  (served : ∀ n, (serve n).mapGranted = true ∧ (serve n).status ≠ .endOfFile)
include documented served

/-- The request function keeps the other queues busy, and its own. -/
theorem sound_doCobdRequest (core : Core segments unit serve [] s) (idle : s.Idle q)
    (others : ∀ q', q' ≠ q → s.Busy segments q') :
    Sound segments unit serve (doCobdRequest unit serve (s.submitted q).length q s) := by
  obtain ⟨core', busy⟩ := doCobdRequest_core documented served core idle (core.enough q)
  have spares := doCobdRequest_spares unit documented q served (s.submitted q).length core.owner
  refine ⟨core', fun q' some => ?_⟩
  by_cases same : q' = q
  · subst same
    exact .inr (busy some)
  · rw [spares.queues q' same] at some
    rcases others q' same some with plugged | ⟨n, flying, t, sent, queue⟩
    · exact .inl (spares.plugged ▸ plugged)
    · exact .inr ⟨n, spares.inFlight n flying, t, spares.sent n t sent, queue⟩

theorem sound_requestFn (sound : Sound segments unit serve s) (idle : s.Idle q) :
    Sound segments unit serve (s.requestFn unit serve q) := by
  have core : Core segments unit serve [] { s with plugged := Function.update s.plugged q false } :=
    { sound.core with }
  refine sound_doCobdRequest documented served core idle fun q' other some => ?_
  refine (sound.busy q' some).imp_left fun plugged => ?_
  exact (Function.update_of_ne other _ _).trans plugged

/-- While an I/O is under way the request function sends its piece again. -/
theorem not_sound_doCobdRequest (core : Core segments unit serve [] s) (busy : ¬ s.Idle q) :
    ¬ Sound segments unit serve (doCobdRequest unit serve (s.submitted q).length q s) := by
  intro after
  obtain ⟨n, flying, t, sent, rfl⟩ : ∃ n ∈ s.inFlight, ∃ t, s.Sent n t ∧ t.queue = q := by
    by_contra none
    exact busy fun n flying t sent same => none ⟨n, flying, t, sent, same⟩
  obtain ⟨position, rest, head⟩ := core.head_of_sent (by simpa using flying) sent
  generalize t.piece = r at head
  have fs : r.fs = true := by
    obtain ⟨there, fs⟩ := core.sent n t sent
    rw [position, core.piece_of_head head] at there
    exact Option.some.inj there ▸ fs
  have made := core.owner t.queue r (head ▸ List.mem_cons_self)
  obtain ⟨request, requests, -, outcome⟩ := AsyncBlock.coMonitorBlockRequest_cases
    (blockCall unit t.queue r (serve s.host.requests.length)) s.host (served _).2
  -- the first turn sends the segment again
  have enough := core.enough t.queue
  rw [head, List.length_cons] at enough
  obtain ⟨fuel, turns⟩ := Nat.exists_eq_add_of_lt enough
  rw [turns, doCobdRequest, elvNextRequest_head documented head] at after
  dsimp only at after
  rw [if_pos fs, cobdTransfer_eq requests] at after
  rcases outcome with ⟨isOk, async, pending⟩ | ⟨failed, pending⟩
  · -- two transfers of it are under way
    rw [isOk, async] at after
    have after : Sound segments unit serve (s.transferred unit serve t.queue r) := after
    have more := mem_inFlight_transferred unit serve (q := t.queue) (r := r) rfl pending
    rw [← core.length] at more
    have eq := after.core.single n ((more n).mpr (.inl flying)) _ ((more _).mpr (.inr rfl)) t _
      (sent_asking_of_sent sent) (sent_asking_last s) rfl
    exact absurd eq (Nat.ne_of_lt (List.getElem?_eq_some_iff.mp sent).1)
  · -- it has failed, and a transfer of it is under way
    rw [failed] at after
    have asked := spares_transferred segments unit s t.queue r served
    have ended := asked.trans (spares_endRequest (s := s.transferred unit serve t.queue r)
      documented made head 0 (some s.host.requests.length))
    have further := doCobdRequest_spares unit documented t.queue served (rest.length + fuel)
      (ended.owner core.owner)
    have all := ended.trans further
    obtain ⟨t', sent', position'⟩ := after.core.current n (all.inFlight n flying)
    obtain rfl : t = t' := Option.some.inj ((all.sent n t sent).symm.trans sent')
    have longer : (s.done t.queue).length <
        (((s.transferred unit serve t.queue r).endRequest r.id 0
          (some s.host.requests.length)).done t.queue).length := by
      rw [endRequest_head (s := s.transferred unit serve t.queue r) documented made head]
      dsimp only
      rw [Function.update_self, List.length_append]
      exact Nat.lt_succ_self _
    have later := Nat.lt_of_lt_of_le longer further.done
    rw [← position] at later
    exact absurd position' (Nat.ne_of_lt later)

theorem not_sound_requestFn (sound : Sound segments unit serve s) (busy : ¬ s.Idle q) :
    ¬ Sound segments unit serve (s.requestFn unit serve q) := by
  have core : Core segments unit serve [] { s with plugged := Function.update s.plugged q false } :=
    { sound.core with }
  exact not_sound_doCobdRequest documented served core busy

end Steps

/-- The host's side has gone on, or the guest has taken a message. -/
theorem Core.rehost (hand' : List Nat) (taken : Nat) (core : Core segments unit serve hand s)
    (answered : host.Answered) (launched : host.Launched fun n => (serve n).world)
    (ios : host.ios = s.host.ios) (requests : host.requests = s.host.requests)
    (transferred : ∀ n, n ∉ hand ++ s.inFlight → host.transferred n = s.host.transferred n)
    (mem : ∀ m, m ∈ hand' ++ inFlight { s with host := host, taken := taken } ↔
      m ∈ hand ++ s.inFlight)
    (apart : ∀ m ∈ hand', m ∉ inFlight { s with host := host, taken := taken })
    (le : taken ≤ host.delivered.length) :
    Core segments unit serve hand' { s with host := host, taken := taken } :=
  { core with
    host := answered
    launched := launched
    asked := by
      intro n t sent
      show ∃ r, host.requests[n]? = some r ∧ _
      rw [requests]
      exact core.asked n t sent
    length := by
      show s.sent.length = host.requests.length
      rw [requests, core.length]
    ended := by
      intro q k d n at' number
      obtain ⟨t, sent, queue, position, full⟩ := core.ended q k d n at' number
      refine ⟨t, sent, queue, position, fun good => ⟨?_, ?_⟩⟩
      · show n ∈ host.launched
        rw [AsyncBlock.launched, ios]
        exact (full good).1
      show _ ≤ host.transferred n
      rw [transferred n]
      · exact (full good).2
      · intro flying
        have last := (core.head_of_sent flying sent).1
        have lt : k < (s.done q).length := (List.getElem?_eq_some_iff.mp at').1
        rw [queue] at last
        omega
    each := fun n t sent => (core.each n t sent).imp_left (mem n).mpr
    current := fun n flying => core.current n ((mem n).mp flying)
    single := fun n flying n' flying' =>
      core.single n ((mem n).mp flying) n' ((mem n').mp flying')
    apart := apart
    taken := le }

theorem Busy.rehost {taken : Nat} (busy : s.Busy segments q)
    (mem : ∀ m, m ∈ s.inFlight → m ∈ inFlight { s with host := host, taken := taken }) :
    Busy segments { s with host := host, taken := taken } q := by
  intro some
  refine (busy some).imp_right ?_
  rintro ⟨n, flying, rest⟩
  exact ⟨n, mem n flying, rest⟩

theorem sound_returnMessage (sound : Sound segments unit serve s) :
    Sound segments unit serve { s with host := s.host.returnMessage } := by
  have answered := sound.core.host.returnMessage
  cases queue : s.host.queue with
  | nil =>
    have same : s.host.returnMessage = s.host := by
      unfold AsyncBlock.returnMessage
      rw [queue]
    rw [same]
    exact sound
  | cons c rest =>
    have eq : s.host.returnMessage = { s.host with
        queue := rest
        delivered := s.host.delivered ++ [c.msg]
        ledger := s.host.ledger.release (.context c.msg.request) } := by
      unfold AsyncBlock.returnMessage
      rw [queue]
    have mem : ∀ m, m ∈ inFlight { s with host := s.host.returnMessage } ↔ m ∈ s.inFlight := by
      intro m
      rw [mem_inFlight, mem_inFlight, queue]
      simp only [eq, List.drop_append_of_le_length sound.core.taken, AsyncBlock.ids,
        List.map_append, List.map_cons, List.map_nil, List.mem_append, List.mem_cons,
        List.not_mem_nil, or_false]
      tauto
    refine ⟨sound.core.rehost [] s.taken answered sound.core.launched.returnMessage (by rw [eq])
      (by rw [eq]) (fun _ _ => by rw [eq]) mem (fun _ busy => absurd busy List.not_mem_nil) ?_,
      fun q => (sound.busy q).rehost fun m => (mem m).mpr⟩
    rw [eq, List.length_append]
    exact Nat.le_trans sound.core.taken (Nat.le_add_right _ _)

theorem sound_complete (sound : Sound segments unit serve s) {i : Nat} {status : NtStatus}
    {information : Nat}
    {granted : Bool} (serves : HostServes s.host (.complete i status information granted)) :
    Sound segments unit serve { s with
      host := s.host.transferFileBlockCallback i status information granted } := by
  have answered := (AsyncBlock.complete_answered_iff sound.core.host i status information
    granted).mpr serves
  cases at' : s.host.pending[i]? with
  | none =>
    have same : s.host.transferFileBlockCallback i status information granted = s.host := by
      unfold AsyncBlock.transferFileBlockCallback
      rw [at']
    rw [same]
    exact sound
  | some c =>
    obtain rfl := (serves c at').1
    have eq := AsyncBlock.callback_queued at' status information
    have erased : ∀ m, m ∈ AsyncBlock.ids s.host.pending ↔
        m ∈ AsyncBlock.ids (s.host.pending.eraseIdx i) ∨ m = c.msg.request := by
      intro m
      have count := AsyncBlock.ids_eraseIdx at' m
      rw [← List.count_pos_iff, ← List.count_pos_iff, count]
      split <;> simp_all [eq_comm]
    have mem : ∀ m, m ∈ inFlight { s with
        host := s.host.transferFileBlockCallback i status information true } ↔
          m ∈ s.inFlight := by
      intro m
      rw [mem_inFlight, mem_inFlight, erased]
      simp only [eq, AsyncBlock.ids, AsyncBlock.completed, List.map_append, List.map_cons,
        List.map_nil, List.mem_append, List.mem_cons, List.not_mem_nil, or_false]
      tauto
    refine ⟨sound.core.rehost [] s.taken answered (sound.core.launched.complete i status information
      true) (by rw [eq]) (by rw [eq]) ?_ mem
      (fun _ busy => absurd busy List.not_mem_nil)
      (by rw [eq]; exact sound.core.taken), fun q => (sound.busy q).rehost fun m => (mem m).mpr⟩
    intro n idle
    rw [eq]
    refine Function.update_of_ne ?_ _ _
    rintro rfl
    exact idle ((mem_inFlight s _).mpr (.inl ((erased _).mpr (.inr rfl))))

/-! ## Interrupts -/

/-- The next message is about the head of its queue. -/
theorem Core.message (core : Core segments unit serve [] s) {m : BlockMessage}
    (next : s.host.delivered[s.taken]? = some m) :
    ∃ t rest, s.Sent m.request t ∧ m.unit = unit t.queue ∧
      s.plan segments t.queue = t.piece :: rest ∧ m.irqRequest = t.piece.id ∧
      (m.uptodate = 1 → s.Whole m.request t.piece) := by
  have delivered := List.mem_of_getElem? next
  obtain ⟨request, asked, full⟩ := core.host.own m (List.mem_append_right _ delivered)
  have flying : m.request ∈ s.inFlight := by
    apply (mem_inFlight s _).mpr
    refine .inr (.inr (List.mem_map.mpr ⟨m, ?_, rfl⟩))
    obtain ⟨lt, rfl⟩ := List.getElem?_eq_some_iff.mp next
    rw [List.drop_eq_getElem_cons lt]
    exact List.mem_cons_self
  obtain ⟨t, sent, -⟩ := core.current _ (by simpa using flying)
  obtain ⟨-, rest, head⟩ := core.head_of_sent (by simpa using flying) sent
  obtain ⟨request', asked', itsUnit, moves⟩ := core.asked _ t sent
  obtain rfl : request = request' := Option.some.inj (asked.1.symm.trans asked')
  refine ⟨t, rest, sent, asked.2.1.symm.trans itsUnit, head, asked.2.2.symm.trans moves.irqRequest,
    fun good => ⟨core.launched.messages m (List.mem_append_right _ delivered), ?_⟩⟩
  rw [← moves.size]
  exact full good

/-- A message that is taken is in hand, and no other is about its request. -/
theorem Core.take (core : Core segments unit serve [] s) {m : BlockMessage}
    (next : s.host.delivered[s.taken]? = some m) :
    Core segments unit serve [m.request] { s with taken := s.taken + 1 } := by
  obtain ⟨lt, eq⟩ := List.getElem?_eq_some_iff.mp next
  have drop := List.drop_eq_getElem_cons lt
  rw [eq] at drop
  have once := core.host.once m.request
  have most := AsyncBlock.due_le_one s.host m.request
  have parts : (s.host.messages.map (·.request)).count m.request =
      (AsyncBlock.ids s.host.queue).count m.request +
        ((s.host.delivered.take s.taken).map (·.request)).count m.request +
          (((s.host.delivered.drop (s.taken + 1)).map (·.request)).count m.request + 1) := by
    have whole := List.take_append_drop s.taken s.host.delivered
    rw [drop] at whole
    unfold AsyncBlock.messages
    rw [← whole]
    simp only [List.map_append, List.map_cons, List.map_map, List.count_append,
      List.count_cons_self, AsyncBlock.ids, Function.comp_def]
    rw [whole]
    omega
  refine core.rehost _ _ core.host core.launched rfl rfl (fun _ _ => rfl) (fun k => ?_)
    (fun k mem => ?_) lt
  · rw [List.singleton_append, List.mem_cons, List.nil_append, mem_inFlight, mem_inFlight, drop]
    simp only [List.map_cons, List.mem_cons]
    tauto
  · obtain rfl := List.mem_singleton.mp mem
    rw [mem_inFlight, ← List.count_pos_iff, ← List.count_pos_iff, ← List.count_pos_iff]
    dsimp only
    omega

theorem sound_interrupt (documented : layer.Documented segments)
    (served : ∀ n, (serve n).mapGranted = true ∧ (serve n).status ≠ .endOfFile)
    (sound : Sound segments unit serve s) :
    Sound segments unit serve (s.cobdInterrupt unit serve) := by
  unfold cobdInterrupt
  cases next : s.host.delivered[s.taken]? with
  | none => exact sound
  | some m =>
    obtain ⟨t, rest, sent, itsUnit, head, irq, full⟩ := sound.core.message next
    have made := sound.core.owner t.queue t.piece (head ▸ List.mem_cons_self)
    have inHand := sound.core.take next
    obtain ⟨ended, idle⟩ := inHand.endHead (q := t.queue) documented head m.uptodate (some m.request)
      (.inr ⟨_, t, rfl, rfl, sent, rfl, full⟩)
    have others := spares_endRequest (s := { s with taken := s.taken + 1 }) documented made head
      m.uptodate (some m.request)
    dsimp only
    rw [if_neg (by rw [itsUnit]; exact Nat.not_le.mpr (unit t.queue).isLt), irq]
    have stays : ({ s with taken := s.taken + 1 } : Cobd layer).endRequest t.piece.id m.uptodate
        (some m.request) |>.made[t.piece.id]? = some t.queue := by
      rw [endRequest_head (s := { s with taken := s.taken + 1 }) documented made head]
      exact made
    rw [stays]
    refine sound_doCobdRequest documented served ended idle fun q' other some => ?_
    rw [others.queues q' other] at some
    rcases sound.busy q' some with plugged | ⟨n, flying, t', sent', queue⟩
    · exact .inl ((congrFun others.plugged q').trans plugged)
    · refine .inr ⟨n, others.inFlight n ?_, t', others.sent n t' sent', queue⟩
      -- the message is about another queue
      have apart : n ≠ m.request := by
        rintro rfl
        obtain rfl : t = t' := Option.some.inj (sent.symm.trans sent')
        exact other queue.symm
      obtain ⟨lt, eq⟩ := List.getElem?_eq_some_iff.mp next
      rw [mem_inFlight, List.drop_eq_getElem_cons lt, eq, List.map_cons, List.mem_cons,
        or_iff_right apart] at flying
      exact (mem_inFlight _ n).mpr flying

/-! ## Submitting a request -/

theorem segments_id {id : Nat} {fs write : Bool} {l : List Segment} {sector : Nat}
    {r : DiskRequest} (mem : r ∈ NewRequest.segmentsFrom id fs write sector l) : r.id = id := by
  induction l generalizing sector with
  | nil => exact absurd mem List.not_mem_nil
  | cons g rest ih =>
    rcases List.mem_cons.mp mem with rfl | mem
    · rfl
    · exact ih mem

theorem sound_submit (documented : layer.Documented segments)
    (sound : Sound segments unit serve s) (q : Nat) (fs write : Bool) (sector : Nat)
    (current : Segment) (more : List Segment) :
    Sound segments unit serve (s.submit q fs write sector current more) := by
  have core := sound.core
  let r : NewRequest := ⟨s.made.length, fs, write, sector, current, more⟩
  have plans : ∀ q', (s.submit q fs write sector current more).plan segments q' =
      if q' = q then s.plan segments q ++ r.segments else s.plan segments q' := by
    intro q'
    unfold plan submit
    dsimp only
    split
    · rename_i same
      rw [same, Function.update_self]
      exact documented.add r _
    · rename_i other
      rw [Function.update_of_ne other]
  refine ⟨{ core with order := ?_, sent := ?_, owner := ?_ }, fun q' some => ?_⟩
  · intro q'
    rw [plans]
    simp only [submit]
    by_cases same : q' = q
    · subst same
      rw [if_pos rfl, Function.update_self, ← List.append_assoc, core.order q']
    · rw [if_neg same, Function.update_of_ne same]
      exact core.order q'
  · intro n t sent
    obtain ⟨there, fs⟩ := core.sent n t sent
    refine ⟨?_, fs⟩
    simp only [submit]
    by_cases same : t.queue = q
    · subst same
      rw [Function.update_self]
      exact (List.getElem?_append_left (List.getElem?_eq_some_iff.mp there).1).trans there
    · rw [Function.update_of_ne same]
      exact there
  · intro q' r' mem
    have old : r' ∈ s.plan segments q' → (s.made ++ [q])[r'.id]? = some q' := by
      intro mem
      have at' := core.owner q' r' mem
      exact (List.getElem?_append_left (List.getElem?_eq_some_iff.mp at').1).trans at'
    rw [plans] at mem
    by_cases same : q' = q
    · subst same
      rw [if_pos rfl] at mem
      rcases List.mem_append.mp mem with mem | mem
      · exact old mem
      · rw [segments_id mem]
        simp [submit, r]
    · rw [if_neg same] at mem
      exact old mem
  · rw [plans] at some
    simp only [submit]
    by_cases same : q' = q
    · subst same
      cases empty : s.plan segments q' with
      | nil => exact .inl (by simp [elvNextRequest_empty documented empty])
      | cons r' rest =>
        rw [elvNextRequest_head documented empty]
        simp only [Option.isNone_some, Bool.false_eq_true, if_false]
        exact sound.busy q' (by rw [empty]; exact List.cons_ne_nil r' rest)
    · rw [if_neg same] at some
      refine (sound.busy q' some).imp_left fun plugged => ?_
      split
      · exact (Function.update_of_ne same _ _).trans plugged
      · exact plugged

/-! ## Every run -/

theorem sound_boot (documented : layer.Documented segments)
    (blockDevs : Nat → Option FileBlockState) :
    Sound segments unit serve (boot blockDevs) := by
  refine ⟨?_, fun _ some => absurd documented.empty some⟩
  refine
    { host := AsyncBlock.answered_boot blockDevs
      launched := AsyncBlock.launched_boot blockDevs
      faults := rfl
      order := fun _ => documented.empty
      sent := fun _ _ sent => absurd sent nofun
      asked := fun _ _ sent => absurd sent nofun
      length := rfl
      unsent := fun _ _ mem => absurd mem List.not_mem_nil
      ended := fun _ _ _ _ at' => absurd at' nofun
      each := fun _ _ sent => absurd sent nofun
      current := fun _ flying => absurd flying List.not_mem_nil
      single := fun _ flying => absurd flying List.not_mem_nil
      apart := nofun
      taken := Nat.le_refl 0
      owner := fun _ r mem => absurd (documented.empty ▸ mem : r ∈ []) List.not_mem_nil }

instance (s : Cobd layer) (q : Nat) : Decidable (s.Idle q) :=
  decidable_of_iff (∀ n ∈ s.inFlight, ∀ t ∈ s.sent[n]?, t.queue ≠ q) Iff.rfl

instance (s : Cobd layer) : ∀ e, Decidable (s.Allowed e)
  | .requestFn q => inferInstanceAs (Decidable (s.Idle q))
  | .complete i status information granted =>
    decidable_of_iff (∀ c ∈ s.host.pending[i]?,
      granted = true ∧ (status = .success → c.size ≤ information)) Iff.rfl
  | .submit .. => .isTrue trivial
  | .interrupt => .isTrue trivial
  | .returnMessage => .isTrue trivial

/-- What is left of a request when its current segment is ended. -/
def advance (r : NewRequest) : Option NewRequest :=
  match r.rest with
  | [] => none
  | next :: rest =>
    some { r with sector := r.sector + r.current.sectors, current := next, rest := rest }

/-- The end of the current segment of a request that is in the queue. -/
def endIn (id : Nat) : List NewRequest → List NewRequest
  | [] => []
  | r :: queue => if r.id = id then (advance r).toList ++ queue else r :: endIn id queue

/-- A block layer that leaves the requests in the order in which they come. -/
def fifoLayer : BlockLayer where
  Queue := List NewRequest
  empty := []
  add := fun r queue => queue ++ [r]
  elvNextRequest := fun queue => queue.head?.bind fun r => r.segments.head?
  endRequest := fun id _ queue => endIn id queue

theorem segments_advance (r : NewRequest) :
    r.segments = ⟨r.id, r.fs, r.write, r.sector, r.current.sectors, r.current.buffer⟩ ::
      (advance r).toList.flatMap NewRequest.segments := by
  obtain ⟨id, fs, write, sector, current, rest⟩ := r
  cases rest with
  | nil => rfl
  | cons next rest => simp [NewRequest.segments, NewRequest.segmentsFrom, advance]

theorem segments_append (r : NewRequest) (queue : List NewRequest) :
    (queue ++ [r]).flatMap NewRequest.segments =
      queue.flatMap NewRequest.segments ++ r.segments := by
  rw [List.flatMap_append, List.flatMap_singleton]

theorem fifoLayer_documented :
    fifoLayer.Documented fun queue : List NewRequest => queue.flatMap NewRequest.segments where
  empty := rfl
  add := segments_append
  elvNextRequest := fun queue => by
    cases queue with
    | nil => rfl
    | cons r queue => rfl
  endRequest := by
    intro queue r rest uptodate segments
    cases queue with
    | nil => exact absurd segments nofun
    | cons first queue =>
      rw [List.flatMap_cons, segments_advance, List.cons_append] at segments
      obtain ⟨rfl, rfl⟩ := List.cons.inj segments
      show (endIn first.id (first :: queue)).flatMap NewRequest.segments = _
      rw [endIn, if_pos rfl, List.flatMap_append]

/-- A host whose I/O is always pending. -/
def pendingHost : Nat → CobdAnswer := fun _ => ⟨blockGuest, true, true, .pending⟩

/-- A read of two segments from cobd0. -/
def twoSegments : List CobdEvent :=
  [.submit 0 true false 8 ⟨coArchKernelOffset + 0x1000, 1⟩ [⟨coArchKernelOffset + 0x2000, 2⟩],
    .requestFn 0, .complete 0 .success 512 true, .returnMessage, .interrupt,
    .complete 0 .success 1024 true, .returnMessage, .interrupt]

end CoLinux.Cobd
