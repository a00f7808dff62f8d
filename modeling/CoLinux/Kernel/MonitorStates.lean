import CoLinux.Kernel.Proofs.MonitorReset
import CoLinux.Lib.Run

/-!
# The states of a monitor

The requests a monitor takes from its descriptors, with `run` and the ways a guest comes back
from a switch. A session is one monitor with the descriptors that are open on it; it keeps a
history of what happened, so that the order of START, switches and termination can be spoken of.
-/

namespace CoLinux

open Lib

/-! ## The session -/

/-- What a session remembers. -/
inductive Happening where
  | reset
  | started
  | terminated
  /-- `co_host_switch_wrapper`. -/
  | switched
  /-- A section or the initrd was written, in this state. -/
  | wrote (state : MonitorState)
  /-- `pp_pfns` was dereferenced, and was it there? -/
  | usedPpPfns (present : Bool)
  deriving DecidableEq, Repr

/-- `co_passage_page->operation` after a switch, with what the host or the guest adds to it. -/
inductive GuestExit where
  | freePages (address : Nat) (numPages : Int)
  | allocPages (address : Nat) (numPages : Int)
  /-- Has the timer fired since the last time? -/
  | forwardInterrupt (timerInterrupt : Bool)
  | terminate
  /-- Is there a message for the guest after the wait? -/
  | idle (messages : Bool)
  /-- `CO_OPERATION_GETPP` and the guest's memory after it. -/
  | getpp (mem : ByteMem)
  | messageToMonitor
  /-- A device request, the memory after it, and what `device_request` returns. -/
  | device (mem : ByteMem) (handled : Bool)
  | getTime
  | debugLine
  | unknown

inductive MonitorRequest where
  | reset (host : HostAnswers)
  | loadSection (address size : Nat) (data : Option (Nat → UInt8))
  | loadInitrd (size : Nat) (data : Nat → UInt8)
  | start (host : HostAnswers)
  /-- RUN, with the ways the guest comes back, at least once. -/
  | run (first : GuestExit) (rest : List GuestExit)
  | close

inductive SessionEvent where
  /-- Another descriptor is attached to the monitor. -/
  | attach
  /-- A request through the owner's descriptor or through an attached one. -/
  | ioctl (monitorOwner : Bool) (request : MonitorRequest)

/-- A monitor and the descriptors that are open on it. -/
structure Session where
  c : Cmon
  ownerOpen : Bool
  attached : Nat
  /-- Newest first. -/
  history : List Happening

namespace Session

/-- The session of a monitor that was just created. -/
def new (c : Cmon) : Session := ⟨c, true, 0, []⟩

def record (x : Happening) (s : Session) : Session := { s with history := x :: s.history }

def update (f : Cmon → Cmon) (s : Session) : Session := { s with c := f s.c }

/-- `pp_pfns` is dereferenced. -/
def usePpPfns (s : Session) : Session := s.record (.usedPpPfns s.c.monitor.guest.hasPpPfns)

/-! ## `run` -/

def setMem (mem : ByteMem) (c : Cmon) : Cmon := { c with kernel := { c.kernel with mem := mem } }

def coTerminate (s : Session) : Session :=
  (s.record .terminated).update fun c => (c.setTimerActive false).setState .terminated

/-- `iteration`. The flag says whether to go back to the guest at once. -/
def iteration (exit : GuestExit) (s : Session) : Bool × Session :=
  let s := s.record .switched
  match exit with
  | .freePages address numPages =>
    (true, s.usePpPfns.update fun c =>
      c.setWorld (coFreePages (address % wordSize) numPages c.world))
  | .allocPages address numPages =>
    (true, s.usePpPfns.update fun c =>
      c.setWorld (coAllocPages (address % wordSize) numPages c.world).2)
  | .forwardInterrupt timerInterrupt => (!timerInterrupt, s)
  | .terminate => (false, s.coTerminate)
  | .idle messages => (messages, s)
  | .getpp mem => (true, s.usePpPfns.update (setMem mem))
  | .messageToMonitor => (true, s)
  | .device mem handled => (handled, s.usePpPfns.update (setMem mem))
  | .getTime => (true, s)
  | .debugLine => (true, s)
  | .unknown => (false, s)

/-- The loop of `run`, over the ways the guest comes back. -/
def runLoop : List GuestExit → Session → Session
  | [], s => s
  | e :: es, s =>
    let r := s.iteration e
    if r.1 then runLoop es r.2 else r.2

def coRun (first : GuestExit) (rest : List GuestExit) (s : Session) : Session :=
  match s.c.monitor.state with
  | .running => s.runLoop (first :: rest)
  | .started => ((s.update fun c => c.setState .running).iteration first).2
  | _ => s

/-! ## The other requests -/

def coReset (host : HostAnswers) (s : Session) : Session :=
  (s.record .reset).update fun c => (c.coMonitorUserReset host).2

/-- A copy into the guest's memory, in the state it is made in. -/
def writeGuest (f : Cmon → Step Cmon) (s : Session) : Session :=
  if s.c.monitor.state = .initialized then
    ((s.record (.wrote s.c.monitor.state)).usePpPfns).update fun c => (f c).2
  else s

def coStart (host : HostAnswers) (s : Session) : Session :=
  if s.c.monitor.state = .initialized then
    let r := s.c.start host
    let s := s.usePpPfns.update fun _ => r.2
    if r.1 = .ok then s.record .started else s
  else s

/-- CLOSE takes the descriptor off the monitor. -/
def coClose (monitorOwner : Bool) (s : Session) : Session :=
  { s.update fun c => (c.coMonitorRefdown monitorOwner).2 with
    ownerOpen := s.ownerOpen && !monitorOwner
    attached := if monitorOwner then s.attached else s.attached - 1 }

/-- The second switch of `co_monitor_ioctl`, behind its test for the owner. -/
def ownerRequest : MonitorRequest → Session → Session
  | .reset host, s => s.coReset host
  | .loadSection address size data, s => s.writeGuest fun c =>
    c.loadSection (address % wordSize) (size % wordSize) data
  | .loadInitrd size data, s => s.writeGuest fun c => c.loadInitrd (size % wordSize) data
  | .start host, s => s.coStart host
  | .run first rest, s => s.coRun first rest
  | .close, s => s

/-- `co_monitor_ioctl`. -/
def coMonitorIoctl (monitorOwner : Bool) (request : MonitorRequest) (s : Session) : Session :=
  match request with
  | .close => s.coClose monitorOwner
  | request => if monitorOwner then s.ownerRequest request else s

/-- Is the descriptor open? -/
def HasDescriptor (s : Session) (monitorOwner : Bool) : Prop :=
  if monitorOwner then s.ownerOpen = true else 0 < s.attached

instance (s : Session) (monitorOwner : Bool) : Decidable (s.HasDescriptor monitorOwner) := by
  unfold HasDescriptor
  infer_instance

/-- One request. -/
def step : SessionEvent → Session → Session
  | .attach, s =>
    if s.c.monitor.refcount = 0 then s
    else { s.update fun c => c.setRefcount (c.monitor.refcount + 1) with
      attached := s.attached + 1 }
  | .ioctl monitorOwner request, s =>
    if s.HasDescriptor monitorOwner then s.coMonitorIoctl monitorOwner request else s

/-! ## What is asked of a session -/

/-- The last of START, termination and reset. -/
def lastPhase : List Happening → Option Happening
  | [] => none
  | .reset :: _ => some .reset
  | .started :: _ => some .started
  | .terminated :: _ => some .terminated
  | _ :: earlier => lastPhase earlier

/-- The guest is switched to after a START of this epoch and before its end, sections are written
in INITIALIZED, and `pp_pfns` is there when it is used. -/
def HappenedRight (earlier : List Happening) : Happening → Prop
  | .switched => lastPhase earlier = some .started
  | .wrote state => state = .initialized
  | .usedPpPfns present => present = true
  | _ => True

def HistoryOk : List Happening → Prop
  | [] => True
  | x :: earlier => HappenedRight earlier x ∧ HistoryOk earlier

/-- The monitor is between START and its end. -/
def Active (s : Session) : Prop :=
  s.c.monitor.state = .started ∨ s.c.monitor.state = .running

instance (s : Session) : Decidable s.Active := inferInstanceAs (Decidable (_ ∨ _))

/-- The timer of a monitor that was not destroyed is active between START and the end. -/
def TimerExact (s : Session) : Prop :=
  s.c.monitor.refcount ≠ 0 → (s.c.monitor.timerActive = true ↔ s.Active)

instance (s : Session) : Decidable s.TimerExact := inferInstanceAs (Decidable (_ → _))

/-- A RESET of a monitor that is STARTED or RUNNING. -/
def ResetsActive (s : Session) : SessionEvent → Prop
  | .ioctl true (.reset _) => s.ownerOpen = true ∧ s.Active
  | _ => False

instance (s : Session) : DecidablePred s.ResetsActive := fun e => by
  unfold ResetsActive
  split <;> infer_instance

/-! ## The invariant -/

/-- What holds of a monitor that was not destroyed. -/
structure Alive (s : Session) : Prop where
  guest : s.c.GuestOk
  swapper : s.c.monitor.guest.kernelSwapperPgDir < wordSize
  table : s.c.monitor.state = .initialized ∨ s.Active → s.c.monitor.guest.hasPpPfns = true
  phase : s.Active → lastPhase s.history = some .started

structure Inv (s : Session) : Prop where
  alive : s.c.monitor.refcount ≠ 0 → s.Alive
  history : HistoryOk s.history
  refs : s.c.monitor.refcount = s.attached + s.ownerOpen.toNat

/-- What a switch to the guest does not change, unless the guest terminates. -/
structure SwitchKeeps (s s' : Session) : Prop where
  start : Cmon.StartKeeps s.c s'.c
  state : s'.c.monitor.state = s.c.monitor.state
  timerActive : s'.c.monitor.timerActive = s.c.monitor.timerActive
  phase : lastPhase s'.history = lastPhase s.history
  attached : s'.attached = s.attached
  ownerOpen : s'.ownerOpen = s.ownerOpen

theorem SwitchKeeps.alive {s s' : Session} (h : SwitchKeeps s s') (alive : s.Alive)
    (running : s.c.monitor.state = .running) : s'.Alive := by
  have has := alive.table (.inr (.inr running))
  have has' := h.start.hasPpPfns.trans has
  refine ⟨⟨?_, fun none => absurd (none.symm.trans has') (by simp)⟩, ?_, fun _ => has', fun _ => ?_⟩
  · exact Nat.le_trans (Nat.le_of_eq h.start.memorySize) alive.guest.small
  · exact Nat.lt_of_le_of_lt (Nat.le_of_eq h.start.swapper) alive.swapper
  · exact h.phase.trans (alive.phase (.inr running))

/-- A call of the paging code that grows the frame table. -/
theorem grown_keeps {c : Cmon} {w : World} (h : Grown c.world w) :
    Cmon.StartKeeps c (c.setWorld w) := ⟨h.memorySize, h.swapper, h.hasPpPfns, rfl⟩

/-- How the guest comes back: terminated, or with the monitor as it was. -/
theorem iteration_cases (exit : GuestExit) {s : Session}
    (has : s.c.monitor.guest.hasPpPfns = true) (phase : lastPhase s.history = some .started)
    (history : HistoryOk s.history) :
    HistoryOk (s.iteration exit).2.history ∧
      ((s.iteration exit).1 = false ∧
          (s.iteration exit).2.c = (s.c.setTimerActive false).setState .terminated ∧
          (s.iteration exit).2.attached = s.attached ∧
          (s.iteration exit).2.ownerOpen = s.ownerOpen ∨
        SwitchKeeps s (s.iteration exit).2) := by
  have switched : HistoryOk (s.record .switched).history := ⟨phase, history⟩
  have used : HistoryOk (s.record .switched).usePpPfns.history := ⟨has, switched⟩
  have same {s' : Session} (c : s'.c = s.c) (keeps : lastPhase s'.history = lastPhase s.history)
      (attached : s'.attached = s.attached) (ownerOpen : s'.ownerOpen = s.ownerOpen) :
      SwitchKeeps s s' := by
    refine ⟨?_, by rw [c], by rw [c], keeps, attached, ownerOpen⟩
    rw [c]
    exact ⟨rfl, rfl, rfl, rfl⟩
  cases exit with
  | freePages address numPages =>
    exact ⟨used, .inr ⟨grown_keeps (freePagesLoop_grown _ _ _), rfl, rfl, rfl, rfl, rfl⟩⟩
  | allocPages address numPages =>
    have grown := allocPagesLoop_grown (address % wordSize) numPages.toNat 0
      (Nat.mod_lt address (by decide)) s.c.world
    exact ⟨used, .inr ⟨grown_keeps grown, rfl, rfl, rfl, rfl, rfl⟩⟩
  | terminate => exact ⟨⟨trivial, switched⟩, .inl ⟨rfl, rfl, rfl, rfl⟩⟩
  | getpp mem => exact ⟨used, .inr ⟨⟨rfl, rfl, rfl, rfl⟩, rfl, rfl, rfl, rfl, rfl⟩⟩
  | device mem handled => exact ⟨used, .inr ⟨⟨rfl, rfl, rfl, rfl⟩, rfl, rfl, rfl, rfl, rfl⟩⟩
  | forwardInterrupt _ | idle _ | messageToMonitor | getTime | debugLine | unknown =>
    exact ⟨switched, .inr (same rfl rfl rfl rfl)⟩

/-- What a step of a session has to show: the invariant, and the timer. -/
structure StepKeeps (s s' : Session) : Prop where
  inv : Inv s'
  timer : s.TimerExact → s'.TimerExact

theorem iteration_keeps (exit : GuestExit) {s : Session} (inv : Inv s)
    (live : s.c.monitor.refcount ≠ 0) (running : s.c.monitor.state = .running) :
    StepKeeps s (s.iteration exit).2 ∧
      ((s.iteration exit).1 = true → (s.iteration exit).2.c.monitor.state = .running ∧
        (s.iteration exit).2.c.monitor.refcount ≠ 0) := by
  have alive := inv.alive live
  have has := alive.table (.inr (.inr running))
  obtain ⟨history, ⟨back, c, attached, ownerOpen⟩ | keeps⟩ :=
    iteration_cases exit has (alive.phase (.inr running)) inv.history
  · generalize s.iteration exit = r at history back c attached ownerOpen
    refine ⟨⟨⟨fun _ => ⟨?_, ?_, ?_, ?_⟩, history, ?_⟩, fun _ _ => ?_⟩, fun again => ?_⟩
    · exact alive.guest.of_guest (congrArg (·.monitor.guest) c)
    · rw [c]
      exact alive.swapper
    · rw [Active, c]
      simp [Cmon.setState]
    · rw [Active, c]
      simp [Cmon.setState]
    · rw [attached, ownerOpen, c]
      exact inv.refs
    · rw [Active, c]
      simp [Cmon.setState, Cmon.setTimerActive]
    · simp [back] at again
  · generalize s.iteration exit = r at history keeps
    refine ⟨⟨⟨fun _ => keeps.alive alive running, history, ?_⟩, fun timer alive' => ?_⟩, fun _ => ?_⟩
    · rw [keeps.start.refcount, keeps.attached, keeps.ownerOpen]
      exact inv.refs
    · rw [keeps.start.refcount] at alive'
      rw [keeps.timerActive, Active, keeps.state]
      exact timer alive'
    · rw [keeps.start.refcount, keeps.state]
      exact ⟨running, live⟩

theorem runLoop_keeps (exits : List GuestExit) {s : Session} (inv : Inv s)
    (live : s.c.monitor.refcount ≠ 0) (running : s.c.monitor.state = .running) :
    StepKeeps s (s.runLoop exits) := by
  induction exits generalizing s with
  | nil => exact ⟨inv, id⟩
  | cons exit exits ih =>
    obtain ⟨keeps, again⟩ := iteration_keeps exit inv live running
    unfold runLoop
    dsimp only
    split
    · rename_i back
      obtain ⟨running', live'⟩ := again back
      have rest := ih keeps.inv live' running'
      exact ⟨rest.inv, fun timer => rest.timer (keeps.timer timer)⟩
    · exact keeps

theorem coRun_keeps (first : GuestExit) (rest : List GuestExit) {s : Session} (inv : Inv s)
    (live : s.c.monitor.refcount ≠ 0) : StepKeeps s (s.coRun first rest) := by
  unfold coRun
  split
  · exact runLoop_keeps _ inv live ‹_›
  · rename_i started
    -- the state is RUNNING before the first switch
    have inv' : Inv (s.update fun c => c.setState .running) := by
      have alive := inv.alive live
      refine ⟨fun _ => ⟨alive.guest.of_guest rfl, alive.swapper, fun _ => ?_, fun _ => ?_⟩,
        inv.history, inv.refs⟩
      · exact alive.table (.inr (.inl started))
      · exact alive.phase (.inl started)
    obtain ⟨keeps, -⟩ := iteration_keeps first inv' live rfl
    refine ⟨keeps.inv, fun timer => keeps.timer fun live => ?_⟩
    exact iff_of_true ((timer live).mpr (.inl started)) (.inr rfl)
  · exact ⟨inv, id⟩

/-! ## The other requests -/

theorem coReset_keeps (host : HostAnswers) {s : Session} (inv : Inv s)
    (live : s.c.monitor.refcount ≠ 0) : Inv (s.coReset host) ∧
      (s.TimerExact → ((s.coReset host).TimerExact ↔ ¬ s.Active)) := by
  have alive := inv.alive live
  have done := Cmon.coMonitorUserReset_done host alive.guest
  have keeps := done.keeps
  have idle : ¬ (s.coReset host).Active := by
    show ¬ (_ ∨ _)
    rw [show (s.coReset host).c.monitor.state = _ from done.state]
    split <;> simp
  refine ⟨⟨fun _ => ⟨done.guestOk alive.guest, ?_, fun h => ?_, fun h => absurd h idle⟩,
    ⟨trivial, inv.history⟩, keeps.refcount.trans inv.refs⟩, fun timer => ?_⟩
  · exact Nat.lt_of_le_of_lt (Nat.le_of_eq keeps.swapper) alive.swapper
  · obtain initialized | active := h
    · refine done.hasPpPfns.mpr ?_
      by_contra failed
      have empty := done.state
      rw [if_neg failed] at empty
      exact absurd (empty.symm.trans initialized) (by simp)
    · exact absurd active idle
  · have same : (s.coReset host).c.monitor.timerActive = s.c.monitor.timerActive :=
      keeps.timerActive
    have live' : (s.coReset host).c.monitor.refcount ≠ 0 := keeps.refcount.trans_ne live
    unfold TimerExact
    rw [same, timer live]
    simp [idle, live']

theorem writeGuest_keeps {f : Cmon → Step Cmon} {s : Session} (inv : Inv s)
    (live : s.c.monitor.refcount ≠ 0)
    (keeps : s.c.monitor.state = .initialized → Cmon.StartKeeps s.c (f s.c).2 ∧
      (f s.c).2.monitor.state = s.c.monitor.state ∧
      (f s.c).2.monitor.timerActive = s.c.monitor.timerActive) :
    StepKeeps s (s.writeGuest f) := by
  unfold writeGuest
  split
  · rename_i initialized
    have alive := inv.alive live
    have has := alive.table (.inl initialized)
    obtain ⟨kept, state, timer⟩ := keeps initialized
    have has' := kept.hasPpPfns.trans has
    have idle : ¬ ((f s.c).2.monitor.state = .started ∨ (f s.c).2.monitor.state = .running) := by
      simp [state, initialized]
    refine ⟨⟨fun _ => ⟨⟨?_, fun none => ?_⟩, ?_, fun _ => has', fun active => absurd active idle⟩,
      ⟨has, initialized, inv.history⟩, kept.refcount.trans inv.refs⟩, fun exact _ => ?_⟩
    · exact Nat.le_trans (Nat.le_of_eq kept.memorySize) alive.guest.small
    · exact absurd (none.symm.trans has') (by simp)
    · exact Nat.lt_of_le_of_lt (Nat.le_of_eq kept.swapper) alive.swapper
    · have before := exact live
      have inactive : ¬ s.Active := by simp [Active, initialized]
      rw [iff_false_right inactive] at before
      exact iff_of_false (timer.symm ▸ before) idle
  · exact ⟨inv, id⟩

theorem copyRegion_keeps {address : Nat} (ha : address < wordSize) (size : Nat)
    (data : Option (Nat → UInt8)) (c : Cmon) :
    Cmon.StartKeeps c (c.withWorld (coMonitorCopyRegion address size data)).2 :=
  grown_keeps (coMonitorCopyRegion_grown ha size data c.world)

theorem loadSection_keeps {address size : Nat} (ha : address < wordSize)
    (data : Option (Nat → UInt8)) (c : Cmon) :
    Cmon.StartKeeps c (c.loadSection address size data).2 ∧
      (c.loadSection address size data).2.monitor.state = c.monitor.state ∧
      (c.loadSection address size data).2.monitor.timerActive = c.monitor.timerActive := by
  unfold Cmon.loadSection
  split
  · exact ⟨⟨rfl, rfl, rfl, rfl⟩, rfl, rfl⟩
  · exact ⟨copyRegion_keeps ha size data c, rfl, rfl⟩

/-- The copy of the initrd, and the note of where it is. -/
theorem copyInitrd_keeps {address : Nat} (ha : address < wordSize) (size : Nat)
    (data : Option (Nat → UInt8)) (c : Cmon) :
    let r := (c.withWorld (coMonitorCopyRegion address size data)).andThen fun c =>
      (.ok, { c with monitor := { c.monitor with initrdAddress := address, initrdSize := size } })
    Cmon.StartKeeps c r.2 ∧ r.2.monitor.state = c.monitor.state ∧
      r.2.monitor.timerActive = c.monitor.timerActive := by
  have copied := copyRegion_keeps ha size data c
  by_cases ok : (c.withWorld (coMonitorCopyRegion address size data)).1 = .ok
  · rw [Step.andThen_of_ok ok]
    exact ⟨⟨copied.1, copied.2, copied.3, copied.4⟩, rfl, rfl⟩
  · rw [Step.andThen_of_ne ok]
    exact ⟨copied, rfl, rfl⟩

theorem loadInitrd_keeps (size : Nat) (data : Nat → UInt8) (c : Cmon) :
    Cmon.StartKeeps c (c.loadInitrd size data).2 ∧
      (c.loadInitrd size data).2.monitor.state = c.monitor.state ∧
      (c.loadInitrd size data).2.monitor.timerActive = c.monitor.timerActive := by
  have low : Cmon.initrdAddress c.monitor.guest.memorySize size < wordSize :=
    Nat.mod_lt _ (by decide)
  unfold Cmon.loadInitrd
  generalize Cmon.initrdAddress c.monitor.guest.memorySize size = address at low
  generalize (c.monitor.coreEnd + 0x100000) % wordSize = limit
  dsimp only
  split
  · exact ⟨⟨rfl, rfl, rfl, rfl⟩, rfl, rfl⟩
  split
  · exact ⟨⟨rfl, rfl, rfl, rfl⟩, rfl, rfl⟩
  · exact copyInitrd_keeps low size (some data) c

theorem coStart_keeps (host : HostAnswers) {s : Session} (inv : Inv s)
    (live : s.c.monitor.refcount ≠ 0) : StepKeeps s (s.coStart host) := by
  unfold coStart
  split
  swap
  · exact ⟨inv, id⟩
  rename_i initialized
  have alive := inv.alive live
  have has := alive.table (.inl initialized)
  have used : HistoryOk s.usePpPfns.history := ⟨has, inv.history⟩
  have done := Cmon.start_done host initialized alive.swapper
  dsimp only
  generalize s.c.start host = r at done
  have has' := done.keeps.hasPpPfns.trans has
  have guest : r.2.GuestOk := ⟨Nat.le_trans (Nat.le_of_eq done.keeps.memorySize) alive.guest.small,
    fun none => absurd (none.symm.trans has') (by simp)⟩
  have swapper := Nat.lt_of_le_of_lt (Nat.le_of_eq done.keeps.swapper) alive.swapper
  by_cases ok : r.1 = .ok
  · rw [if_pos ok]
    have state := done.state
    have timer := done.timerActive
    rw [if_pos ok] at state timer
    exact ⟨⟨fun _ => ⟨guest, swapper, fun _ => has', fun _ => rfl⟩, ⟨trivial, used⟩,
      done.keeps.refcount.trans inv.refs⟩, fun _ _ => iff_of_true timer (.inl state)⟩
  · rw [if_neg ok]
    have state := done.state
    have timer := done.timerActive
    rw [if_neg ok] at state timer
    have idle : ¬ (r.2.monitor.state = .started ∨ r.2.monitor.state = .running) := by
      simp [state, initialized]
    refine ⟨⟨fun _ => ⟨guest, swapper, fun _ => has', fun active => absurd active idle⟩, used,
      done.keeps.refcount.trans inv.refs⟩, fun exact _ => ?_⟩
    have before := exact live
    have inactive : ¬ s.Active := by simp [Active, initialized]
    rw [iff_false_right inactive] at before
    exact iff_of_false (timer.symm ▸ before) idle

theorem coClose_keeps {monitorOwner : Bool} {s : Session} (inv : Inv s)
    (has : s.HasDescriptor monitorOwner) (live : s.c.monitor.refcount ≠ 0) :
    StepKeeps s (s.coClose monitorOwner) := by
  have refs := inv.refs
  obtain ⟨count, -, ⟨dead, -⟩ | ⟨alive', keeps⟩⟩ := Cmon.coMonitorRefdown_cases monitorOwner live
  all_goals
    have refs' : (s.coClose monitorOwner).c.monitor.refcount =
        (s.coClose monitorOwner).attached + (s.coClose monitorOwner).ownerOpen.toNat := by
      refine count.trans ?_
      cases monitorOwner with
      | false =>
        have : 0 < s.attached := has
        simp only [coClose, Bool.not_false, Bool.and_true, Bool.false_eq_true, if_false]
        omega
      | true =>
        have : s.ownerOpen = true := has
        simp only [coClose, Bool.not_true, Bool.and_false, if_true, refs, this]
        rfl
  · exact ⟨⟨fun h => absurd dead h, inv.history, refs'⟩, fun _ h => absurd dead h⟩
  · have alive := inv.alive live
    have active : (s.coClose monitorOwner).Active ↔ s.Active := by
      show (_ ∨ _) ↔ (_ ∨ _)
      rw [show (s.coClose monitorOwner).c.monitor.state = _ from keeps.state]
    refine ⟨⟨fun _ => ⟨alive.guest.of_guest keeps.guest, ?_, fun h => ?_, fun h => ?_⟩,
      inv.history, refs'⟩, fun exact _ => ?_⟩
    · rw [show (s.coClose monitorOwner).c.monitor.guest = _ from keeps.guest]
      exact alive.swapper
    · rw [show (s.coClose monitorOwner).c.monitor.guest = _ from keeps.guest]
      refine alive.table (h.imp (fun initialized => ?_) active.mp)
      exact keeps.state.symm.trans initialized
    · exact alive.phase (active.mp h)
    · rw [show (s.coClose monitorOwner).c.monitor.timerActive = _ from keeps.timerActive, active]
      exact exact live

/-! ## One request, and all of them -/

theorem attach_keeps {s : Session} (inv : Inv s) : StepKeeps s (step .attach s) := by
  rw [step]
  split
  · exact ⟨inv, id⟩
  rename_i live
  have alive := inv.alive live
  refine ⟨⟨fun _ => ⟨alive.guest.of_guest rfl, alive.swapper, alive.table, alive.phase⟩,
    inv.history, ?_⟩, fun exact _ => exact live⟩
  show s.c.monitor.refcount + 1 = s.attached + 1 + s.ownerOpen.toNat
  have := inv.refs
  omega

/-- A descriptor keeps the monitor alive. -/
theorem live_of_descriptor {s : Session} (inv : Inv s) {monitorOwner : Bool}
    (has : s.HasDescriptor monitorOwner) : s.c.monitor.refcount ≠ 0 := by
  have refs := inv.refs
  cases monitorOwner with
  | false =>
    have : 0 < s.attached := has
    omega
  | true =>
    have : s.ownerOpen = true := has
    rw [this] at refs
    simp only [Bool.toNat_true] at refs
    omega

/-- Every request keeps the invariant, and it keeps the timer exact unless it is a RESET of a
monitor that is STARTED or RUNNING. -/
theorem step_keeps {s : Session} (inv : Inv s) (e : SessionEvent) :
    Inv (step e s) ∧ (s.TimerExact → ((step e s).TimerExact ↔ ¬ s.ResetsActive e)) := by
  have keeps {s' : Session} (kept : StepKeeps s s') (other : ¬ s.ResetsActive e) :
      Inv s' ∧ (s.TimerExact → (s'.TimerExact ↔ ¬ s.ResetsActive e)) :=
    ⟨kept.inv, fun timer => iff_of_true (kept.timer timer) other⟩
  cases e with
  | attach => exact keeps (attach_keeps inv) id
  | ioctl monitorOwner request =>
    rw [step]
    by_cases has : s.HasDescriptor monitorOwner
    swap
    · rw [if_neg has]
      refine keeps ⟨inv, id⟩ ?_
      cases monitorOwner <;> cases request <;> try exact id
      exact fun resets => has resets.1
    rw [if_pos has]
    have live := live_of_descriptor inv has
    cases monitorOwner with
    | false =>
      cases request with
      | close => exact keeps (coClose_keeps inv has live) id
      | _ => exact keeps ⟨inv, id⟩ id
    | true =>
      cases request with
      | reset host =>
        obtain ⟨inv', exact⟩ := coReset_keeps host inv live
        refine ⟨inv', fun timer => (exact timer).trans (not_congr ?_)⟩
        exact ⟨fun active => ⟨has, active⟩, And.right⟩
      | loadSection address size data =>
        refine keeps (writeGuest_keeps inv live fun _ => ?_) id
        exact loadSection_keeps (Nat.mod_lt _ (by decide)) data s.c
      | loadInitrd size data =>
        exact keeps (writeGuest_keeps inv live fun _ => loadInitrd_keeps _ data s.c) id
      | start host => exact keeps (coStart_keeps host inv live) id
      | run first rest => exact keeps (coRun_keeps first rest inv live) id
      | close => exact keeps (coClose_keeps inv has live) id

/-- A monitor that was just created. -/
theorem new_inv {params : CreateParams} {k : Kernel} {id : Nat} {c : Cmon}
    (created : Cmon.Created params k id c) : Inv (new c) ∧ (new c).TimerExact := by
  have idle : ¬ (new c).Active := by simp [new, Active, created.state]
  refine ⟨⟨fun _ => ⟨⟨?_, fun none => ?_⟩, ?_, fun _ => created.hasPpPfns,
    fun active => absurd active idle⟩, trivial, created.refcount⟩, fun _ => ?_⟩
  · exact Nat.le_trans (Nat.le_of_eq created.memorySize) (Cmon.createMemorySize_bounds params k).2
  · exact absurd (none.symm.trans created.hasPpPfns) (by simp)
  · exact Nat.lt_of_le_of_lt (Nat.le_of_eq created.swapper) params.swapper_lt
  · exact iff_of_false (by simp [new, created.timerActive]) idle

/-- In every session of a monitor the guest is switched to between START and its end only,
sections are written in INITIALIZED only, and `pp_pfns` is there whenever it is used. The timer
is active in STARTED and RUNNING and in no other state, in every state of the session, exactly
when no RESET meets a STARTED or RUNNING monitor. -/
theorem monitorStates_iff {host : HostAnswers} {params : CreateParams} {id : Nat} {k : Kernel}
    {c : Cmon} (used : k.hostmemUsed < wordSize)
    (created : Cmon.coMonitorCreate host params id k = (.ok, c)) (es : List SessionEvent) :
    HistoryOk (run step es (new c)).history ∧
      ((∀ p, p <+: es → TimerExact (run step p (new c))) ↔
        RunOk step (fun s e => ¬ s.ResetsActive e) es (new c)) := by
  obtain ⟨failed, -⟩ | ⟨-, done⟩ := Cmon.coMonitorCreate_cases host params id used
  · rw [created] at failed
    exact absurd rfl failed
  rw [created] at done
  obtain ⟨inv, timer⟩ := new_inv done
  refine ⟨?_, forall_prefix_iff_runOk (fun s e inv => (step_keeps inv e).1)
    (fun s e inv timer => (step_keeps inv e).2 timer) inv timer⟩
  exact (run_keeps Inv (fun s e inv => (step_keeps inv e).1) inv).history

/-- A guest of 8 MB that was just created. -/
def smallMonitor : Cmon := (Cmon.coMonitorCreate Cmon.grantsAll (Cmon.plainParams 8) 1 Cmon.smallHost).2

theorem smallMonitor_created : Cmon.coMonitorCreate Cmon.grantsAll (Cmon.plainParams 8) 1
    Cmon.smallHost = (.ok, smallMonitor) :=
  Step.eq_of_ok (by decide +kernel)

/-- A page for the guest's page directory, and START. -/
def startSmall : List SessionEvent :=
  [.ioctl true (.loadSection 0xc0300000 4096 none), .ioctl true (.start Cmon.grantsAll)]

/-- The guest is started, asks for the time, terminates and is reset. -/
def smallLife : List SessionEvent :=
  startSmall ++ [.ioctl true (.run .getTime []), .ioctl true (.run .getTime [.terminate]),
    .ioctl true (.reset Cmon.grantsAll)]

theorem monitorStates_iff_smallLife :
    HistoryOk (run step smallLife (new smallMonitor)).history ∧
      ∀ p, p <+: smallLife → TimerExact (run step p (new smallMonitor)) := by
  obtain ⟨history, timer⟩ := monitorStates_iff (by decide) smallMonitor_created smallLife
  exact ⟨history, timer.mpr (by decide +kernel)⟩

/-- A RESET right after START leaves the timer active in INITIALIZED. -/
theorem resetAfterStart_timer :
    ¬ TimerExact (run step (startSmall ++ [.ioctl true (.reset Cmon.grantsAll)])
      (new smallMonitor)) := by
  decide +kernel

end Session

end CoLinux
