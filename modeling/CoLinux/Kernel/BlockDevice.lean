import CoLinux.Common.Types
import CoLinux.Lib.Run
import Mathlib.Logic.Function.Basic
import Mathlib.Tactic.SplitIfs

/-!
# Block devices (`kernel/block.c`, `kernel/fileblock.c`)

A request of the guest goes through two layers. The upper one counts the opens of a device, the
lower one has a state of its own and calls the host. `calls` are the calls of the host for the
file of a device.
-/

namespace CoLinux

open Lib

/-- `co_monitor_file_block_dev_t`: `CO_MONITOR_FILE_BLOCK_CLOSED` and `_OPENED`. -/
inductive FileBlockState where
  | closed
  | opened
  deriving DecidableEq

/-- `request->rc`. -/
inductive CoBlockRequestRetcode where
  | ok
  | error
  deriving DecidableEq

/-- `co_block_request_type_t`, and any other number. -/
inductive CoBlockRequestType where
  | openDev
  | stat
  | read
  | write
  | close
  | getAlias
  | other (code : Nat)
  deriving DecidableEq

/-- `co_block_request_t`, as far as these layers read and write it. -/
structure CoBlockRequest where
  type : CoBlockRequestType
  rc : CoBlockRequestRetcode
  diskSize : Nat
  aliasName : List UInt8
  deriving DecidableEq

/-- `co_block_dev_desc_t`, its name as the bytes of the array. -/
structure CoBlockDevDesc where
  enabled : Bool
  aliasUsed : Bool
  aliasName : List UInt8

abbrev sizeofAlias : Nat := 20

/-- A call of the host for a file; a read or write with the state of its device. -/
inductive HostFileCall where
  | opened
  | openFailed
  | closed
  | read (state : FileBlockState)
  | write (state : FileBlockState)
  deriving DecidableEq

/-- `co_monitor_file_block_dev_t`. -/
structure FileBlockDev where
  size : Nat
  conf : Option CoBlockDevDesc
  useCount : Nat
  state : FileBlockState
  calls : List HostFileCall

/-- What the operations of a device return. `sizeRc` is what `get_size` returns unless it gets
the file open, `size` what it finds then. -/
structure BlockHost where
  openRc : CoRc
  readRc : CoRc
  writeRc : CoRc
  sizeRc : CoRc
  size : Except CoRc Nat

namespace FileBlockDev

def call (c : HostFileCall) (d : FileBlockDev) : FileBlockDev := { d with calls := d.calls ++ [c] }

/-- `co_os_file_block_get_size`, with `&fdev->dev.size` for its result. -/
def getSize (host : BlockHost) (d : FileBlockDev) : Step FileBlockDev :=
  if host.sizeRc ≠ .ok then (host.sizeRc, d.call .openFailed)
  else
    let d := (d.call .opened).call .closed
    match host.size with
    | .ok size => (.ok, { d with size := size })
    | .error rc => (rc, { d with size := 0 })

/-- `co_monitor_file_block_service`. -/
def service (host : BlockHost) (request : CoBlockRequest) (d : FileBlockDev) :
    CoRc × FileBlockDev × CoBlockRequest :=
  match request.type with
  | .openDev =>
    if d.state ≠ .closed then (.error, d, request)
    else if host.openRc = .ok then (.ok, { d.call .opened with state := .opened }, request)
    else (host.openRc, d.call .openFailed, request)
  | .read =>
    if d.state ≠ .opened then (.error, d, request)
    else (host.readRc, d.call (.read d.state), request)
  | .write =>
    if d.state ≠ .opened then (.error, d, request)
    else (host.writeRc, d.call (.write d.state), request)
  | .close =>
    if d.state ≠ .opened then (.error, d, request)
    else (.ok, { d.call .closed with state := .closed }, request)
  | .stat =>
    if d.state ≠ .closed then (.error, d, request)
    else
      let r := d.getSize host
      (r.1, r.2, if r.1 = .ok then { request with diskSize := r.2.size } else request)
  | .getAlias | .other _ => (.error, d, request)

/-- `CO_BLOCK_GET_ALIAS`. The copy ends with the NUL that is put into the last byte. -/
def getAlias (request : CoBlockRequest) (d : FileBlockDev) :
    CoRc × FileBlockDev × CoBlockRequest :=
  match d.conf with
  | none => (.error, d, request)
  | some conf =>
    if ¬(conf.enabled ∧ conf.aliasUsed) then (.error, d, request)
    else
      let name := conf.aliasName.set (sizeofAlias - 1) 0
      (.ok, { d with conf := some { conf with aliasName := name } },
        { request with aliasName := name.takeWhile (· ≠ 0) })

/-- `dev->use_count`, an `unsigned int`, counts an open. -/
def used (d : FileBlockDev) : FileBlockDev := { d with useCount := (d.useCount + 1) % wordSize }

/-- `intern_monitor_block_request` with the device it finds. -/
def request (host : BlockHost) (request : CoBlockRequest) (d : FileBlockDev) :
    CoRc × FileBlockDev × CoBlockRequest :=
  match request.type with
  | .openDev =>
    if 1 ≤ d.useCount then (.ok, d.used, request)
    else
      let r := d.service host request
      (r.1, if r.1 = .ok then r.2.1.used else r.2.1, r.2.2)
  | .close =>
    if d.useCount = 0 then (.error, d, request)
    else if 1 < d.useCount then (.ok, { d with useCount := d.useCount - 1 }, request)
    else
      let r := d.service host request
      (r.1, if r.1 = .ok then { r.2.1 with useCount := r.2.1.useCount - 1 } else r.2.1, r.2.2)
  | .getAlias => d.getAlias request
  | _ => d.service host request

end FileBlockDev

/-- `cmon->block_devs`, all of them file block devices. -/
abbrev BlockDevs := Nat → Option FileBlockDev

/-- `co_monitor_block_dev_from_index`. -/
def BlockDevs.fromIndex (devs : BlockDevs) (index : Nat) : Option FileBlockDev :=
  if coModuleMaxCobd ≤ index then none else devs index

/-- `co_monitor_block_request`: the devices and what it leaves in the request. -/
def coMonitorBlockRequest (host : BlockHost) (index : Nat) (request : CoBlockRequest)
    (devs : BlockDevs) : BlockDevs × CoBlockRequest :=
  match devs.fromIndex index with
  | none => (devs, { request with rc := .error })
  | some d =>
    let r := d.request host request
    (Function.update devs index (some r.2.1),
      { r.2.2 with rc := if r.1 = .ok then .ok else .error })

/-- `co_monitor_file_block_init` and what the monitor sets up for each enabled device. -/
def blockDevsInit (conf : Nat → CoBlockDevDesc) : BlockDevs := fun i =>
  if (conf i).enabled then some ⟨0, some (conf i), 0, .closed, []⟩ else none

/-! ## What the layers know of each other -/

namespace FileBlockDev

/-- Host opens that succeeded less host closes. -/
def handles (d : FileBlockDev) : Int := (d.calls.count .opened : Int) - d.calls.count .closed

/-- The two layers agree, the host's file is open when they say so, and was whenever it was read
or written. -/
structure Sound (d : FileBlockDev) : Prop where
  opened_iff : d.state = .opened ↔ 0 < d.useCount
  handles : d.handles = if d.state = .opened then 1 else 0
  io : ∀ state, .read state ∈ d.calls ∨ .write state ∈ d.calls → state = .opened

variable {d : FileBlockDev} {host : BlockHost} {r : CoBlockRequest}

theorem handles_call (d : FileBlockDev) (c : HostFileCall) :
    (d.call c).handles =
      d.handles + (if c = .opened then 1 else 0) - if c = .closed then 1 else 0 := by
  unfold handles call
  cases c <;> simp [List.count_append] <;> omega

theorem io_call {c : HostFileCall} (sound : d.Sound)
    (reads : ∀ state, c = .read state ∨ c = .write state → state = .opened) :
    ∀ state, .read state ∈ (d.call c).calls ∨ .write state ∈ (d.call c).calls →
      state = .opened := by
  intro state there
  simp only [call, List.mem_append, List.mem_singleton] at there
  rcases there with (old | new) | (old | new)
  · exact sound.io state (.inl old)
  · exact reads state (.inl new.symm)
  · exact sound.io state (.inr old)
  · exact reads state (.inr new.symm)

/-- A call that neither opens nor closes the file. -/
theorem Sound.call (sound : d.Sound) {c : HostFileCall} (keeps : c ≠ .opened ∧ c ≠ .closed)
    (reads : ∀ state, c = .read state ∨ c = .write state → state = .opened) :
    (d.call c).Sound where
  opened_iff := sound.opened_iff
  handles := by
    rw [handles_call, if_neg keeps.1, if_neg keeps.2, Int.add_zero, Int.sub_zero]
    exact sound.handles
  io := io_call sound reads

/-- `STAT` closes what it opens. -/
theorem Sound.getSize (sound : d.Sound) : (d.getSize host).2.Sound := by
  have plain : ∀ c : HostFileCall, c = .openFailed ∨ c = .opened ∨ c = .closed →
      ∀ state, c = .read state ∨ c = .write state → state = .opened := by
    rintro c (rfl | rfl | rfl) state (same | same) <;> contradiction
  have failed : (d.call .openFailed).Sound := sound.call (by decide) (plain _ (.inl rfl))
  have closed : ((d.call .opened).call .closed).Sound := by
    constructor
    · exact sound.opened_iff
    · rw [handles_call, handles_call]
      exact (by simp : _ = d.handles).trans sound.handles
    · intro state there
      refine sound.io state ?_
      simpa [FileBlockDev.call] using there
  unfold FileBlockDev.getSize
  by_cases refused : host.sizeRc ≠ .ok
  · rw [if_pos refused]
    exact failed
  · rw [if_neg refused]
    cases host.size with
    | ok size => exact ⟨closed.opened_iff, closed.handles, closed.io⟩
    | error rc => exact ⟨closed.opened_iff, closed.handles, closed.io⟩

/-- The lower layer, for the requests that the upper one only passes on. -/
theorem Sound.service (sound : d.Sound)
    (passed : r.type ≠ .openDev ∧ r.type ≠ .close) : (d.service host r).2.1.Sound := by
  unfold FileBlockDev.service
  cases type : r.type with
  | openDev => exact absurd type passed.1
  | close => exact absurd type passed.2
  | read =>
    dsimp only
    split_ifs with shut
    · exact sound
    · refine sound.call ⟨by simp, by simp⟩ ?_
      rintro state (same | same)
      · injection same with same
        rw [← same]
        exact not_not.mp shut
      · contradiction
  | write =>
    dsimp only
    split_ifs with shut
    · exact sound
    · refine sound.call ⟨by simp, by simp⟩ ?_
      rintro state (same | same)
      · contradiction
      · injection same with same
        rw [← same]
        exact not_not.mp shut
  | stat =>
    by_cases busy : d.state ≠ .closed
    · simp only [if_pos busy]
      exact sound
    · simp only [if_neg busy]
      exact sound.getSize
  | getAlias => exact sound
  | other code => exact sound

theorem Sound.getAlias (sound : d.Sound) : (d.getAlias r).2.1.Sound := by
  unfold FileBlockDev.getAlias
  cases d.conf with
  | none => exact sound
  | some conf =>
    dsimp only
    split_ifs
    · exact ⟨sound.opened_iff, sound.handles, sound.io⟩
    · exact sound

/-- An open of a device that is open: the count must not wrap. -/
theorem Sound.used_iff (sound : d.Sound) (small : d.useCount < wordSize) (opened : 0 < d.useCount) :
    d.used.Sound ↔ d.useCount ≠ wordSize - 1 := by
  have state := sound.opened_iff.mpr opened
  constructor
  · intro after full
    have positive : 0 < (d.useCount + 1) % wordSize := after.opened_iff.mp state
    rw [full] at positive
    exact absurd positive (by decide)
  · intro room
    refine ⟨?_, sound.handles, sound.io⟩
    have positive : 0 < (d.useCount + 1) % wordSize := by
      rw [Nat.mod_eq_of_lt (by omega)]
      exact Nat.succ_pos _
    exact iff_of_true state positive

/-- The first open and the last close go through both layers. -/
theorem Sound.openDev (sound : d.Sound) (shut : d.useCount = 0) (type : r.type = .openDev) :
    (if (d.service host r).1 = .ok then (d.service host r).2.1.used
      else (d.service host r).2.1).Sound := by
  have closed : d.state = .closed := by
    cases state : d.state with
    | closed => rfl
    | opened =>
      have := sound.opened_iff.mp state
      omega
  have balance := sound.handles
  rw [closed, if_neg (by decide)] at balance
  unfold FileBlockDev.service
  rw [type]
  dsimp only
  rw [if_neg (not_not.mpr closed)]
  by_cases opens : host.openRc = .ok
  · rw [if_pos opens, if_pos rfl]
    refine ⟨?_, ?_, ?_⟩
    · have positive : 0 < (d.useCount + 1) % wordSize := by rw [shut]; decide
      exact iff_of_true rfl positive
    · have handles := handles_call d .opened
      rw [balance] at handles
      exact handles
    · refine io_call sound ?_
      rintro state (same | same) <;> contradiction
  · rw [if_neg opens, if_neg opens]
    refine sound.call (by decide) ?_
    rintro state (same | same) <;> contradiction

theorem Sound.close (sound : d.Sound) (last : d.useCount = 1) (type : r.type = .close) :
    (if (d.service host r).1 = .ok then
        { (d.service host r).2.1 with useCount := (d.service host r).2.1.useCount - 1 }
      else (d.service host r).2.1).Sound := by
  have opened : d.state = .opened := sound.opened_iff.mpr (by omega)
  have balance := sound.handles
  rw [opened, if_pos rfl] at balance
  unfold FileBlockDev.service
  rw [type]
  dsimp only
  rw [if_neg (not_not.mpr opened), if_pos rfl]
  refine ⟨?_, ?_, ?_⟩
  · have zero : ¬0 < d.useCount - 1 := by omega
    exact iff_of_false (by simp) zero
  · have handles := handles_call d .closed
    rw [balance] at handles
    exact handles
  · refine io_call sound ?_
    rintro state (same | same) <;> contradiction

/-- A request keeps the layers in agreement unless it is the open that makes the count wrap. -/
theorem Sound.request_iff (sound : d.Sound) (small : d.useCount < wordSize) :
    (d.request host r).2.1.Sound ↔ ¬(r.type = .openDev ∧ d.useCount = wordSize - 1) := by
  unfold FileBlockDev.request
  cases type : r.type with
  | openDev =>
    by_cases opened : 1 ≤ d.useCount
    · simp only [if_pos opened, true_and]
      exact sound.used_iff small opened
    · simp only [if_neg opened]
      have shut : d.useCount = 0 := by omega
      refine iff_of_true (sound.openDev shut type) ?_
      rw [shut]
      decide
  | close =>
    refine iff_of_true ?_ (by simp)
    by_cases shut : d.useCount = 0
    · simp only [if_pos shut]
      exact sound
    by_cases more : 1 < d.useCount
    · simp only [if_neg shut, if_pos more]
      have state := sound.opened_iff.mpr (by omega)
      have left : 0 < d.useCount - 1 := by omega
      exact ⟨iff_of_true state left, sound.handles, sound.io⟩
    · simp only [if_neg shut, if_neg more]
      exact sound.close (by omega) type
  | getAlias => exact iff_of_true sound.getAlias (by simp)
  | stat => exact iff_of_true (sound.service (by simp [type])) (by simp)
  | read => exact iff_of_true (sound.service (by simp [type])) (by simp)
  | write => exact iff_of_true (sound.service (by simp [type])) (by simp)
  | other code => exact iff_of_true (sound.service (by simp [type])) (by simp)

/-- An open or close that fails changes neither layer. -/
theorem request_failed (type : r.type = .openDev ∨ r.type = .close)
    (failed : (d.request host r).1 ≠ .ok) :
    (d.request host r).2.1.useCount = d.useCount ∧ (d.request host r).2.1.state = d.state := by
  unfold FileBlockDev.request FileBlockDev.service at failed ⊢
  rcases type with type | type <;> rw [type] at failed ⊢ <;> dsimp only at failed ⊢
  · by_cases opened : 1 ≤ d.useCount
    · rw [if_pos opened] at failed
      exact absurd rfl failed
    rw [if_neg opened] at failed ⊢
    by_cases busy : d.state ≠ .closed
    · simp [if_pos busy]
    rw [if_neg busy] at failed ⊢
    by_cases opens : host.openRc = .ok
    · simp [opens] at failed
    · simp [opens, call]
  · by_cases shut : d.useCount = 0
    · simp [shut]
    rw [if_neg shut] at failed ⊢
    by_cases more : 1 < d.useCount
    · rw [if_pos more] at failed
      exact absurd rfl failed
    rw [if_neg more] at failed ⊢
    by_cases busy : d.state ≠ .opened
    · simp [if_pos busy]
    · simp [busy] at failed

theorem getSize_useCount : (d.getSize host).2.useCount = d.useCount := by
  unfold getSize
  by_cases refused : host.sizeRc ≠ .ok
  · rw [if_pos refused]
    rfl
  · rw [if_neg refused]
    cases host.size <;> rfl

theorem service_useCount : (d.service host r).2.1.useCount = d.useCount := by
  unfold service
  cases r.type <;> dsimp only
  case stat =>
    split_ifs
    · rfl
    all_goals exact getSize_useCount
  all_goals (try split_ifs) <;> rfl

theorem request_useCount_lt (small : d.useCount < wordSize) :
    (d.request host r).2.1.useCount < wordSize := by
  unfold request
  cases r.type with
  | openDev =>
    dsimp only
    split_ifs
    · exact Nat.mod_lt _ (by decide)
    · exact Nat.mod_lt _ (by decide)
    · rw [service_useCount]
      exact small
  | close =>
    dsimp only
    split_ifs
    · exact small
    · exact Nat.lt_of_le_of_lt (Nat.sub_le _ _) small
    · dsimp only
      rw [service_useCount]
      exact Nat.lt_of_le_of_lt (Nat.sub_le _ _) small
    · rw [service_useCount]
      exact small
  | getAlias =>
    unfold getAlias
    dsimp only
    cases d.conf with
    | none => exact small
    | some conf =>
      dsimp only
      split_ifs <;> exact small
  | _ => exact service_useCount.symm ▸ small

end FileBlockDev

/-! ## Sequences of requests -/

/-- A request of the guest with the answers of the host. -/
structure BlockDevCall where
  host : BlockHost
  index : Nat
  request : CoBlockRequest

namespace BlockDevCall

def step (c : BlockDevCall) (devs : BlockDevs) : BlockDevs :=
  (coMonitorBlockRequest c.host c.index c.request devs).1

/-- What is left in `request->rc`. -/
def rc (c : BlockDevCall) (devs : BlockDevs) : CoBlockRequestRetcode :=
  (coMonitorBlockRequest c.host c.index c.request devs).2.rc

/-- No device has been opened as often as its count can tell. -/
def NoWrap (devs : BlockDevs) (c : BlockDevCall) : Prop :=
  ∀ d ∈ devs.fromIndex c.index, ¬(c.request.type = .openDev ∧ d.useCount = wordSize - 1)

end BlockDevCall

/-- The layers of every device agree, and an open or close that fails next leaves them alone. -/
structure BlockDevs.Sound (devs : BlockDevs) : Prop where
  device : ∀ i d, devs i = some d → d.Sound
  failed : ∀ c : BlockDevCall, c.request.type = .openDev ∨ c.request.type = .close →
    c.rc devs = .error → ∀ i, (c.step devs i).map (fun d => (d.useCount, d.state)) =
      (devs i).map fun d => (d.useCount, d.state)

section Runs

variable {devs : BlockDevs} {c : BlockDevCall}

theorem BlockDevCall.step_none (h : devs.fromIndex c.index = none) : c.step devs = devs := by
  unfold BlockDevCall.step coMonitorBlockRequest
  rw [h]

theorem BlockDevCall.step_some {d : FileBlockDev} (h : devs.fromIndex c.index = some d) :
    devs c.index = some d ∧
      c.step devs = Function.update devs c.index (some (d.request c.host c.request).2.1) := by
  refine ⟨?_, ?_⟩
  · unfold BlockDevs.fromIndex at h
    split_ifs at h
    exact h
  · unfold BlockDevCall.step coMonitorBlockRequest
    rw [h]

/-- A failed open or close, in whatever state the devices are. -/
theorem BlockDevCall.step_failed (type : c.request.type = .openDev ∨ c.request.type = .close)
    (failed : c.rc devs = .error) (i : Nat) :
    (c.step devs i).map (fun d => (d.useCount, d.state)) =
      (devs i).map fun d => (d.useCount, d.state) := by
  cases found : devs.fromIndex c.index with
  | none => rw [step_none found]
  | some d =>
    obtain ⟨there, result⟩ := step_some found
    rw [result]
    by_cases here : i = c.index
    · subst here
      have refused : (d.request c.host c.request).1 ≠ .ok := by
        intro ok
        unfold BlockDevCall.rc coMonitorBlockRequest at failed
        rw [found] at failed
        dsimp only at failed
        rw [if_pos ok] at failed
        contradiction
      obtain ⟨count, state⟩ := FileBlockDev.request_failed type refused
      rw [Function.update_self, there, Option.map_some, Option.map_some, count, state]
    · rw [Function.update_of_ne here]

theorem BlockDevs.sound_of_device (h : ∀ i d, devs i = some d → d.Sound) : devs.Sound :=
  ⟨h, fun _ type failed i => BlockDevCall.step_failed type failed i⟩

theorem BlockDevCall.step_sound_iff (small : ∀ i d, devs i = some d → d.useCount < wordSize)
    (sound : devs.Sound) : BlockDevs.Sound (c.step devs) ↔ NoWrap devs c := by
  unfold NoWrap
  cases found : devs.fromIndex c.index with
  | none =>
    rw [step_none found]
    exact iff_of_true sound (fun d hd => by contradiction)
  | some d =>
    obtain ⟨there, result⟩ := step_some found
    have kept : (d.request c.host c.request).2.1.Sound ↔
        ¬(c.request.type = .openDev ∧ d.useCount = wordSize - 1) :=
      (sound.device c.index d there).request_iff (small c.index d there)
    rw [result]
    constructor
    · intro after e he
      obtain rfl : d = e := Option.some.inj he
      exact kept.mp (after.device c.index _ (Function.update_self ..))
    · intro ok
      apply BlockDevs.sound_of_device
      intro i e he
      by_cases here : i = c.index
      · subst here
        rw [Function.update_self] at he
        obtain rfl := Option.some.inj he
        exact kept.mpr (ok d rfl)
      · rw [Function.update_of_ne here] at he
        exact sound.device i e he

theorem BlockDevCall.step_small (small : ∀ i d, devs i = some d → d.useCount < wordSize) :
    ∀ i d, c.step devs i = some d → d.useCount < wordSize := by
  intro i e he
  cases found : devs.fromIndex c.index with
  | none =>
    rw [step_none found] at he
    exact small i e he
  | some d =>
    obtain ⟨there, result⟩ := step_some found
    rw [result] at he
    by_cases here : i = c.index
    · subst here
      rw [Function.update_self] at he
      obtain rfl := Option.some.inj he
      exact FileBlockDev.request_useCount_lt (small _ d there)
    · rw [Function.update_of_ne here] at he
      exact small i e he

theorem blockDevsInit_shut (conf : Nat → CoBlockDevDesc) {i : Nat} {d : FileBlockDev}
    (h : blockDevsInit conf i = some d) : d.useCount = 0 ∧ d.state = .closed ∧ d.calls = [] := by
  unfold blockDevsInit at h
  split_ifs at h
  obtain rfl := Option.some.inj h
  exact ⟨rfl, rfl, rfl⟩

/-- The layers agree all the way exactly when no count of opens wraps. -/
theorem blockDevs_sound_iff (conf : Nat → CoBlockDevDesc) (calls : List BlockDevCall) :
    (∀ p, p <+: calls → BlockDevs.Sound (run BlockDevCall.step p (blockDevsInit conf))) ↔
      RunOk BlockDevCall.step BlockDevCall.NoWrap calls (blockDevsInit conf) := by
  have keeps : ∀ (devs : BlockDevs) (c : BlockDevCall),
      (∀ i d, devs i = some d → d.useCount < wordSize) →
        ∀ i d, c.step devs i = some d → d.useCount < wordSize :=
    fun _ _ small => BlockDevCall.step_small small
  have kept_iff : ∀ (devs : BlockDevs) (c : BlockDevCall),
      (∀ i d, devs i = some d → d.useCount < wordSize) → devs.Sound →
        (BlockDevs.Sound (c.step devs) ↔ BlockDevCall.NoWrap devs c) :=
    fun _ _ small sound => BlockDevCall.step_sound_iff small sound
  refine forall_prefix_iff_runOk keeps kept_iff ?_ ?_
  · intro i d h
    rw [(blockDevsInit_shut conf h).1]
    decide
  · apply BlockDevs.sound_of_device
    intro i d h
    obtain ⟨count, state, calls⟩ := blockDevsInit_shut conf h
    refine ⟨?_, ?_, ?_⟩
    · exact iff_of_false (by simp [state]) (by omega)
    · simp [FileBlockDev.handles, calls, state]
    · simp [calls]

end Runs

/-! ## The count wraps -/

/-- The host answers every call of a file with success. -/
def willingHost : BlockHost := ⟨.ok, .ok, .ok, .ok, .ok 0⟩

/-- An `OPEN` of `cobd0`. -/
def openCobd0 : BlockDevCall := ⟨willingHost, 0, ⟨.openDev, .error, 0, []⟩⟩

def oneCobd (i : Nat) : CoBlockDevDesc := ⟨i = 0, false, []⟩

/-- After `n + 1` opens. -/
theorem openCobd0_run (n : Nat) (small : n < wordSize) :
    ∃ d, run BlockDevCall.step (List.replicate (n + 1) openCobd0) (blockDevsInit oneCobd) 0 =
      some d ∧ d.state = .opened ∧ d.useCount = (n + 1) % wordSize := by
  induction n with
  | zero => exact ⟨_, rfl, rfl, rfl⟩
  | succ n ih =>
    obtain ⟨d, there, state, count⟩ := ih (by omega)
    rw [List.replicate_succ', run_append]
    generalize run BlockDevCall.step (List.replicate (n + 1) openCobd0) (blockDevsInit oneCobd) =
      devs at there
    have found : BlockDevs.fromIndex devs openCobd0.index = some d := there
    have opened : 1 ≤ d.useCount := by rw [count, Nat.mod_eq_of_lt small]; omega
    have next : (d.request openCobd0.host openCobd0.request).2.1 = d.used := by
      have type : openCobd0.request.type = .openDev := rfl
      rw [FileBlockDev.request, type]
      simp only [if_pos opened]
    refine ⟨d.used, ?_, state, ?_⟩
    · rw [run_cons, run_nil, (BlockDevCall.step_some found).2, next]
      exact Function.update_self ..
    · rw [FileBlockDev.used, count, Nat.mod_add_mod]

/-- The open number `2 ^ 32` leaves the device open with a count of zero. -/
theorem openCobd0_wraps :
    ¬BlockDevs.Sound (run BlockDevCall.step (List.replicate wordSize openCobd0)
      (blockDevsInit oneCobd)) := by
  obtain ⟨n, succ⟩ : ∃ n, wordSize = n + 1 := ⟨4294967295, rfl⟩
  obtain ⟨d, there, state, count⟩ := openCobd0_run n (by omega)
  intro sound
  rw [← succ] at there count
  have positive : 0 < d.useCount := (sound.device 0 d there).opened_iff.mp state
  rw [count, Nat.mod_self] at positive
  exact Nat.lt_irrefl 0 positive

end CoLinux
