import CoLinux.Common.Messages
import CoLinux.Lib.Arena
import CoLinux.Lib.Run

/-!
# Descriptors and the monitors they share

`co_manager_open`, `co_manager_close`, `co_manager_ioctl` and the functions of `kernel/monitor.c` and
`os/winnt/kernel/interface.c` that take and drop references: a descriptor is counted by its file
object, by the slots of `connected_modules` that hold it, by a pending read and by the messages on
their way to it; a monitor is counted by the descriptors that point to it. A close can bring about
others, through `send_monitor_end_messages` and through ATTACH. What else a monitor and a
descriptor own is left to the modules about it.
-/

namespace CoLinux

open Lib

/-- `co_manager_open_desc_t`. -/
structure Descriptor where
  active : Bool
  refCount : Int
  monitorOwner : Bool
  monitor : Option Nat
  /-- `os->irp` is not null. -/
  irp : Bool
  /-- `FsContext` of its file object points to it. -/
  handle : Bool

/-- What descriptors share of a `co_monitor_t`. -/
structure SharedMonitor where
  id : Nat
  refcount : Int
  listedInManager : Bool
  /-- `connected_modules`. -/
  connectedModules : List (Option Nat)

def SharedMonitor.setSlot (i : Nat) (slot : Option Nat) (y : SharedMonitor) : SharedMonitor :=
  { y with connectedModules := y.connectedModules.set i slot }

/-- `connected_modules[i]`. -/
def SharedMonitor.slot (y : SharedMonitor) (i : Nat) : Option Nat := y.connectedModules.getD i none

/-- `CO_MONITOR_MODULES_COUNT`. -/
def coMonitorModulesCount : Nat := coModulesMax

/-- An `incoming_message` that is under way. -/
structure Incoming where
  /-- The descriptor of the ioctl that it is part of. -/
  caller : Nat
  /-- `cmon`. -/
  monitor : Nat
  /-- The receiver, while there is a reference to it. -/
  opened : Option Nat
  deriving DecidableEq

/-- The message has given up its reference. -/
def Incoming.done (c : Incoming) : Incoming := { c with opened := none }

/-- The manager, its descriptors and its monitors. -/
structure Opens where
  descs : Arena Descriptor
  mons : Arena SharedMonitor
  /-- `manager->monitors`, from its head on. -/
  monitors : List Nat
  monitorsCount : Int
  numOpens : Int
  messages : List Incoming
  /-- Blocks of descriptors that were given up and not freed. -/
  lost : Nat
  /-- Uses of a block that is not held, and of a slot that is not there. -/
  faults : Nat

namespace Opens

/-- The descriptors that some messages hold a reference to. -/
def receivers (messages : List Incoming) : List Nat := messages.filterMap Incoming.opened

/-- The descriptors that an `incoming_message` holds a reference to. -/
def incoming (s : Opens) : List Nat := receivers s.messages

def fault (s : Opens) : Opens := { s with faults := s.faults + 1 }

/-- A use of a descriptor. -/
def withDesc (d : Nat) (s : Opens) (next : Descriptor → Opens) : Opens :=
  match s.descs.get d with
  | none => s.fault
  | some x => next x

/-- A use of a monitor. -/
def withMon (m : Nat) (s : Opens) (next : SharedMonitor → Opens) : Opens :=
  match s.mons.get m with
  | none => s.fault
  | some y => next y

def setDesc (d : Nat) (f : Descriptor → Descriptor) (s : Opens) : Opens :=
  s.withDesc d fun _ => { s with descs := s.descs.modify d f }

def setMon (m : Nat) (f : SharedMonitor → SharedMonitor) (s : Opens) : Opens :=
  s.withMon m fun _ => { s with mons := s.mons.modify m f }

def setSlot (m i : Nat) (slot : Option Nat) : Opens → Opens :=
  setMon m (SharedMonitor.setSlot i slot)

/-- `co_monitor_destroy`, as far as descriptors know of it. -/
def coMonitorDestroy (m : Nat) (s : Opens) : Opens := { s with mons := s.mons.free m }

/-- The end of `co_monitor_refdown`. -/
def dropMonitor (m : Nat) (s : Opens) : Opens :=
  s.withMon m fun y =>
    if y.refcount - 1 = 0 then s.coMonitorDestroy m
    else s.setMon m fun y => { y with refcount := y.refcount - 1 }

/-- `monitors_count--` and `co_list_del`, for a monitor that is listed. -/
def unlist (m : Nat) (s : Opens) : Opens :=
  s.withMon m fun y =>
    if y.listedInManager then
      let s := s.setMon m fun y => { y with listedInManager := false }
      { s with monitors := s.monitors.erase m, monitorsCount := s.monitorsCount - 1 }
    else s

section Close

-- `co_manager_close`
variable (close : Nat → Opens → Opens)

/-- `co_os_manager_userspace_eof`: a pending read is completed, and its reference dropped. -/
def coOsManagerUserspaceEof (d : Nat) (s : Opens) : Opens :=
  s.withDesc d fun x =>
    if x.irp then close d (s.setDesc d fun x => { x with irp := false }) else s

/-- `co_manager_send_eof`. -/
def coManagerSendEof (d : Nat) (s : Opens) : Opens :=
  s.withDesc d fun _ =>
    coOsManagerUserspaceEof close d (s.setDesc d fun x => { x with active := false })

/-- The turn of `send_monitor_end_messages` for the slot `i`. -/
def sendEndMessage (m i : Nat) (s : Opens) : Opens :=
  s.withMon m fun y =>
    match y.slot i with
    | none => s
    | some d => close d ((coManagerSendEof close d s).setSlot m i none)

/-- `send_monitor_end_messages`. -/
def sendMonitorEndMessages (m : Nat) (s : Opens) : Opens :=
  (List.range coMonitorModulesCount).foldl (fun s i => sendEndMessage close m i s) s

/-- `co_monitor_refdown`. -/
def coMonitorRefdown (m : Nat) (monitorOwner : Bool) (s : Opens) : Opens :=
  s.withMon m fun y =>
    if 0 < y.refcount then
      if monitorOwner then (sendMonitorEndMessages close m (s.unlist m)).dropMonitor m
      else s.dropMonitor m
    else s

/-- The descriptor leaves `manager->opens` and is freed. -/
def freeDesc (d : Nat) (s : Opens) : Opens :=
  s.withDesc d fun _ => { s with descs := s.descs.free d, numOpens := s.numOpens - 1 }

/-- `co_manager_close_`. A read that is still pending is cancelled. -/
def coManagerClose_ (d : Nat) (s : Opens) : Opens :=
  s.withDesc d fun x =>
    let s := s.setDesc d fun x => { x with irp := false }
    (match x.monitor with
      | none => s
      | some m =>
        coMonitorRefdown close m x.monitorOwner
          (s.setDesc d fun x => { x with monitor := none })).freeDesc d

end Close

/-- `co_manager_close`, with a bound on how deep closes may bring about others. -/
def coManagerClose : Nat → Nat → Opens → Opens
  | 0, _, s => s.fault
  | depth + 1, d, s =>
    s.withDesc d fun x =>
      let s := s.setDesc d fun x => { x with refCount := x.refCount - 1 }
      if x.refCount - 1 = 0 then coManagerClose_ (coManagerClose depth) d s else s

/-- Each close that brings about others has cleared the `monitor` of a descriptor before. -/
def depth (s : Opens) : Nat := s.descs.next + 1

def close (d : Nat) (s : Opens) : Opens := coManagerClose s.depth d s

/-! ## Requests -/

/-- What `co_manager_open` is answered: memory for the descriptor, `co_os_mutex_create` and
`co_os_manager_userspace_open`. -/
inductive OpenAnswer where
  | granted
  | noMemory
  | noMutex
  | noUserspace
  deriving DecidableEq

/-- `co_manager_open`. It returns without freeing the descriptor when there is no mutex. -/
def coManagerOpen (answer : OpenAnswer) (s : Opens) : Opens :=
  match answer with
  | .granted =>
    { s with
      descs := s.descs.alloc
        { active := true
          refCount := 1
          monitorOwner := false
          monitor := none
          irp := false
          handle := true }
      numOpens := s.numOpens + 1 }
  | .noMutex => { s with lost := s.lost + 1 }
  | .noMemory | .noUserspace => s

/-- What is in the slots of a new monitor. -/
def noModules : List (Option Nat) := List.replicate coMonitorModulesCount none

/-- `co_monitor_create` by the process `id`, when it succeeds. -/
def coMonitorCreate (id : Nat) (s : Opens) : Opens :=
  { s with
    mons := s.mons.alloc
      { id := id
        refcount := 1
        listedInManager := true
        connectedModules := noModules }
    monitors := s.mons.next :: s.monitors
    monitorsCount := s.monitorsCount + 1 }

/-- CO_MANAGER_IOCTL_CREATE; `granted` says whether `co_monitor_create` succeeds. -/
def create (d id : Nat) (granted : Bool) (s : Opens) : Opens :=
  s.withDesc d fun x =>
    if x.monitor.isSome ∨ granted = false then s
    else
      (s.coMonitorCreate id).setDesc d fun x =>
        { x with monitor := some s.mons.next, monitorOwner := true }

/-- The first monitor in the list that has the id. -/
def findMonitor (id : Nat) (s : Opens) : Option Nat :=
  s.monitors.find? fun m => (s.mons.get m).any fun y => y.id = id

/-- The turn of ATTACH for the module `module`. -/
def attachModule (d m : Nat) (s : Opens) (module : Nat) : Opens :=
  s.withMon m fun y =>
    if coMonitorModulesCount ≤ module then s.fault
    else
      let s := match y.slot module with
        | none => s
        | some old => s.close old
      (s.setSlot m module (some d)).setDesc d fun x => { x with refCount := x.refCount + 1 }

/-- CO_MANAGER_IOCTL_ATTACH. -/
def attach (d id : Nat) (modules : List Nat) (s : Opens) : Opens :=
  match s.findMonitor id with
  | none => s.setDesc d fun x => { x with monitor := none }
  | some m =>
    modules.foldl (attachModule d m)
      ((s.setMon m fun y => { y with refcount := y.refcount + 1 }).setDesc d fun x =>
        { x with monitor := some m })

/-- CO_MONITOR_IOCTL_CLOSE. -/
def monitorClose (d : Nat) (s : Opens) : Opens :=
  s.withDesc d fun x =>
    match x.monitor with
    | none => s
    | some m =>
      (coMonitorRefdown (coManagerClose s.depth) m x.monitorOwner s).setDesc d fun x =>
        { x with monitor := none, monitorOwner := false }

/-- CO_MONITOR_IOCTL_RESET; `granted` says whether it comes to the list. -/
def reset (d : Nat) (granted : Bool) (s : Opens) : Opens :=
  s.withDesc d fun x =>
    match x.monitor with
    | none => s
    | some m =>
      if x.monitorOwner ∧ granted then
        s.withMon m fun y =>
          if y.listedInManager then s
          else { s.setMon m fun y => { y with listedInManager := true } with
            monitors := m :: s.monitors }
      else s

/-- `manager_read`; `queued` says whether it finds a message in `out_queue`. -/
def read (d : Nat) (queued : Bool) (s : Opens) : Opens :=
  s.withDesc d fun x =>
    if x.active ∧ queued = false ∧ x.irp = false then
      s.setDesc d fun x => { x with irp := true, refCount := x.refCount + 1 }
    else s

/-- `manager_irp_cancel`, for a read that is pending. -/
def cancel (d : Nat) (s : Opens) : Opens :=
  s.withDesc d fun x =>
    if x.irp then (s.setDesc d fun x => { x with irp := false }).close d else s

/-- `incoming_message` up to its reference, from an ioctl on `d`. -/
def incomingMessage (d module : Nat) (s : Opens) : Opens :=
  s.withDesc d fun x =>
    match x.monitor with
    | none => s
    | some m =>
      s.withMon m fun y =>
        if coMonitorModulesCount ≤ module then s
        else
          match y.slot module with
          | none => { s with messages := ⟨d, m, none⟩ :: s.messages }
          | some opened =>
            s.withDesc opened fun x =>
              if x.refCount = 0 then { s with messages := ⟨d, m, none⟩ :: s.messages }
              else
                { s.setDesc opened fun x => { x with refCount := x.refCount + 1 } with
                  messages := ⟨d, m, some opened⟩ :: s.messages }

/-- `incoming_message` with a reference to `d`: `co_monitor_filter_linux_message`, unless that takes
the message `co_manager_send`, which gives it to a pending read, and `co_manager_close`. -/
def deliver (c : Incoming) (d : Nat) (filtered : Bool) (s : Opens) : Opens :=
  s.withMon c.monitor fun _ =>
    s.withDesc d fun x =>
      let s := { s with messages := c.done :: s.messages.erase c }
      let s := if filtered = false ∧ x.irp then
          (s.setDesc d fun x => { x with irp := false }).close d
        else s
      s.withMon c.monitor fun _ => s.close d

/-- The ioctl goes on, with the console or the io buffer of its monitor. -/
def endMessage (c : Incoming) (s : Opens) : Opens :=
  s.withMon c.monitor fun _ => { s with messages := s.messages.erase c.done }

/-- The rest of `incoming_message`. -/
def sendIncoming (c : Incoming) (filtered : Bool) (s : Opens) : Opens :=
  match c.opened with
  | none => s.endMessage c
  | some d => (s.deliver c d filtered).endMessage c

/-- The turn of `co_manager_open_desc_deactive_and_close` for the slot `i`. -/
def leaveSlot (d m : Nat) (s : Opens) (i : Nat) : Opens :=
  s.withMon m fun y =>
    if y.slot i = some d then (s.setSlot m i none).close d else s

/-- `co_manager_open_desc_deactive_and_close`, when the file object is closed. -/
def deactiveAndClose (d : Nat) (s : Opens) : Opens :=
  s.withDesc d fun x =>
    let s := s.setDesc d fun x => { x with handle := false, active := false }
    (match x.monitor with
      | none => s
      | some m => (List.range coMonitorModulesCount).foldl (leaveSlot d m) s).close d

end Opens

inductive OpensEvent where
  | coManagerOpen (answer : Opens.OpenAnswer)
  | create (d id : Nat) (granted : Bool)
  | attach (d id : Nat) (modules : List Nat)
  | monitorClose (d : Nat)
  | reset (d : Nat) (granted : Bool)
  | read (d : Nat) (queued : Bool)
  | cancel (d : Nat)
  | incomingMessage (d module : Nat)
  | sendIncoming (c : Incoming) (filtered : Bool)
  | deactiveAndClose (d : Nat)

namespace Opens

/-- There is a file object for `d`. -/
def HasHandle (s : Opens) (d : Nat) : Prop := (s.descs.get d).any Descriptor.handle = true

/-- There is a pending read on `d`. -/
def HasIrp (s : Opens) (d : Nat) : Prop := (s.descs.get d).any Descriptor.irp = true

/-- No message of an ioctl on `d` is under way. -/
def Idle (s : Opens) (d : Nat) : Prop := ∀ c ∈ s.messages, c.caller ≠ d

instance (s : Opens) (d : Nat) : Decidable (s.Idle d) := inferInstanceAs (Decidable (∀ c ∈ _, _))

instance (s : Opens) (d : Nat) : Decidable (s.HasHandle d) := inferInstanceAs (Decidable (_ = _))

instance (s : Opens) (d : Nat) : Decidable (s.HasIrp d) := inferInstanceAs (Decidable (_ = _))

/-- A request comes through a file object, a cancellation while a read is pending, and an
`incoming_message` goes on after its first part. -/
def step : OpensEvent → Opens → Opens
  | .coManagerOpen answer, s => s.coManagerOpen answer
  | .create d id granted, s => if s.HasHandle d then s.create d id granted else s
  | .attach d id modules, s => if s.HasHandle d then s.attach d id modules else s
  | .monitorClose d, s => if s.HasHandle d then s.monitorClose d else s
  | .reset d granted, s => if s.HasHandle d then s.reset d granted else s
  | .read d queued, s => if s.HasHandle d then s.read d queued else s
  | .cancel d, s => if s.HasIrp d then s.cancel d else s
  | .incomingMessage d module, s => if s.HasHandle d then s.incomingMessage d module else s
  | .sendIncoming c filtered, s => if c ∈ s.messages then s.sendIncoming c filtered else s
  | .deactiveAndClose d, s => if s.HasHandle d then s.deactiveAndClose d else s

def start : Opens where
  descs := .empty
  mons := .empty
  monitors := []
  monitorsCount := 0
  numOpens := 0
  messages := []
  lost := 0
  faults := 0

end Opens

end CoLinux
