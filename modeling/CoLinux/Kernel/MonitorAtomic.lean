import CoLinux.Kernel.Proofs.MonitorUnwind

/-!
# When `co_monitor_create` undoes what it did

A call that fails goes to one of the error labels. They give back what the call has taken, unless
the second mutex is refused, the protocol of the network or its mutex is missing, a frame is above
the host's memory, or a video device or its buffer is refused.
-/

namespace CoLinux

open Lib

namespace Cmon

/-- A call that fails leaves nothing behind. -/
def CreateSound (host : HostAnswers) (params : CreateParams) (id : Nat) (k : Kernel) : Prop :=
  (coMonitorCreate host params id k).1 ≠ .ok → Undone k (coMonitorCreate host params id k).2

variable {host : HostAnswers} {c : Cmon} {rs : List Resource} {k : Kernel}

/-! ## After the budget test -/

/-- A step that fails leaves nothing behind. -/
def SoundStep (k : Kernel) (r : Step Cmon) : Prop := r.1 ≠ .ok → Undone k r.2

/-- The monitor of a call that has passed the budget test, with `base` of its own and what the
devices hold. -/
structure Equipped (host : HostAnswers) (k : Kernel) (t : DeviceKind → List Nat)
    (base : List Resource) (c : Cmon) : Prop where
  pointers : Pointers host c
  table : OwnTable k c
  tables : c.Tables t base
  base : Conet host → base.Perm (.timer :: unwindOrder host)

variable {t : DeviceKind → List Nat} {base : List Resource} {config : CoConfig}

theorem Equipped.undone_iff (h : Equipped host k t base c)
    (books : c.outDestroyTimer.kernel.books = k.books) :
    Undone k c.outDestroyTimer ↔ Conet host ∧ heldAll t = [] :=
  outDestroyTimer_undone_iff h.pointers
    (fun conet => h.tables.holds.perm ((h.base conet).append_left _)) h.table books

theorem mem_wanted_video : 0 ∈ wanted config .video ↔ config.enabled .video 0 = true := by
  rw [wanted, List.mem_filter]
  exact and_iff_right (by decide)

theorem heldAll_ne_nil {kind : DeviceKind} {u : Nat} (mem : u ∈ t kind) : heldAll t ≠ [] := by
  intro none
  have perm := heldAll_perm t kind
  rw [none] at perm
  have empty := (List.append_eq_nil_iff.mp perm.symm.eq_nil).1
  have unit : kind.resources u = [] := List.flatMap_eq_nil_iff.mp empty u mem
  cases kind <;> cases unit

theorem createVideoBuffer_sound_iff (h : Equipped host k (wanted config) base c)
    (books : (createVideoBuffer host c).1 ≠ .ok →
      (createVideoBuffer host c).2.kernel.books = k.books) :
    SoundStep k (createVideoBuffer host c) ↔
      (config.enabled .video 0 = true → host.grants .videoBuffer = true) := by
  have present : c.monitor.devices .video 0 = true ↔ config.enabled .video 0 = true :=
    ((h.tables.units .video).mem 0).trans mem_wanted_video
  unfold SoundStep
  unfold createVideoBuffer at books ⊢
  by_cases video : c.monitor.devices .video 0 = true
  · rw [if_pos video] at books ⊢
    cases granted : host.grants .videoBuffer with
    | true =>
      rw [request_granted granted]
      exact iff_of_true (fun failed => absurd rfl failed) fun _ => rfl
    | false =>
      rw [request_refused granted] at books ⊢
      refine iff_of_false (fun sound => ?_) fun all => nomatch all (present.mp video)
      have undone := (h.undone_iff (books nofun)).mp (sound nofun)
      exact heldAll_ne_nil (mem_wanted_video.mpr (present.mp video)) undone.2
  · rw [if_neg video]
    refine iff_of_true (fun failed => absurd rfl failed) fun enabled => ?_
    exact absurd (present.mpr enabled) video

theorem heldAll_video_eq_nil {us : List Nat} :
    heldAll (Function.update (fun _ => []) .video us) = [] ↔ us = [] := by
  constructor
  · intro none
    by_contra some
    obtain ⟨u, mem⟩ := List.exists_mem_of_ne_nil us some
    exact @heldAll_ne_nil (Function.update (fun _ => []) .video us) .video u mem none
  · rintro rfl
    rfl

/-- The devices, from the timer on. -/
theorem createDevices_sound_iff (h : Equipped host k (fun _ => []) base c)
    (books : (createDevices host c).1 ≠ .ok → (createDevices host c).2.kernel.books = k.books) :
    SoundStep k (createDevices host c) ↔
      (¬ (GrantsBeforeVideo host c.monitor.config ∧ GrantsUnits host c.monitor.config .video) →
        Conet host) ∧
      (GrantsBeforeVideo host c.monitor.config → ¬ GrantsUnits host c.monitor.config .video →
        loadedUnits host .video (wanted c.monitor.config .video) = []) ∧
      (GrantsBeforeVideo host c.monitor.config → GrantsUnits host c.monitor.config .video →
        c.monitor.config.enabled .video 0 = true → host.grants .videoBuffer = true) := by
  obtain ⟨ok, tables⟩ := loadConfiguration_tables host h.tables
  have apart := loadConfiguration_apart host c
  generalize c.monitor.config = config at *
  have loaded : Equipped host k (leftUnits host config) base (loadConfiguration host c).2 :=
    ⟨h.pointers.of_apart apart, h.table.of_apart apart, tables, h.base⟩
  unfold createDevices orElse at books ⊢
  by_cases all : (loadConfiguration host c).1 = .ok
  · obtain ⟨before, video⟩ := ok.mp all
    rw [if_pos all] at books ⊢
    rw [leftUnits, if_neg (not_not.mpr before), if_neg (not_not.mpr video)] at loaded
    rw [createVideoBuffer_sound_iff loaded books]
    simp only [before, video, and_self, not_true_eq_false, false_imp_iff, true_imp_iff, true_and]
  · rw [if_neg all] at books ⊢
    have undone : SoundStep k
        ((loadConfiguration host c).1, outDestroyTimer (loadConfiguration host c).2) ↔
          Conet host ∧ heldAll (leftUnits host config) = [] :=
      (imp_iff_right all).trans (loaded.undone_iff (books all))
    rw [undone]
    by_cases before : GrantsBeforeVideo host config
    · have video : ¬ GrantsUnits host config .video := fun video => all (ok.mpr ⟨before, video⟩)
      rw [leftUnits, if_neg (not_not.mpr before), if_pos video, heldAll_video_eq_nil]
      simp only [before, video, and_false, not_false_eq_true, true_imp_iff, false_imp_iff, and_true]
    · rw [leftUnits, if_pos before]
      simp only [before, false_and, not_false_eq_true, true_imp_iff, false_imp_iff, and_true]
      exact and_iff_left rfl

/-- The timer, once the frame table is there. -/
theorem createTimer_sound_iff (p : Pointers host c) (own : OwnTable k c)
    (tables : c.Tables (fun _ => []) base) (conetBase : Conet host → base.Perm (unwindOrder host))
    (books : (createTimer host c).1 ≠ .ok → (createTimer host c).2.kernel.books = k.books) :
    SoundStep k (createTimer host c) ↔
      (¬ (host.grants .timer = true ∧ GrantsBeforeVideo host c.monitor.config ∧
        GrantsUnits host c.monitor.config .video) → Conet host) ∧
      (host.grants .timer = true → GrantsBeforeVideo host c.monitor.config →
        ¬ GrantsUnits host c.monitor.config .video →
          loadedUnits host .video (wanted c.monitor.config .video) = []) ∧
      (host.grants .timer = true → GrantsBeforeVideo host c.monitor.config →
        GrantsUnits host c.monitor.config .video →
          c.monitor.config.enabled .video 0 = true → host.grants .videoBuffer = true) := by
  unfold createTimer at books ⊢
  cases timer : host.grants .timer with
  | true =>
    rw [request_granted timer] at books ⊢
    have equipped : Equipped host k (fun _ => []) (.timer :: base)
        (c.setLedger (c.monitor.ledger.acquire .timer)) :=
      ⟨p.setLedger _, ⟨own.has, own.own⟩, tables.acquire id, fun conet => (conetBase conet).cons _⟩
    rw [createDevices_sound_iff equipped books]
    simp only [true_and, true_imp_iff]
    rfl
  | false =>
    rw [request_refused timer] at books ⊢
    have undone : SoundStep k (.outOfMemory, outFreePp c) ↔
        Conet host ∧ ([] : List Resource) = [] :=
      (imp_iff_right nofun).trans (outFreePp_undone_iff p
        (fun conet => tables.holds.perm (conetBase conet)) own (books nofun))
    rw [undone]
    simp only [Bool.false_eq_true, false_and, not_false_eq_true, true_imp_iff, false_imp_iff,
      and_true]

/-- Another frame table. -/
theorem Tables.setWorld (h : c.Tables t rs) (absent : c.monitor.guest.hasPpPfns = false) {w : World}
    (blocks : w.monitor.blocksAllocated = c.monitor.guest.blocksAllocated + w.ppBlocks) :
    (c.setWorld w).Tables t rs where
  units := fun kind => ⟨(h.units kind).mem, (h.units kind).nodup⟩
  holds := by
    refine ⟨h.holds.ledger, ?_⟩
    have before := h.holds.blocks
    rw [ppBlocks_absent absent, Nat.zero_add] at before
    show w.monitor.blocksAllocated = w.ppBlocks + _
    rw [blocks, before, Nat.add_comm]

/-- The frame table, once the memory has been counted. -/
theorem createRam_sound_iff (p : Pointers host c) (same : c.kernel.host = k.host)
    (small : SmallMemory c.world) (least : coArchPmdSize ≤ c.monitor.guest.memorySize)
    (absent : c.monitor.guest.hasPpPfns = false) (ppOk : PpOk c.world)
    (tables : c.Tables (fun _ => []) base) (conetBase : Conet host → base.Perm (unwindOrder host))
    (books : (createRam host c).1 ≠ .ok → (createRam host c).2.kernel.books = k.books) :
    SoundStep k (createRam host c) ↔
      (¬ (c.world.ppOutcome = .granted ∧ host.grants .timer = true ∧
        GrantsBeforeVideo host c.monitor.config ∧ GrantsUnits host c.monitor.config .video) →
          Conet host) ∧
      (∀ q, c.world.ppOutcome ≠ .tooHigh q) ∧
      (c.world.ppOutcome = .granted → host.grants .timer = true →
        GrantsBeforeVideo host c.monitor.config → ¬ GrantsUnits host c.monitor.config .video →
          loadedUnits host .video (wanted c.monitor.config .video) = []) ∧
      (c.world.ppOutcome = .granted → host.grants .timer = true →
        GrantsBeforeVideo host c.monitor.config → GrantsUnits host c.monitor.config .video →
          c.monitor.config.enabled .video 0 = true → host.grants .videoBuffer = true) := by
  have allocated := allocPpRamMapping_allocated small absent ppOk
  have outcome := allocPpRamMapping_outcome small least
  unfold createRam orElse withWorld at books ⊢
  dsimp only at books ⊢
  generalize allocPpRamMapping c.world = r at *
  have tables' := tables.setWorld absent allocated.blocks
  by_cases ok : r.1 = .ok
  · have granted := outcome.ok.mp ok
    have own : OwnTable k (c.setWorld r.2) :=
      ⟨allocated.hasPpPfns.mpr ok, same ▸ outcome.granted ok⟩
    rw [if_pos ok] at books ⊢
    rw [createTimer_sound_iff (p.setWorld r.2) own tables' conetBase books, granted]
    simp only [true_and, true_imp_iff]
    refine and_congr Iff.rfl ((and_iff_right ?_).symm)
    exact fun q high => nomatch high
  · rw [if_neg ok] at books ⊢
    have failed : ¬ c.world.ppOutcome = .granted := fun granted => ok (outcome.ok.mpr granted)
    have none : (c.setWorld r.2).monitor.guest.hasPpPfns = false := by
      rw [← Bool.not_eq_true]
      exact fun has => ok (allocated.hasPpPfns.mp has)
    have undone : SoundStep k (r.1, outRevertUsedMem (c.setWorld r.2)) ↔
        (Conet host ∧ ([] : List Resource) = []) ∧
          ∀ q, q ∈ r.2.host.out ↔ q ∈ k.host.out :=
      (imp_iff_right ok).trans (outRevertUsedMem_undone_iff (p.setWorld r.2)
        (fun conet => tables'.holds.perm (conetBase conet)) none (books ok))
    rw [undone]
    simp only [failed, false_and, not_false_eq_true, true_imp_iff, false_imp_iff, and_true]
    refine and_congr Iff.rfl ⟨fun out q high => ?_, fun low q => ?_⟩
    · have back := (out q).mp ((outcome.failed ok q).mpr (.inr high))
      rw [← same] at back
      exact outcome.fresh q high back
    · rw [outcome.failed ok, or_iff_left (low q)]
      exact iff_of_eq (congrArg (fun host : Host => q ∈ host.out) same)

/-- How the requests of `alloc_pp_ram_mapping` come out in a call. -/
def ramOutcome (params : CreateParams) (k : Kernel) : FrameOutcome :=
  if k.host.mallocs.take 2 = [true, true] then
    frameRequests (pageTables (createMemorySize params k)) k
  else .refused

/-- Once at the budget test, the call gets as far as the video devices. -/
structure ReachesVideo (host : HostAnswers) (params : CreateParams) (k : Kernel) : Prop where
  budget : ¬ OverBudget k (createMemorySize params k)
  ram : ramOutcome params k = .granted
  timer : host.grants .timer = true
  devices : GrantsBeforeVideo host params.config

/-- When the labels from the budget test on give everything back. -/
structure TailUndoes (host : HostAnswers) (params : CreateParams) (k : Kernel) : Prop where
  conet : ¬ (ReachesVideo host params k ∧ GrantsUnits host params.config .video) → Conet host
  frames : ¬ OverBudget k (createMemorySize params k) → ∀ q, ramOutcome params k ≠ .tooHigh q
  video : ReachesVideo host params k → ¬ GrantsUnits host params.config .video →
    loadedUnits host .video (wanted params.config .video) = []
  buffer : ReachesVideo host params k → GrantsUnits host params.config .video →
    params.config.enabled .video 0 = true → host.grants .videoBuffer = true

variable {params : CreateParams} {id : Nat}

/-- A call that has counted the monitor's memory. -/
structure Counted (host : HostAnswers) (k : Kernel) (base : List Resource) (memorySize : Nat)
    (config : CoConfig) (c : Cmon) : Prop where
  pointers : Pointers host c
  host : c.kernel.host = k.host
  manager : c.kernel.manager = k.manager
  absent : c.monitor.guest.hasPpPfns = false
  ppGroups : c.world.ppGroups = []
  tables : c.Tables (fun _ => []) base
  memorySize : c.monitor.guest.memorySize = memorySize
  config : c.monitor.config = config

theorem counted (fresh : Fresh k id c) (p : Pointers host c) (held : c.Holds base)
    (used endPhysical : Nat) :
    Counted host k base c.monitor.guest.memorySize c.monitor.config
      ((c.setHostmemUsed used).setGuest { c.monitor.guest with endPhysical := endPhysical }) where
  pointers := ⟨p.lock, p.mutex, p.osdepMutex, p.protocol, p.conetMutex⟩
  host := by
    have same : c.kernel.host = k.host := by rw [fresh.kernel]
    exact same
  manager := by
    have same : c.kernel.manager = k.manager := by rw [fresh.kernel]
    exact same
  absent := fresh.hasPpPfns
  ppGroups := fresh.ppGroups
  tables := by
    refine ⟨fun kind => ⟨fun u => ?_, List.nodup_nil⟩, held.ledger, held.blocks⟩
    show c.monitor.devices kind u = true ↔ u ∈ []
    rw [fresh.devices]
    exact iff_of_false Bool.false_ne_true List.not_mem_nil
  memorySize := rfl
  config := rfl

/-- The memory of a new monitor is counted. -/
theorem counted_configure (fresh : Fresh k id c) (p : Pointers host c) (held : c.Holds base)
    (params : CreateParams) :
    Counted host k base (createMemorySize params k) params.config
      (c.configure params).countMemory := by
  obtain ⟨fresh1, memorySize⟩ := fresh.counted params
  have p1 : Pointers host (c.configure params) :=
    ⟨p.lock, p.mutex, p.osdepMutex, p.protocol, p.conetMutex⟩
  have held1 : (c.configure params).Holds base := ⟨held.ledger, held.blocks⟩
  have counted : Counted host k base (c.configure params).monitor.guest.memorySize params.config
      (c.configure params).countMemory := counted fresh1 p1 held1 _ _
  rwa [memorySize] at counted

theorem Counted.small (h : Counted host k base (createMemorySize params k) config c) :
    SmallMemory c.world :=
  Nat.le_trans (Nat.le_of_eq h.memorySize) (createMemorySize_bounds params k).2

theorem Counted.ppOutcome (h : Counted host k base (createMemorySize params k) config c) :
    c.world.ppOutcome = ramOutcome params k := by
  have same : c.world.host = k.host := h.host
  have manager : c.world.manager = k.manager := h.manager
  have memorySize : c.world.monitor.memorySize = createMemorySize params k := h.memorySize
  rw [World.ppOutcome, World.requestsOutcome, World.frameRequests, ramOutcome, frameRequests, same,
    manager, memorySize]

theorem createBudget_sound_iff (fresh : Fresh k id c) (p : Pointers host c) (held : c.Holds base)
    (conetBase : Conet host → base.Perm (unwindOrder host))
    (books : (createBudget host params c).1 ≠ .ok →
      (createBudget host params c).2.kernel.books = k.books) :
    SoundStep k (createBudget host params c) ↔ TailUndoes host params k := by
  have least := (createMemorySize_bounds params k).1
  obtain ⟨fresh1, memorySize⟩ := fresh.counted params
  have p1 : Pointers host (c.configure params) :=
    ⟨p.lock, p.mutex, p.osdepMutex, p.protocol, p.conetMutex⟩
  have held1 : (c.configure params).Holds base := ⟨held.ledger, held.blocks⟩
  unfold createBudget at books ⊢
  dsimp only at books ⊢
  rw [fresh1.kernel, memorySize] at books ⊢
  by_cases beyond : OverBudget k (createMemorySize params k)
  · rw [if_pos beyond] at books ⊢
    have undone : SoundStep k (.hostmemUseLimitReached, outFreeOsDep (c.configure params)) ↔
        (Conet host ∧ ([] : List Resource) = []) ∧
          ∀ q, q ∈ (c.configure params).kernel.host.out ↔ q ∈ k.host.out :=
      (imp_iff_right nofun).trans (outFreeOsDep_undone_iff p1
        (fun conet => held1.perm (conetBase conet)) fresh1.hasPpPfns (books nofun))
    rw [undone, fresh1.kernel]
    constructor
    · rintro ⟨⟨conet, -⟩, -⟩
      exact ⟨fun _ => conet, fun not => absurd beyond not, fun reaches => absurd beyond reaches.budget,
        fun reaches => absurd beyond reaches.budget⟩
    · intro tail
      exact ⟨⟨tail.conet fun all => all.1.budget beyond, rfl⟩, fun _ => Iff.rfl⟩
  · rw [if_neg beyond] at books ⊢
    have counted := counted_configure fresh p held params
    have tables : coArchPmdSize ≤ (c.configure params).countMemory.monitor.guest.memorySize := by
      rw [counted.memorySize]
      exact Nat.le_trans (by decide) least
    rw [createRam_sound_iff counted.pointers counted.host counted.small tables counted.absent
      (fun _ => counted.ppGroups) counted.tables conetBase books, counted.ppOutcome, counted.config]
    constructor
    · rintro ⟨conet, frames, video, buffer⟩
      refine ⟨fun not => conet fun all => not ⟨⟨beyond, all.1, all.2.1, all.2.2.1⟩, all.2.2.2⟩,
        fun _ => frames, fun reaches => video reaches.ram reaches.timer reaches.devices,
        fun reaches => buffer reaches.ram reaches.timer reaches.devices⟩
    · intro tail
      refine ⟨fun not => tail.conet fun all => not ⟨all.1.ram, all.1.timer, all.1.devices, all.2⟩,
        tail.frames beyond, fun ram timer devices => tail.video ⟨beyond, ram, timer, devices⟩,
        fun ram timer devices => tail.buffer ⟨beyond, ram, timer, devices⟩⟩

/-! ## Up to the budget test -/

theorem Fresh.undone {c' : Cmon} (fresh : Fresh k id c) (held : c.monitor.ledger.Holds rs)
    (released : ReleasedBy rs c c') : Undone k c' where
  ledger := by
    rw [released.ledger]
    exact (@Ledger.Holds.releaseAll _ [] _ _ _ held).eq_empty
  table := by
    rw [released.guest]
    exact fresh.hasPpPfns
  blocks := by
    rw [released.guest]
    exact fresh.blocks
  out := fun q => by rw [released.kernel, fresh.kernel]
  books := by rw [released.kernel, fresh.kernel]

/-- A request of the constructor with its label. -/
theorem Fresh.request {xs : List Resource} {r : Resource} {rc : CoRc} {label : Cmon → Cmon}
    {next : Cmon → Step Cmon} (fresh : Fresh k id c) (held : c.monitor.ledger.Holds rs)
    (released : ReleasedBy xs c (label c)) (same : rs.Perm xs)
    (rest : host.grants r = true → SoundStep k (next (c.setLedger (c.monitor.ledger.acquire r)))) :
    SoundStep k (c.request host r (fun c => (rc, label c)) next) :=
  request_rule (P := SoundStep k) (fun _ _ => fresh.undone (held.perm same) released) rest

theorem releasedBy_nil (c : Cmon) : ReleasedBy [] c c := ⟨rfl, rfl, rfl, rfl, rfl⟩

/-- What the monitor holds before the shared page. -/
def frontHeld : List Resource :=
  [.ioBuffer, .idleWait, .linuxMessageQueueMutex, .connectedModulesWriteLock, .console, .monitor]

/-- The monitor with its shared page. -/
def withShared (c : Cmon) : Cmon :=
  { c with monitor := { c.monitor with
    ledger := (c.monitor.ledger.acquire .shared).acquire .sharedHandle
    sharedUserAddress := true } }

theorem allocSharedPage_granted (shared : host.grants .shared = true)
    (handle : host.grants .sharedHandle = true) : allocSharedPage host c = (.ok, c.withShared) := by
  rw [allocSharedPage, request_granted shared, request_granted handle]
  rfl

theorem Fresh.withShared (fresh : Fresh k id c) : Fresh k id c.withShared :=
  fresh.update rfl rfl ⟨rfl, rfl, rfl⟩ ⟨rfl, rfl⟩ ⟨rfl, rfl, rfl⟩

/-- The calls that do not get to the budget test, from the shared page on. -/
theorem createOs_sound (fresh : Fresh k id c) (held : c.monitor.ledger.Holds frontHeld)
    (lock : c.monitor.connectedModulesWriteLock = .valid)
    (mutex : c.monitor.linuxMessageQueueMutex = .valid)
    (refused : ¬ (host.grants .shared = true ∧ host.grants .sharedHandle = true ∧
      host.grants .osdep = true)) : SoundStep k (createOs host params c) := by
  have buffer := outFreeBuffer_releasedBy lock mutex
  cases shared : host.grants .shared with
  | false =>
    have page : allocSharedPage host c = (.error, c) := request_refused shared _ _ _
    rw [createOs, page]
    exact fun _ => fresh.undone (held.perm (by decide)) buffer
  | true =>
    cases handle : host.grants .sharedHandle with
    | false =>
      have page : allocSharedPage host c = (.error, c) := by
        rw [allocSharedPage, request_granted shared, request_refused handle]
        show (CoRc.error, c.setLedger ((c.monitor.ledger.acquire .shared).release .shared)) = _
        rw [Ledger.release_acquire]
        rfl
      rw [createOs, page]
      exact fun _ => fresh.undone (held.perm (by decide)) buffer
    | true =>
      have osdep : host.grants .osdep = false := by
        rw [← Bool.not_eq_true]
        exact fun osdep => refused ⟨shared, handle, osdep⟩
      have init : coMonitorOsInit host c.withShared = (.outOfMemory, c.withShared) :=
        request_refused osdep _ _ _
      have ledger : c.withShared.monitor.ledger.Holds (.sharedHandle :: .shared :: frontHeld) :=
        (held.acquire _).acquire _
      have all := @outFreeSharedPage_releasedBy c.withShared lock mutex
      rw [createOs, allocSharedPage_granted shared handle, orElse, if_pos rfl, init]
      exact fun _ => fresh.withShared.undone (ledger.perm (by decide)) all

/-- The monitor with its first mutex. -/
def withLock (c : Cmon) : Cmon :=
  { c with monitor := { c.monitor with connectedModulesWriteLock := .valid } }

/-- The monitor with its second mutex. -/
def withMutex (c : Cmon) : Cmon :=
  { c with monitor := { c.monitor with linuxMessageQueueMutex := .valid } }

def withBuffer (host : HostAnswers) (c : Cmon) : Cmon :=
  c.setGuest { c.monitor.guest with ioBuffer := host.ioBuffer }

theorem Fresh.withLock (fresh : Fresh k id c) : Fresh k id c.withLock :=
  fresh.update rfl rfl ⟨rfl, rfl, rfl⟩ ⟨rfl, rfl⟩ ⟨rfl, rfl, rfl⟩

theorem Fresh.withMutex (fresh : Fresh k id c) : Fresh k id c.withMutex :=
  fresh.update rfl rfl ⟨rfl, rfl, rfl⟩ ⟨rfl, rfl⟩ ⟨rfl, rfl, rfl⟩

theorem Fresh.withBuffer (fresh : Fresh k id c) (host : HostAnswers) :
    Fresh k id (c.withBuffer host) :=
  fresh.update rfl rfl ⟨rfl, rfl, rfl⟩ ⟨rfl, rfl⟩ ⟨rfl, rfl, rfl⟩

/-- The first mutex is given back when the second one is refused only if that one was not there. -/
def LocksUndo (host : HostAnswers) (params : CreateParams) : Prop :=
  params.magicSizeMatches = true → host.grants .monitor = true → host.grants .console = true →
    host.grants .connectedModulesWriteLock = true → host.grants .linuxMessageQueueMutex = true

theorem coMonitorCreate_before (locks : LocksUndo host params)
    (before : ¬ ReachesBudget host params) : SoundStep k (coMonitorCreate host params id k) := by
  unfold coMonitorCreate
  dsimp only
  cases magic : params.magicSizeMatches with
  | false =>
    rw [if_pos rfl]
    exact fun _ => (fresh_cleared k id).undone Ledger.holds_empty (releasedBy_nil _)
  | true =>
    rw [if_neg nofun]
    have f0 := fresh_cleared k id
    refine f0.request Ledger.holds_empty (releasedBy_nil _) (.refl _) fun monitor => ?_
    have f1 := f0.acquire .monitor
    have h1 := Ledger.holds_empty.acquire Resource.monitor
    refine f1.request h1 (releasedBy .monitor _) (.refl _) fun console => ?_
    have f2 := f1.acquire .console
    have h2 := h1.acquire .console
    refine f2.request h2 (outFreeConsole_releasedBy _) (.refl _) fun lock => ?_
    have h3 := h2.acquire .connectedModulesWriteLock
    have mutex := locks magic monitor console lock
    rw [request_granted mutex]
    have h4 := h3.acquire .linuxMessageQueueMutex
    have f4 := (((f2.acquire .connectedModulesWriteLock).withLock).acquire
      .linuxMessageQueueMutex).withMutex
    refine f4.request h4 (outFreeMutex2_releasedBy rfl rfl) (by decide) fun wait => ?_
    have f5 := f4.acquire .idleWait
    have h5 := h4.acquire .idleWait
    refine f5.request h5 (outFreeWait_releasedBy rfl rfl) (by decide) fun buffer => ?_
    have h6 := h5.acquire .ioBuffer
    have f6 := (f5.acquire .ioBuffer).withBuffer host
    refine createOs_sound f6 h6 rfl rfl fun all => before ⟨magic, ?_⟩
    simp [requestsBeforeBudget, monitor, console, lock, mutex, wait, buffer, all]

/-- A call whose second mutex is refused keeps the first one. -/
theorem coMonitorCreate_lock (magic : params.magicSizeMatches = true)
    (monitor : host.grants .monitor = true) (console : host.grants .console = true)
    (lock : host.grants .connectedModulesWriteLock = true)
    (mutex : host.grants .linuxMessageQueueMutex = false) :
    ¬ SoundStep k (coMonitorCreate host params id k) := by
  intro sound
  unfold coMonitorCreate at sound
  dsimp only at sound
  rw [if_neg (by simp [magic]), request_granted monitor, request_granted console,
    request_granted lock, request_refused mutex] at sound
  have ledger : ((((Ledger.empty.acquire Resource.monitor).acquire .console).acquire
      .connectedModulesWriteLock).release .console).release .monitor = .empty :=
    (sound nofun).ledger
  exact absurd ledger (by decide)

/-! ## To the budget test -/

/-- What `co_conet_register_protocol` and the mutex before it have acquired. -/
def osHeld (host : HostAnswers) : List Resource :=
  (if host.grants .conetProtocol then
    (if host.grants .conetMutex then [.conetMutex] else []) ++ [.conetProtocol] else []) ++
    (if host.grants .osdepMutex then [.osdepMutex] else [])

/-- What is held at the budget test. -/
def baseHeld (host : HostAnswers) : List Resource :=
  osHeld host ++ .osdep :: .sharedHandle :: .shared :: frontHeld

theorem baseHeld_perm (conet : Conet host) : (baseHeld host).Perm (unwindOrder host) := by
  rw [baseHeld, osHeld, unwindOrder, conet.1, conet.2]
  cases host.grants .osdepMutex <;> decide

theorem baseHeld_blocks (host : HostAnswers) : (baseHeld host).countP (·.IsBlock) = 0 := by
  unfold baseHeld osHeld
  cases host.grants .conetProtocol <;> cases host.grants .conetMutex <;>
    cases host.grants .osdepMutex <;> rfl

theorem osdepMutexCreate_holds (held : c.monitor.ledger.Holds rs) :
    (osdepMutexCreate host c).monitor.ledger.Holds
      ((if host.grants .osdepMutex then [.osdepMutex] else []) ++ rs) := by
  unfold osdepMutexCreate
  split
  · exact held.acquire _
  · exact held

theorem coConetRegisterProtocol_holds (held : c.monitor.ledger.Holds rs) :
    (coConetRegisterProtocol host c).monitor.ledger.Holds
      ((if host.grants .conetProtocol then
        (if host.grants .conetMutex then [.conetMutex] else []) ++ [.conetProtocol] else []) ++
          rs) := by
  unfold coConetRegisterProtocol
  split
  · dsimp only
    split
    · exact (held.acquire _).acquire _
    · exact held.acquire _
  · exact held

/-- The monitor with the data of the operating system's part. -/
def withOsdep (host : HostAnswers) (c : Cmon) : Cmon :=
  coConetRegisterProtocol host (osdepMutexCreate host
    { c with monitor := { c.monitor with
      osdepMutex := .uninitialised, conetMutex := .uninitialised, conetProtocol := false
      ledger := c.monitor.ledger.acquire .osdep } })

theorem coMonitorOsInit_granted (osdep : host.grants .osdep = true) :
    coMonitorOsInit host c = (.ok, c.withOsdep host) := by
  rw [coMonitorOsInit, request_granted osdep]
  rfl

theorem coConetRegisterProtocol_pointers (lock : c.monitor.connectedModulesWriteLock = .valid)
    (mutex : c.monitor.linuxMessageQueueMutex = .valid)
    (osdepMutex : c.monitor.osdepMutex = if host.grants .osdepMutex then .valid else .null)
    (protocol : c.monitor.conetProtocol = false) (unset : c.monitor.conetMutex = .uninitialised) :
    Pointers host (coConetRegisterProtocol host c) := by
  unfold coConetRegisterProtocol
  cases granted : host.grants .conetProtocol with
  | false =>
    rw [if_neg Bool.false_ne_true]
    exact ⟨lock, mutex, osdepMutex, protocol.trans granted.symm,
      unset.trans (if_pos (by rw [granted]; exact Bool.false_ne_true)).symm⟩
  | true =>
    rw [if_pos rfl]
    dsimp only
    cases second : host.grants .conetMutex with
    | false =>
      rw [if_neg Bool.false_ne_true]
      exact ⟨lock, mutex, osdepMutex, granted.symm, by rw [granted, second]; rfl⟩
    | true =>
      rw [if_pos rfl]
      exact ⟨lock, mutex, osdepMutex, granted.symm, by rw [granted, second]; rfl⟩

theorem withOsdep_pointers (lock : c.monitor.connectedModulesWriteLock = .valid)
    (mutex : c.monitor.linuxMessageQueueMutex = .valid) : Pointers host (c.withOsdep host) := by
  unfold withOsdep osdepMutexCreate
  cases granted : host.grants .osdepMutex with
  | false =>
    rw [if_neg Bool.false_ne_true]
    exact coConetRegisterProtocol_pointers lock mutex (by rw [granted]; rfl) rfl rfl
  | true =>
    rw [if_pos rfl]
    exact coConetRegisterProtocol_pointers lock mutex (by rw [granted]; rfl) rfl rfl

/-- A call that gets to the budget test. -/
theorem createOs_atBudget (fresh : Fresh k id c) (held : c.monitor.ledger.Holds frontHeld)
    (lock : c.monitor.connectedModulesWriteLock = .valid)
    (mutex : c.monitor.linuxMessageQueueMutex = .valid) (shared : host.grants .shared = true)
    (handle : host.grants .sharedHandle = true) (osdep : host.grants .osdep = true) :
    ∃ c', Fresh k id c' ∧ Pointers host c' ∧ c'.Holds (baseHeld host) ∧
      createOs host params c = createBudget host params c' := by
  have init := @coMonitorOsInit_granted host c.withShared osdep
  have fresh' : Fresh k id (c.withShared.withOsdep host) := by
    have os := @coMonitorOsInit_fresh host k id _ fresh.withShared
    rwa [init] at os
  refine ⟨c.withShared.withOsdep host, fresh', withOsdep_pointers lock mutex, ⟨?_, ?_⟩, ?_⟩
  · have ledger := ((held.acquire .shared).acquire .sharedHandle).acquire .osdep
    rw [baseHeld, osHeld, List.append_assoc]
    exact coConetRegisterProtocol_holds (osdepMutexCreate_holds ledger)
  · rw [fresh'.blocks, ppBlocks_absent fresh'.hasPpPfns, baseHeld_blocks]
  · rw [createOs, allocSharedPage_granted shared handle, orElse, if_pos rfl, init, orElse,
      if_pos rfl]

theorem coMonitorCreate_atBudget (reach : ReachesBudget host params) :
    ∃ c, Fresh k id c ∧ Pointers host c ∧ c.Holds (baseHeld host) ∧
      coMonitorCreate host params id k = createBudget host params c := by
  obtain ⟨magic, grants⟩ := reach
  simp only [requestsBeforeBudget, List.forall_mem_cons, List.not_mem_nil, false_implies,
    implies_true, and_true] at grants
  obtain ⟨monitor, console, lock, mutex, wait, buffer, shared, handle, osdep⟩ := grants
  unfold coMonitorCreate
  dsimp only
  rw [if_neg (by simp [magic]), request_granted monitor, request_granted console,
    request_granted lock, request_granted mutex, request_granted wait, request_granted buffer]
  have f4 := ((((((fresh_cleared k id).acquire .monitor).acquire .console).acquire
    .connectedModulesWriteLock).withLock).acquire .linuxMessageQueueMutex).withMutex
  have h4 := (((Ledger.holds_empty.acquire Resource.monitor).acquire .console).acquire
    .connectedModulesWriteLock).acquire .linuxMessageQueueMutex
  exact createOs_atBudget (((f4.acquire .idleWait).acquire .ioBuffer).withBuffer host)
    ((h4.acquire .idleWait).acquire .ioBuffer) rfl rfl shared handle osdep

/-! ## The whole call -/

/-- When `co_monitor_create` gives back all that it has taken. -/
structure CreateUndoes (host : HostAnswers) (params : CreateParams) (k : Kernel) : Prop where
  locks : LocksUndo host params
  tail : ReachesBudget host params → TailUndoes host params k

/-- A call that fails leaves nothing behind if and only if it does not come to one of the steps
whose label forgets something. -/
theorem createSound_iff (host : HostAnswers) (params : CreateParams) (id : Nat) (k : Kernel)
    (used : k.hostmemUsed < wordSize) :
    CreateSound host params id k ↔ CreateUndoes host params k := by
  by_cases reach : ReachesBudget host params
  · obtain ⟨c, fresh, pointers, held, run⟩ :=
      @coMonitorCreate_atBudget host k params id reach
    have books : (createBudget host params c).1 ≠ .ok →
        (createBudget host params c).2.kernel.books = k.books := by
      intro failed
      rcases coMonitorCreate_cases host params id used with cases | cases
      · rw [run] at cases
        exact cases.2
      · rw [run] at cases
        exact absurd cases.1 failed
    have tail := createBudget_sound_iff fresh pointers held baseHeld_perm books
    rw [CreateSound, run]
    refine tail.trans ⟨fun undoes => ⟨fun _ _ _ _ => ?_, fun _ => undoes⟩, fun all => ?_⟩
    swap
    · exact all.tail reach
    exact reach.2 _ (by decide)
  · refine ⟨fun sound => ⟨fun magic monitor console lock => ?_, fun all => absurd all reach⟩,
      fun all => coMonitorCreate_before all.locks reach⟩
    rw [← Bool.not_eq_false]
    exact fun mutex => coMonitorCreate_lock magic monitor console lock mutex sound

/-- A monitor with two block devices. -/
def diskParams : CreateParams :=
  { plainParams 16 with config :=
    { ramSize := 16, enabled := fun kind unit => kind = .block ∧ unit < 2 } }

/-- A host that grants all but the memory of the second one. -/
def secondDiskRefused : HostAnswers :=
  { grantsAll with grants := fun r => r ≠ .device .block 1 }

/-- The page tables and the first block device are given back. -/
theorem createSound_iff_secondDisk :
    (coMonitorCreate secondDiskRefused diskParams 0 smallHost).1 = .outOfMemory ∧
      CreateSound secondDiskRefused diskParams 0 smallHost := by
  refine ⟨by decide +kernel, ?_⟩
  refine (createSound_iff secondDiskRefused diskParams 0 smallHost (by decide)).mpr ⟨?_, ?_⟩
  · exact fun _ _ _ _ => rfl
  · intro _
    refine ⟨fun _ => ⟨rfl, rfl⟩, fun _ q high => ?_, fun _ _ => by decide, fun _ _ => by decide⟩
    have granted : ramOutcome diskParams smallHost = .granted := by decide +kernel
    rw [granted] at high
    cases high

/-- A host that grants all but the second mutex. -/
def secondMutexRefused : HostAnswers :=
  { grantsAll with grants := fun r => r ≠ .linuxMessageQueueMutex }

/-- The first mutex is left behind. -/
theorem createSound_secondMutex : ¬ CreateSound secondMutexRefused (plainParams 16) 0 smallHost :=
  coMonitorCreate_lock rfl rfl rfl rfl rfl

end Cmon

end CoLinux
