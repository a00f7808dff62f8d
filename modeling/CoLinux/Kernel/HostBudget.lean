import CoLinux.Kernel.Proofs.MonitorReset
import CoLinux.Lib.Run
import Mathlib.Data.List.Perm.Basic

/-!
# The host memory budget

The manager counts the bytes of its monitors' memory and admits a new monitor when the sum stays
within a limit. The sum is a 32 bit sum that is compared after it was taken, so a monitor whose
memory takes the sum over 4 GB is admitted when what is left of it is within the limit. As long
as no monitor is admitted that way the count is the sum of the sizes.
-/

namespace CoLinux

open Lib
open Cmon (grantsAll plainParams)

/-! ## The driver -/

/-- `set_hostmem_usage_limit`, in bytes. -/
def setHostmemUsageLimit (hostmemAmount : Nat) : Nat :=
  (if 256 ≤ hostmemAmount then hostmemAmount - 64 else hostmemAmount * 3 % wordSize / 4) <<< 20 %
    wordSize

/-- The part of `co_manager_load` about the host's memory. -/
def coManagerLoad (hostmemPages : Nat) (k : Kernel) : Step Kernel :=
  let hostmemAmount := hostmemPages >>> (20 - coArchPageShift)
  let k := { k with
    manager := { k.manager with hostmemPages := hostmemPages }
    hostmemAmount := hostmemAmount
    hostmemUsed := 0
    monitorsCount := 0
    monitors := [] }
  if 0x100000 < hostmemPages then (.error, k)
  else (.ok, { k with hostmemUsageLimit := setHostmemUsageLimit hostmemAmount })

/-- The driver with the monitors that have not been destroyed. -/
structure Driver where
  kernel : Kernel
  live : List Monitor

inductive DriverEvent where
  | create (host : HostAnswers) (params : CreateParams) (id : Nat)
  | reset (host : HostAnswers) (i : Nat)
  /-- One more reference to a monitor. -/
  | attach (i : Nat)
  | refdown (monitorOwner : Bool) (i : Nat)

namespace Driver

/-- The kernel and the `i`th monitor after a request, unless the monitor was destroyed. -/
def update (s : Driver) (i : Nat) (c : Cmon) : Driver :=
  if c.monitor.refcount = 0 then ⟨c.kernel, s.live.eraseIdx i⟩
  else ⟨c.kernel, s.live.set i c.monitor⟩

/-- A request to the `i`th monitor. -/
def request (s : Driver) (i : Nat) (f : Cmon → Cmon) : Driver :=
  match s.live[i]? with
  | none => s
  | some m => s.update i (f ⟨s.kernel, m⟩)

def create (host : HostAnswers) (params : CreateParams) (id : Nat) (s : Driver) : Driver :=
  let r := Cmon.coMonitorCreate host params id s.kernel
  if r.1 = .ok then ⟨r.2.kernel, r.2.monitor :: s.live⟩ else ⟨r.2.kernel, s.live⟩

def step : DriverEvent → Driver → Driver
  | .create host params id, s => s.create host params id
  | .reset host i, s => s.request i fun c => (c.coMonitorUserReset host).2
  | .attach i, s => s.request i fun c => c.setRefcount (c.monitor.refcount + 1)
  | .refdown monitorOwner i, s => s.request i fun c => (c.coMonitorRefdown monitorOwner).2

/-- The memory of the live monitors. -/
def memoryInUse (s : Driver) : Nat := (s.live.map (·.guest.memorySize)).sum

/-- The manager counts the memory of its monitors, and it is within the limit. -/
def BudgetKept (s : Driver) : Prop :=
  s.kernel.hostmemUsed = s.memoryInUse ∧ s.memoryInUse ≤ s.kernel.hostmemUsageLimit

/-- The budget test lets a monitor in because the sum passes 4 GB. -/
def AdmitsWrapped (s : Driver) : DriverEvent → Prop
  | .create host params _ => Cmon.ReachesBudget host params ∧
      wordSize ≤ s.kernel.hostmemUsed + Cmon.createMemorySize params s.kernel ∧
      ¬ Cmon.OverBudget s.kernel (Cmon.createMemorySize params s.kernel)
  | _ => False

instance (s : Driver) (e : DriverEvent) : Decidable (s.AdmitsWrapped e) := by
  cases e <;> unfold AdmitsWrapped <;> infer_instance

/-! ## The invariant -/

/-- What holds between two requests. -/
structure BudgetInv (s : Driver) : Prop where
  used : s.kernel.hostmemUsed = s.memoryInUse
  limit : s.memoryInUse ≤ s.kernel.hostmemUsageLimit
  word : s.kernel.hostmemUsageLimit < wordSize
  live : ∀ m ∈ s.live, m.refcount ≠ 0 ∧ Cmon.GuestOk ⟨s.kernel, m⟩

theorem BudgetInv.kept {s : Driver} (inv : BudgetInv s) : BudgetKept s := ⟨inv.used, inv.limit⟩

theorem BudgetInv.used_lt {s : Driver} (inv : BudgetInv s) : s.kernel.hostmemUsed < wordSize := by
  have := inv.used
  have := inv.limit
  have := inv.word
  omega

/-- A monitor and the others make up the sum. -/
theorem memoryInUse_eraseIdx {l : List Monitor} {i : Nat} {m : Monitor} (h : l[i]? = some m) :
    m.guest.memorySize + ((l.eraseIdx i).map (·.guest.memorySize)).sum =
      (l.map (·.guest.memorySize)).sum := by
  obtain ⟨hi, rfl⟩ := List.getElem?_eq_some_iff.mp h
  exact ((List.getElem_cons_eraseIdx_perm hi).map (·.guest.memorySize)).sum_nat

theorem memoryInUse_set {l : List Monitor} {i : Nat} {m m' : Monitor} (h : l[i]? = some m)
    (same : m'.guest.memorySize = m.guest.memorySize) :
    ((l.set i m').map (·.guest.memorySize)).sum = (l.map (·.guest.memorySize)).sum := by
  obtain ⟨hi, rfl⟩ := List.getElem?_eq_some_iff.mp h
  have own : (l.map (·.guest.memorySize))[i]? = some m'.guest.memorySize := by
    rw [List.getElem?_map, List.getElem?_eq_getElem hi, same]
    rfl
  obtain ⟨hi', own⟩ := List.getElem?_eq_some_iff.mp own
  rw [List.map_set, ← own, List.set_getElem_self]

/-- A request that keeps a monitor alive and its size. -/
theorem update_inv {s : Driver} (inv : BudgetInv s) {i : Nat} {m : Monitor}
    (h : s.live[i]? = some m) {c : Cmon} (refcount : c.monitor.refcount ≠ 0)
    (used : c.kernel.hostmemUsed = s.kernel.hostmemUsed)
    (limit : c.kernel.hostmemUsageLimit = s.kernel.hostmemUsageLimit)
    (size : c.monitor.guest.memorySize = m.guest.memorySize) (ok : c.GuestOk) :
    BudgetInv (s.update i c) := by
  rw [update, if_neg refcount]
  have sum := memoryInUse_set h size
  constructor
  · exact used.trans (inv.used.trans sum.symm)
  · exact Nat.le_trans (Nat.le_of_eq sum) (Nat.le_trans inv.limit (Nat.le_of_eq limit.symm))
  · exact limit ▸ inv.word
  · intro m' hm'
    obtain old | rfl := List.mem_or_eq_of_mem_set hm'
    · exact ⟨(inv.live m' old).1, (inv.live m' old).2.of_guest rfl⟩
    · exact ⟨refcount, ok⟩

/-- The destruction of a monitor. -/
theorem update_destroyed {s : Driver} (inv : BudgetInv s) {i : Nat} {m : Monitor}
    (h : s.live[i]? = some m) {c : Cmon} (refcount : c.monitor.refcount = 0)
    (used : c.kernel.hostmemUsed =
      (s.kernel.hostmemUsed + wordSize - m.guest.memorySize) % wordSize)
    (limit : c.kernel.hostmemUsageLimit = s.kernel.hostmemUsageLimit) :
    BudgetInv (s.update i c) := by
  rw [update, if_pos refcount]
  have sum := memoryInUse_eraseIdx h
  have total := inv.used
  have within := inv.limit
  have word := inv.word
  unfold memoryInUse at total within
  have left : (s.kernel.hostmemUsed + wordSize - m.guest.memorySize) % wordSize =
      ((s.live.eraseIdx i).map (·.guest.memorySize)).sum := by
    simp only [wordSize] at word ⊢
    omega
  constructor
  · exact used.trans left
  · show ((s.live.eraseIdx i).map (·.guest.memorySize)).sum ≤ c.kernel.hostmemUsageLimit
    omega
  · exact limit ▸ inv.word
  · intro m' hm'
    have old := inv.live m' (List.mem_of_mem_eraseIdx hm')
    exact ⟨old.1, old.2.of_guest rfl⟩

theorem create_inv {s : Driver} (inv : BudgetInv s) {host : HostAnswers} {params : CreateParams}
    {id : Nat} (allowed : ¬ s.AdmitsWrapped (.create host params id)) :
    BudgetInv (s.create host params id) := by
  obtain ⟨failed, books⟩ | ⟨ok, created⟩ :=
    Cmon.coMonitorCreate_cases host params id inv.used_lt
  · rw [create, if_neg failed]
    have used : (Cmon.coMonitorCreate host params id s.kernel).2.kernel.hostmemUsed =
      s.kernel.hostmemUsed := congrArg Books.hostmemUsed books
    have limit : (Cmon.coMonitorCreate host params id s.kernel).2.kernel.hostmemUsageLimit =
      s.kernel.hostmemUsageLimit := congrArg Books.hostmemUsageLimit books
    refine ⟨used.trans inv.used, Nat.le_trans inv.limit (Nat.le_of_eq limit.symm),
      Nat.lt_of_le_of_lt (Nat.le_of_eq limit) inv.word, fun m hm => ?_⟩
    exact ⟨(inv.live m hm).1, (inv.live m hm).2.of_guest rfl⟩
  · rw [create, if_pos ok]
    have reach := Cmon.reachesBudget_of_ok ok
    have budget := created.budget
    have noWrap : s.kernel.hostmemUsed + Cmon.createMemorySize params s.kernel < wordSize := by
      by_contra wraps
      exact allowed ⟨reach, Nat.le_of_not_lt wraps, budget⟩
    have within : s.kernel.hostmemUsed + Cmon.createMemorySize params s.kernel ≤
        s.kernel.hostmemUsageLimit := by
      rw [Cmon.OverBudget, Nat.mod_eq_of_lt noWrap] at budget
      exact Nat.le_of_not_lt budget
    generalize Cmon.coMonitorCreate host params id s.kernel = r at created
    have limit : r.2.kernel.hostmemUsageLimit = s.kernel.hostmemUsageLimit :=
      congrArg Books.hostmemUsageLimit created.books
    have used : r.2.kernel.hostmemUsed = _ := congrArg Books.hostmemUsed created.books
    rw [withMonitor_hostmemUsed, books_hostmemUsed, Nat.mod_eq_of_lt noWrap] at used
    have sum : memoryInUse ⟨r.2.kernel, r.2.monitor :: s.live⟩ =
        Cmon.createMemorySize params s.kernel + s.memoryInUse := by
      rw [memoryInUse, List.map_cons, List.sum_cons, created.memorySize]
      rfl
    have total := inv.used
    refine ⟨?_, ?_, Nat.lt_of_le_of_lt (Nat.le_of_eq limit) inv.word, fun m hm => ?_⟩
    · rw [sum]
      show r.2.kernel.hostmemUsed = _
      omega
    · rw [sum]
      show _ ≤ r.2.kernel.hostmemUsageLimit
      omega
    · obtain rfl | old := List.mem_cons.mp hm
      · refine ⟨by simp [created.refcount], ?_, fun none => ?_⟩
        · exact Nat.le_trans (Nat.le_of_eq created.memorySize)
            (Cmon.createMemorySize_bounds params s.kernel).2
        · exact absurd (none.symm.trans created.hasPpPfns) (by simp)
      · exact ⟨(inv.live m old).1, (inv.live m old).2.of_guest rfl⟩

/-- A request to a monitor that is there. -/
theorem request_inv {s : Driver} (inv : BudgetInv s) {i : Nat} {f : Cmon → Cmon}
    (step : ∀ m, s.live[i]? = some m → BudgetInv (s.update i (f ⟨s.kernel, m⟩))) :
    BudgetInv (s.request i f) := by
  unfold request
  cases h : s.live[i]? with
  | none => exact inv
  | some m => exact step m h

/-- One request keeps the invariant, unless it is let in by a sum that passes 4 GB. -/
theorem step_inv {s : Driver} {e : DriverEvent} (inv : BudgetInv s)
    (allowed : ¬ s.AdmitsWrapped e) : BudgetInv (step e s) := by
  cases e with
  | create host params id => exact create_inv inv allowed
  | reset host i =>
    rw [step]
    refine request_inv inv fun m h => ?_
    obtain ⟨live, ok⟩ := inv.live m (List.mem_of_getElem? h)
    have done := Cmon.coMonitorUserReset_done host ok
    have refcount := done.keeps.refcount.trans_ne live
    exact update_inv inv h refcount done.keeps.hostmemUsed done.keeps.hostmemUsageLimit
      done.keeps.memorySize (done.guestOk ok)
  | attach i =>
    rw [step]
    refine request_inv inv fun m h => ?_
    obtain ⟨-, ok⟩ := inv.live m (List.mem_of_getElem? h)
    exact update_inv inv h (Nat.succ_ne_zero _) rfl rfl rfl (ok.of_guest rfl)
  | refdown monitorOwner i =>
    rw [step]
    refine request_inv inv fun m h => ?_
    obtain ⟨live, ok⟩ := inv.live m (List.mem_of_getElem? h)
    obtain ⟨-, limit, ⟨dead, used⟩ | ⟨alive, keeps⟩⟩ :=
      Cmon.coMonitorRefdown_cases monitorOwner (c := ⟨s.kernel, m⟩) live
    · exact update_destroyed inv h dead used limit
    · exact update_inv inv h alive keeps.hostmemUsed limit
        (congrArg CoMonitor.memorySize keeps.guest) (ok.of_guest keeps.guest)

theorem coManagerLoad_ok {hostmemPages : Nat} (few : hostmemPages ≤ 0x100000) (k : Kernel) :
    coManagerLoad hostmemPages k = (.ok, (coManagerLoad hostmemPages k).2) :=
  Step.eq_of_ok (by rw [coManagerLoad, if_neg (Nat.not_lt.mpr few)])

theorem coManagerLoad_inv {hostmemPages : Nat} {k k0 : Kernel}
    (loaded : coManagerLoad hostmemPages k = (.ok, k0)) : BudgetInv ⟨k0, []⟩ := by
  unfold coManagerLoad at loaded
  split at loaded
  · simp at loaded
  · obtain rfl := (Prod.mk.inj loaded).2
    exact ⟨rfl, Nat.zero_le _, Nat.mod_lt _ (by decide), by simp⟩

/-- From a loaded driver, and as long as no monitor is let in by a sum that passes 4 GB, the
manager counts the memory of its monitors, and it is within the limit. -/
theorem hostmemUsed_accounted {hostmemPages : Nat} {k k0 : Kernel}
    (loaded : coManagerLoad hostmemPages k = (.ok, k0)) {es : List DriverEvent}
    (allowed : RunOk step (fun s e => ¬ s.AdmitsWrapped e) es ⟨k0, []⟩) :
    BudgetKept (run step es ⟨k0, []⟩) :=
  (run_invariant (fun _ _ inv allowed => step_inv inv allowed) (coManagerLoad_inv loaded)
    allowed).kept

/-! ## A host with 4 GB -/

/-- A driver that has not been loaded, on a host with enough of everything. -/
def bigHost : Kernel where
  mem := fun _ => 0
  host :=
    { out := []
      answers := (List.range' 1 1024).map some
      mallocs := List.replicate 10 true }
  manager :=
    { hostmemPages := 0
      reversedMapPfns := fun _ => 0
      reversedPageCount := 0
      reversedMapPgds := fun _ => 0
      reversedMapPgdsCount := 0 }
  hostmemAmount := 0
  hostmemUsed := 0
  hostmemUsageLimit := 0
  monitorsCount := 0
  monitors := []

/-- A monitor of 8 MB, a second reference to it, a reset, and both references dropped. -/
def oneMonitorLife : List DriverEvent :=
  [.create grantsAll (plainParams 8) 1, .attach 0, .reset grantsAll 0, .refdown true 0,
    .refdown false 0]

theorem oneMonitorLife_allowed : RunOk step (fun s e => ¬ s.AdmitsWrapped e) oneMonitorLife
    ⟨(coManagerLoad 0x100000 bigHost).2, []⟩ := by
  decide +kernel

theorem hostmemUsed_accounted_oneMonitor :
    BudgetKept (run step oneMonitorLife ⟨(coManagerLoad 0x100000 bigHost).2, []⟩) :=
  hostmemUsed_accounted (coManagerLoad_ok (by decide) bigHost) oneMonitorLife_allowed

/-- The sums of a driver with 4032 MB to give, and what its host still has. -/
structure Stocked (used total frames monitors : Nat) (s : Driver) : Prop where
  used : s.kernel.hostmemUsed = used
  total : s.memoryInUse = total
  limit : s.kernel.hostmemUsageLimit = 4032 * 1048576
  generous : Cmon.Generous frames monitors s.kernel

theorem createMemorySize_plain {mb : Nat} (least : 8 ≤ mb) (most : mb ≤ 984) (k : Kernel) :
    Cmon.createMemorySize (plainParams mb) k = mb * 1048576 := by
  have configured : Cmon.configuredMemory mb k.hostmemAmount = mb := if_neg (by omega)
  rw [Cmon.createMemorySize, plainParams, configured]
  unfold adjustedMemorySize
  rw [if_neg (by omega), if_neg (by omega), Nat.shiftLeft_eq]

/-- A monitor that is let in. -/
theorem Stocked.create {used total room monitors : Nat} {s : Driver}
    (h : Stocked used total room (monitors + 1) s) (mb frames id : Nat)
    (enough : room = frames + pageTables (mb * 1048576)) (least : 8 ≤ mb) (most : mb ≤ 984)
    (word : used < wordSize) (budget : (used + mb * 1048576) % wordSize ≤ 4032 * 1048576) :
    Stocked ((used + mb * 1048576) % wordSize) (mb * 1048576 + total) frames monitors
      (step (.create grantsAll (plainParams mb) id) s) := by
  have size := createMemorySize_plain least most s.kernel
  have under : ¬ Cmon.OverBudget s.kernel (Cmon.createMemorySize (plainParams mb) s.kernel) := by
    rw [Cmon.OverBudget, h.used, h.limit, size]
    exact Nat.not_lt.mpr budget
  obtain ⟨ok, generous⟩ := @Cmon.coMonitorCreate_plain grantsAll s.kernel id (plainParams mb)
    frames monitors ⟨rfl, fun _ _ => rfl⟩ (fun _ _ => rfl) rfl under
    (by rw [size, ← enough]; exact h.generous)
  obtain ⟨failed, -⟩ | ⟨-, created⟩ := Cmon.coMonitorCreate_cases grantsAll (plainParams mb) id
    (k := s.kernel) (by rw [h.used]; exact word)
  · exact absurd ok failed
  rw [step, Driver.create, if_pos ok]
  generalize Cmon.coMonitorCreate grantsAll (plainParams mb) id s.kernel = r at generous created
  have usedNow : r.2.kernel.hostmemUsed = _ := congrArg Books.hostmemUsed created.books
  rw [withMonitor_hostmemUsed, books_hostmemUsed, h.used, size] at usedNow
  refine ⟨usedNow, ?_, ?_, generous⟩
  · rw [memoryInUse, List.map_cons, List.sum_cons, created.memorySize, size, ← h.total]
    rfl
  · exact (congrArg Books.hostmemUsageLimit created.books).trans h.limit

/-- Four monitors of 984 MB and one of 160 MB. -/
def fiveMonitors : List DriverEvent :=
  [.create grantsAll (plainParams 984) 1, .create grantsAll (plainParams 984) 2,
    .create grantsAll (plainParams 984) 3, .create grantsAll (plainParams 984) 4,
    .create grantsAll (plainParams 160) 5]

theorem bigHost_frames :
    Cmon.frameRequests 1024 (coManagerLoad 0x100000 bigHost).2 = .granted := by
  have fresh : ∀ p ∈ List.range' 1 1024, p ≠ 0 ∧ p < 0x100000 ∧ p ∉ ([] : List Nat) := by
    intro p hp
    have := List.mem_range'_1.mp hp
    simp only [List.not_mem_nil, not_false_eq_true, and_true]
    omega
  have granted := @frameRequests_granted 0x100000 (List.range' 1 1024) [] [] fresh
    List.nodup_range'
  rw [List.length_range', List.append_nil] at granted
  exact granted

/-- With 4 GB of monitors on a host of 4 GB the manager counts nothing. -/
theorem fiveMonitors_overBudget :
    ¬ BudgetKept (run step fiveMonitors ⟨(coManagerLoad 0x100000 bigHost).2, []⟩) := by
  have start : Stocked 0 0 1024 5 ⟨(coManagerLoad 0x100000 bigHost).2, []⟩ :=
    ⟨rfl, rfl, by decide, bigHost_frames, rfl⟩
  have one := start.create 984 778 1 (by decide) (by decide) (by decide) (by decide) (by decide)
  have two := one.create 984 532 2 (by decide) (by decide) (by decide) (by decide) (by decide)
  have three := two.create 984 286 3 (by decide) (by decide) (by decide) (by decide) (by decide)
  have four := three.create 984 40 4 (by decide) (by decide) (by decide) (by decide) (by decide)
  have five := four.create 160 0 5 (by decide) (by decide) (by decide) (by decide) (by decide)
  rw [fiveMonitors, run_cons, run_cons, run_cons, run_cons, run_cons, run_nil]
  rintro ⟨counted, -⟩
  have wrapped := five.used.symm.trans (counted.trans five.total)
  revert wrapped
  decide

end Driver

end CoLinux
