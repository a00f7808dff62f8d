import CoLinux.Kernel.Proofs.PageOps
import CoLinux.Kernel.Proofs.PpBlocks

/-!
# How the allocation of the page tables comes out

Whether `alloc_pp_ram_mapping` succeeds, and what it keeps of the host's frames when it fails, is
read off the host's next answers: it needs two blocks, and one frame for each page table. A frame
above the host's memory makes it fail, and that frame is not given back.
-/

namespace CoLinux

open Lib

/-! ## The host's answers -/

/-- How a number of requests for frames comes out. -/
inductive FrameOutcome where
  | granted
  | refused
  /-- A frame above the host's memory. -/
  | tooHigh (pfn : Nat)
  deriving DecidableEq, Repr

def frameRequests (hostmemPages : Nat) : Nat → List (Option Nat) → List Nat → FrameOutcome
  | 0, _, _ => .granted
  | _ + 1, [], _ => .refused
  | _ + 1, none :: _, _ => .refused
  | n + 1, some pfn :: rest, out =>
    if pfn = 0 ∨ pfn ∈ out then .refused
    else if hostmemPages ≤ pfn then .tooHigh pfn
    else frameRequests hostmemPages n rest (pfn :: out)

def World.frameRequests (n : Nat) (w : World) : FrameOutcome :=
  CoLinux.frameRequests w.manager.hostmemPages n w.host.answers w.host.out

variable {w : World}

/-- A frame that is granted is the first of the ones that were asked for. -/
theorem coManagerGetPage_granted_outcome {w' : World} {pfn : Nat}
    (h : coManagerGetPage w = (.ok pfn, w')) (n : Nat) :
    w.frameRequests (n + 1) = w'.frameRequests n := by
  obtain ⟨rest, answers, ne, fresh, low, rfl⟩ := coManagerGetPage_ok h
  simp only [World.frameRequests, answers, CoLinux.frameRequests, ne, fresh, or_self, if_false,
    Nat.not_le.mpr low]
  rfl

/-- A request that fails settles the outcome. -/
theorem coManagerGetPage_failed_outcome {w' : World} {rc : CoRc}
    (h : coManagerGetPage w = (.error rc, w')) (n : Nat) :
    w.frameRequests (n + 1) = .refused ∧ w'.host.out = w.host.out ∨
      ∃ pfn, w.frameRequests (n + 1) = .tooHigh pfn ∧ w'.host.out = pfn :: w.host.out ∧
        pfn ∉ w.host.out := by
  unfold coManagerGetPage coOsGetPage at h
  unfold World.frameRequests
  cases answers : w.host.answers with
  | nil =>
    simp only [answers, Prod.mk.injEq] at h
    exact .inl ⟨rfl, by rw [← h.2]⟩
  | cons a rest =>
    cases a with
    | none =>
      simp only [answers, Prod.mk.injEq] at h
      exact .inl ⟨rfl, by rw [← h.2]; rfl⟩
    | some p =>
      simp only [answers] at h
      simp only [CoLinux.frameRequests]
      by_cases stale : p = 0 ∨ p ∈ w.host.out
      · simp only [if_pos stale, Prod.mk.injEq] at h
        exact .inl ⟨if_pos stale, by rw [← h.2]; rfl⟩
      · by_cases high : w.manager.hostmemPages ≤ p
        · simp only [stale, if_false, setHost_manager, high, if_true, Prod.mk.injEq] at h
          refine .inr ⟨p, ?_, by rw [← h.2]; rfl, fun hp => stale (.inr hp)⟩
          rw [if_neg stale, if_pos high]
        · simp [stale, high] at h

/-- A list of fresh frames is granted. -/
theorem frameRequests_granted {hostmemPages : Nat} {frames out : List Nat}
    {rest : List (Option Nat)} (fresh : ∀ p ∈ frames, p ≠ 0 ∧ p < hostmemPages ∧ p ∉ out)
    (distinct : frames.Nodup) :
    frameRequests hostmemPages frames.length (frames.map some ++ rest) out = .granted := by
  induction frames generalizing out with
  | nil => rfl
  | cons p frames ih =>
    obtain ⟨ne, low, unused⟩ := fresh p List.mem_cons_self
    obtain ⟨new, distinct⟩ := List.nodup_cons.mp distinct
    simp only [List.length_cons, List.map_cons, List.cons_append, frameRequests, ne, unused,
      or_self, if_false, Nat.not_le.mpr low]
    refine ih (fun q hq => ?_) distinct
    obtain ⟨ne, low, unused⟩ := fresh q (List.mem_cons_of_mem _ hq)
    exact ⟨ne, low, List.not_mem_cons_of_ne_of_not_mem (fun same => new (same ▸ hq)) unused⟩

/-- Requests that are all granted are granted up to any point. -/
theorem frameRequests_granted_of_more {hostmemPages n m : Nat} {answers : List (Option Nat)}
    {out : List Nat} (h : frameRequests hostmemPages (m + n) answers out = .granted) :
    frameRequests hostmemPages n answers out = .granted := by
  induction n generalizing answers out with
  | zero => rfl
  | succ n ih =>
    rw [← Nat.add_assoc] at h
    match answers with
    | [] | none :: _ => simp [frameRequests] at h
    | some p :: rest =>
      simp only [frameRequests] at h ⊢
      by_cases stale : p = 0 ∨ p ∈ out
      · simp [stale] at h
      rw [if_neg stale] at h ⊢
      by_cases high : hostmemPages ≤ p
      · simp [high] at h
      · rw [if_neg high] at h ⊢
        exact ih h

/-- The frame that is too high was not out before. -/
theorem frameRequests_tooHigh {hostmemPages n q : Nat} {answers : List (Option Nat)}
    {out : List Nat} (h : frameRequests hostmemPages n answers out = .tooHigh q) :
    hostmemPages ≤ q ∧ q ∉ out := by
  induction n generalizing answers out with
  | zero => simp [frameRequests] at h
  | succ n ih =>
    match answers with
    | [] | none :: _ => simp [frameRequests] at h
    | some p :: rest =>
      simp only [frameRequests] at h
      by_cases stale : p = 0 ∨ p ∈ out
      · simp [stale] at h
      rw [if_neg stale] at h
      by_cases high : hostmemPages ≤ p
      · rw [if_pos high, FrameOutcome.tooHigh.injEq] at h
        exact ⟨h ▸ high, fun used => stale (.inr (h ▸ used))⟩
      · rw [if_neg high] at h
        obtain ⟨high', fresh⟩ := ih h
        exact ⟨high', fun used => fresh (List.mem_cons_of_mem _ used)⟩

/-! ## One page of the scan -/

/-- The group of `pp_pfns` with the page tables of pseudo physical RAM. -/
abbrev ppPagetablesGroup : Nat := coVptrPseudoRamPageTables / coArchPmdSize

/-- The group is there, or the host grants it. -/
def World.GroupGranted (w : World) : Prop :=
  (w.monitor.ppPfns ppPagetablesGroup).isSome = true ∨ w.host.mallocs.head? = some true

instance (w : World) : Decidable w.GroupGranted := inferInstanceAs (Decidable (_ ∨ _))

/-- How `n` more pages of the scan come out. -/
def World.scanOutcome (n : Nat) (w : World) : FrameOutcome :=
  if n = 0 ∨ w.GroupGranted then w.frameRequests n else .refused

/-- A frame is recorded for a guest page. -/
def World.Records (w : World) (q : Nat) : Prop := q ≠ 0 ∧ ∃ n < 2 ^ 20, w.ppPfn n = q

/-- The frames in `out` and the recorded ones, which are others, are all that are out. -/
structure OwnFrames (out : List Nat) (w : World) : Prop where
  mem_out : ∀ q, q ∈ w.host.out ↔ q ∈ out ∨ w.Records q
  apart : ∀ q, w.Records q → q ∉ out

/-- The scan at page `o / 4096`, when the next `k` requests for frames come out as `outcome`.
`blocks` is what will be left of the host's answers to requests for blocks. -/
structure ScanAt (out : List Nat) (outcome : FrameOutcome) (blocks : List Bool) (k o : Nat)
    (w : World) : Prop where
  settled : w.scanOutcome k = outcome
  unrecorded : ∀ n, o / 4096 ≤ n → w.ppPfn n = 0
  own : OwnFrames out w
  blocks : (if (w.monitor.ppPfns ppPagetablesGroup).isSome then w.host.mallocs
    else w.host.mallocs.tail) = blocks
  group : coVptrPseudoRamPageTables < o → (w.monitor.ppPfns ppPagetablesGroup).isSome

/-- The scan has failed. -/
structure ScanFailed (out : List Nat) (outcome : FrameOutcome) (w : World) : Prop where
  settled : outcome ≠ .granted
  apart : ∀ q, w.Records q → q ∉ out
  mem_out : ∀ q, q ∈ w.host.out ↔ (q ∈ out ∨ w.Records q) ∨ outcome = .tooHigh q
  fresh : ∀ q, outcome = .tooHigh q → q ∉ out ∧ ¬ w.Records q

theorem allocPpGroup_granted_iff (w : World) :
    if w.GroupGranted then
      (allocPpGroup .error ppPagetablesGroup w).1 = .ok ∧
      (allocPpGroup .error ppPagetablesGroup w).2.host.mallocs =
        if (w.monitor.ppPfns ppPagetablesGroup).isSome then w.host.mallocs
        else w.host.mallocs.tail
    else (allocPpGroup .error ppPagetablesGroup w).1 ≠ .ok := by
  by_cases present : (w.monitor.ppPfns ppPagetablesGroup).isSome
  · simp [World.GroupGranted, allocPpGroup, present]
  · cases h : w.host.mallocs with
    | nil => simp [World.GroupGranted, allocPpGroup, coMonitorMalloc, coOsMalloc, present, h]
    | cons granted rest =>
      cases granted <;> simp [World.GroupGranted, allocPpGroup, coMonitorMalloc, coOsMalloc,
        present, h, World.setHost, World.setPpGroup]

/-- A new frame for a page that had none. -/
theorem OwnFrames.record {out : List Nat} (own : OwnFrames out w) {w' : World} {page pfn : Nat}
    (low : page < 2 ^ 20) (unrecorded : w.ppPfn page = 0) (ne : pfn ≠ 0) (fresh : pfn ∉ w.host.out)
    (taken : w'.host.out = pfn :: w.host.out)
    (recorded : ∀ n, w'.ppPfn n = if n = page then pfn else w.ppPfn n) : OwnFrames out w' := by
  have records (q : Nat) : w'.Records q ↔ q = pfn ∨ w.Records q := by
    constructor
    · rintro ⟨hq, n, hn, rfl⟩
      rw [recorded] at hq ⊢
      by_cases same : n = page
      · exact .inl (if_pos same)
      · rw [if_neg same] at hq ⊢
        exact .inr ⟨hq, n, hn, rfl⟩
    · rintro (rfl | ⟨hq, n, hn, rfl⟩)
      · exact ⟨ne, page, low, by rw [recorded, if_pos rfl]⟩
      · refine ⟨hq, n, hn, ?_⟩
        rw [recorded, if_neg]
        rintro rfl
        exact hq unrecorded
  constructor
  · intro q
    rw [taken, List.mem_cons, own.mem_out, records]
    exact or_left_comm
  · intro q hq
    obtain rfl | hq := (records q).mp hq
    · exact fun used => fresh ((own.mem_out q).mpr (.inl used))
    · exact own.apart q hq

/-- The states of the scan are about the frames and the host's answers only. -/
theorem OwnFrames.congr {out : List Nat} (own : OwnFrames out w) {w' : World}
    (taken : w'.host.out = w.host.out) (recorded : ∀ n, w'.ppPfn n = w.ppPfn n) :
    OwnFrames out w' := by
  have records (q : Nat) : w'.Records q ↔ w.Records q := by simp only [World.Records, recorded]
  exact ⟨fun q => by rw [taken, records]; exact own.mem_out q,
    fun q hq => own.apart q ((records q).mp hq)⟩

/-- A request for a frame that fails ends the scan. -/
theorem ScanFailed.of_failed {out : List Nat} {outcome : FrameOutcome} (own : OwnFrames out w)
    {k : Nat} (settled : w.frameRequests (k + 1) = outcome) {rc : CoRc} {host : Host}
    (asked : coManagerGetPage w = (.error rc, w.setHost host)) :
    ScanFailed out outcome (w.setHost host) := by
  have records (q : Nat) : (w.setHost host).Records q ↔ w.Records q := Iff.rfl
  obtain ⟨refused, taken⟩ | ⟨pfn, high, taken, fresh⟩ := coManagerGetPage_failed_outcome asked k
  · rw [settled] at refused
    refine ⟨by simp [refused], own.apart, fun q => ?_, fun q h => by simp [refused] at h⟩
    rw [taken, own.mem_out, records]
    simp [refused]
  · rw [settled] at high
    refine ⟨by simp [high], own.apart, fun q => ?_, fun q h => ?_⟩
    · rw [taken, List.mem_cons, own.mem_out, records, high, FrameOutcome.tooHigh.injEq, or_comm,
        eq_comm]
    · rw [high, FrameOutcome.tooHigh.injEq] at h
      rw [← h]
      exact ⟨fun used => fresh ((own.mem_out _).mpr (.inl used)),
        fun used => fresh ((own.mem_out _).mpr (.inr used))⟩

theorem scanPfnsSplitCallback_outcome {out : List Nat} {outcome : FrameOutcome}
    {blocks : List Bool} {k o pos : Nat} (n : Nat)
    (at' : ScanAt out outcome blocks (k + 1) o w) (lo : coVptrPseudoRamPageTables ≤ o)
    (hi : o < coVptrPseudoRamPageTables + 0x100000) (aligned : o % 4096 = 0) :
    let r := scanPfnsSplitCallback none true o n (w, pos)
    (r.1 = .ok → ScanAt out outcome blocks k (o + 4096) r.2.1) ∧
      (r.1 ≠ .ok → ScanFailed out outcome r.2.1) := by
  have page : o / coArchPageSize / ptrsPerPte = ppPagetablesGroup := by
    simp only [ppPagetablesGroup, coVptrPseudoRamPageTables, coVptrBase, coArchPageSize,
      ptrsPerPte, coArchPmdSize] at lo hi ⊢
    omega
  obtain ⟨group, quiet, answers, taken⟩ :=
    allocPpGroup_cases .error (by decide) ppPagetablesGroup w
  have granted := allocPpGroup_granted_iff w
  have settled := at'.settled
  unfold World.scanOutcome at settled
  unfold scanPfnsSplitCallback
  simp only [page]
  by_cases grants : w.GroupGranted
  swap
  · -- the group is missing and the host refuses it
    rw [if_neg grants] at granted
    rw [if_neg (by simpa using grants)] at settled
    rw [if_pos granted]
    have own := at'.own.congr taken quiet.ppPfn
    refine ⟨fun ok => absurd ok granted, fun _ => ⟨?_, own.apart, fun q => ?_, fun q h => ?_⟩⟩
    · rw [← settled]; simp
    · rw [own.mem_out, ← settled]; simp
    · rw [← settled] at h; simp at h
  rw [if_pos grants] at granted
  rw [if_pos (.inr grants)] at settled
  obtain ⟨missing, -⟩ | ⟨-, present⟩ := group
  · exact absurd granted.1 missing
  obtain ⟨ok, mallocs⟩ := granted
  rw [if_neg (by simp [ok])]
  generalize (allocPpGroup .error ppPagetablesGroup w).2 = w1 at quiet answers taken present mallocs
  have own := at'.own.congr taken quiet.ppPfn
  have unrecorded : w1.ppPfn (o / coArchPageSize) = 0 :=
    (quiet.ppPfn _).trans (at'.unrecorded _ (Nat.le_refl _))
  have same : w1.frameRequests (k + 1) = outcome := by
    rw [← settled, World.frameRequests, answers, taken, quiet.manager]
    rfl
  simp only [reduceCtorEq, if_false, recordedOrNewPfn, unrecorded, ne_eq, not_true_eq_false]
  cases asked : coManagerGetPage w1 with
  | mk result w2 =>
    cases result with
    | error rc =>
      obtain ⟨notOk, host, rfl, -⟩ := coManagerGetPage_error asked
      exact ⟨fun ok => absurd ok notOk, fun _ => .of_failed own same asked⟩
    | ok pfn =>
      refine ⟨fun _ => ?_, fun failed => absurd rfl failed⟩
      show ScanAt out outcome blocks k (o + 4096)
        (w2.setPpPfn (o / coArchPageSize / ptrsPerPte) (o / coArchPageSize % ptrsPerPte) pfn)
      have next := coManagerGetPage_granted_outcome asked k
      obtain ⟨rest', head, ne, fresh, -, hw2⟩ := coManagerGetPage_ok asked
      have table : w2.monitor = w1.monitor := by rw [hw2]; rfl
      have group : (w2.monitor.ppPfns ppPagetablesGroup).isSome := by rw [table]; exact present
      have recorded := ppPfn_setPpPfn (page.symm ▸ group) pfn
      have present' : ((w2.setPpPfn (o / coArchPageSize / ptrsPerPte)
        (o / coArchPageSize % ptrsPerPte) pfn).monitor.ppPfns ppPagetablesGroup).isSome :=
        setPpPfn_groups group
      have earlier (n : Nat) : w2.ppPfn n = w1.ppPfn n := by rw [hw2]; rfl
      constructor
      · rw [World.scanOutcome, if_pos (.inr (.inl present')), ← same, next]
        simp only [World.frameRequests, setPpPfn_host, setPpPfn_manager]
      · intro n hn
        have later : n ≠ o / coArchPageSize := by simp only [coArchPageSize]; omega
        rw [recorded, if_neg later, earlier]
        exact (quiet.ppPfn n).trans (at'.unrecorded n (by omega))
      · refine own.record ?_ unrecorded ne fresh ?_ (fun n => by rw [recorded, earlier])
        · simp only [coVptrPseudoRamPageTables, coVptrBase, coArchPageSize] at hi ⊢
          omega
        · rw [setPpPfn_host, hw2]
          rfl
      · rw [if_pos present', setPpPfn_host, hw2, ← at'.blocks, ← mallocs]
        rfl
      · exact fun _ => present'

/-! ## The whole scan -/

variable {out : List Nat} {outcome : FrameOutcome} {blocks : List Bool}

theorem coMonitorScanAndCreatePfns_outcome {left address size : Nat}
    (at' : ScanAt out outcome blocks (left + (size + 4095) / 4096) address w)
    (aligned : address % 4096 = 0) (lo : coVptrPseudoRamPageTables ≤ address)
    (hi : address + size ≤ coVptrPseudoRamPageTables + 0x100000) :
    let r := coMonitorScanAndCreatePfns address size w
    (r.1 = .ok → ScanAt out outcome blocks left (address + (size + 4095) / 4096 * 4096) r.2) ∧
      (r.1 ≠ .ok → ScanFailed out outcome r.2) := by
  refine coSplit_pages (P := fun k o (s : World × Nat) => ScanAt out outcome blocks k o s.1)
    (Q := fun s => ScanFailed out outcome s.1) (fun k o n s start from_ to_ pos _ at' => ?_)
    aligned ?_ at'
  · exact scanPfnsSplitCallback_outcome n at' (by omega) (by omega) start
  · simp only [coVptrPseudoRamPageTables, coVptrBase, wordSize] at hi ⊢
    omega

/-- How many page tables a guest of this size has. -/
def pageTables (memorySize : Nat) : Nat :=
  memorySize / coArchPmdSize + (partialPageTableSize memorySize + 4095) / 4096

theorem scanPageTables_outcome {left : Nat} (small : SmallMemory w)
    (at' : ScanAt out outcome blocks (left + pageTables w.monitor.memorySize)
      coVptrPseudoRamPageTables w) :
    let r := scanPageTables w
    (r.1 = .ok → ScanAt out outcome blocks left
      (coVptrPseudoRamPageTables + pageTables w.monitor.memorySize * 4096) r.2) ∧
      (r.1 ≠ .ok → ScanFailed out outcome r.2) := by
  unfold SmallMemory at small
  have fullPages : (fullPageTablesSize w.monitor.memorySize + 4095) / 4096 =
      w.monitor.memorySize / coArchPmdSize := by
    simp only [fullPageTablesSize, coArchPageSize]
    omega
  have fullSize : fullPageTablesSize w.monitor.memorySize =
    w.monitor.memorySize / coArchPmdSize * 4096 := Nat.mul_comm _ _
  have sizes : fullPageTablesSize w.monitor.memorySize +
      partialPageTableSize w.monitor.memorySize ≤ 0x100000 := by
    rw [fullSize]
    simp only [partialPageTableSize, coArchPmdSize, coArchPageSize]
    omega
  rw [pageTables, Nat.add_comm (w.monitor.memorySize / coArchPmdSize), ← fullPages,
    ← Nat.add_assoc] at at'
  obtain ⟨onOk, onFail⟩ := coMonitorScanAndCreatePfns_outcome at' (by decide) (Nat.le_refl _)
    (by omega)
  have grown : Grown w (coMonitorScanAndCreatePfns coVptrPseudoRamPageTables
    (fullPageTablesSize w.monitor.memorySize) w).2 :=
    coManagerScanPfnsAndCallback_grown (by decide) _ _ _ w
  have memorySize := grown.memorySize
  unfold scanPageTables
  generalize coMonitorScanAndCreatePfns coVptrPseudoRamPageTables
    (fullPageTablesSize w.monitor.memorySize) w = r at onOk onFail memorySize
  by_cases ok : r.1 = .ok
  swap
  · rw [Step.andThen_of_ne ok]
    exact ⟨fun h => absurd h ok, onFail⟩
  rw [Step.andThen_of_ok ok, memorySize]
  have next := onOk ok
  rw [fullPages] at next
  by_cases partial' : partialPageTableSize w.monitor.memorySize = 0
  · rw [if_neg (fun h => h partial')]
    refine ⟨fun _ => ?_, fun failed => absurd rfl failed⟩
    simpa [pageTables, partial'] using next
  · rw [if_pos partial', fullSize]
    have second := coMonitorScanAndCreatePfns_outcome next
      (by simp only [coVptrPseudoRamPageTables, coVptrBase]; omega) (by omega) (by omega)
    rw [Nat.add_assoc, ← Nat.add_mul] at second
    exact second

/-- Freeing the frame table gives back the recorded frames. -/
theorem freePseudoPhysicalMemory_out (has : w.monitor.hasPpPfns = true) (q : Nat) :
    q ∈ (freePseudoPhysicalMemory w).host.out ↔ q ∈ w.host.out ∧ ¬ w.Records q := by
  rw [(freePseudoPhysicalMemory_freed w).out has q]
  refine and_congr_right fun _ => ⟨?_, ?_⟩
  · rintro free ⟨ne, n, hn, rfl⟩
    exact free n hn ne rfl
  · intro free n hn ne same
    exact free ⟨same ▸ ne, n, hn, same.symm⟩

/-- A table whose frames are the only new ones is freed without a trace. -/
theorem OwnFrames.freed (own : OwnFrames out w) (has : w.monitor.hasPpPfns = true) (q : Nat) :
    q ∈ (freePseudoPhysicalMemory w).host.out ↔ q ∈ out := by
  rw [freePseudoPhysicalMemory_out has, own.mem_out]
  constructor
  · rintro ⟨used | recorded, free⟩
    · exact used
    · exact absurd recorded free
  · exact fun used => ⟨.inl used, fun recorded => own.apart q recorded used⟩

/-- After a failed scan the frame that was too high is all that is left. -/
theorem ScanFailed.freed (failed : ScanFailed out outcome w) (has : w.monitor.hasPpPfns = true)
    (q : Nat) : q ∈ (freePseudoPhysicalMemory w).host.out ↔ q ∈ out ∨ outcome = .tooHigh q := by
  rw [freePseudoPhysicalMemory_out has, failed.mem_out]
  constructor
  · rintro ⟨(used | recorded) | high, free⟩
    · exact .inl used
    · exact absurd recorded free
    · exact .inr high
  · rintro (used | high)
    · exact ⟨.inl (.inl used), fun recorded => failed.apart q recorded used⟩
    · exact ⟨.inr high, (failed.fresh q high).2⟩

/-! ## `alloc_pp_ram_mapping` -/

/-- How a number of requests for frames comes out after the requests for the frame table. -/
def World.requestsOutcome (n : Nat) (w : World) : FrameOutcome :=
  if w.host.mallocs.take 2 = [true, true] then w.frameRequests n else .refused

/-- How `alloc_pp_ram_mapping` comes out. -/
def World.ppOutcome (w : World) : FrameOutcome :=
  w.requestsOutcome (pageTables w.monitor.memorySize)

/-- What the outcome says about the call's result and about the frames that are out. -/
structure PpOutcome (w : World) (r : Step World) : Prop where
  ok : r.1 = .ok ↔ w.ppOutcome = .granted
  granted : r.1 = .ok → OwnFrames w.host.out r.2
  /-- Later requests come out as the same requests after the ones of this call. -/
  later : r.1 = .ok → ∀ n,
    r.2.frameRequests n = w.requestsOutcome (n + pageTables w.monitor.memorySize)
  mallocs : r.1 = .ok → r.2.host.mallocs = w.host.mallocs.drop 2
  failed : r.1 ≠ .ok → ∀ q, q ∈ r.2.host.out ↔ q ∈ w.host.out ∨ w.ppOutcome = .tooHigh q
  fresh : ∀ q, w.ppOutcome = .tooHigh q → q ∉ w.host.out

theorem pageTables_pos {memorySize : Nat} (least : coArchPmdSize ≤ memorySize) :
    0 < pageTables memorySize := by
  have := Nat.div_pos least (by decide)
  unfold pageTables
  omega

/-- The table before the scan: nothing is recorded. -/
theorem scanAt_start (left : Nat) (least : coArchPmdSize ≤ w.monitor.memorySize)
    {blocks : List Bool} (mallocs : w.host.mallocs = true :: blocks) {w' : World}
    (manager : w'.manager = w.manager) (table : w'.monitor.ppPfns = fun _ => none)
    (host : w'.host = { w.host with mallocs := blocks }) :
    ScanAt w.host.out (w.requestsOutcome (left + pageTables w.monitor.memorySize))
      (w.host.mallocs.drop 2) (left + pageTables w.monitor.memorySize)
      coVptrPseudoRamPageTables w' := by
  have none (n : Nat) : w'.ppPfn n = 0 := by simp [World.ppPfn, table]
  have some : left + pageTables w.monitor.memorySize ≠ 0 := by
    have := pageTables_pos least
    omega
  have unrecorded (q : Nat) : ¬ w'.Records q := by
    rintro ⟨ne, n, -, rfl⟩
    exact ne (none n)
  constructor
  · simp only [World.scanOutcome, World.GroupGranted, World.requestsOutcome, World.frameRequests,
      manager, table, host, mallocs, some, false_or, Option.isSome_none, Bool.false_eq_true]
    cases blocks <;> simp
  · exact fun n _ => none n
  · exact ⟨fun q => by simp [host, unrecorded], fun q recorded => absurd recorded (unrecorded q)⟩
  · simp [table, host, mallocs]
  · exact fun h => absurd h (Nat.lt_irrefl _)

theorem allocPpRamMapping_outcome (small : SmallMemory w)
    (least : coArchPmdSize ≤ w.monitor.memorySize) : PpOutcome w (allocPpRamMapping w) := by
  have fresh (q : Nat) (high : w.ppOutcome = .tooHigh q) : q ∉ w.host.out := by
    unfold World.ppOutcome World.requestsOutcome at high
    split at high
    · exact (frameRequests_tooHigh high).2
    · simp at high
  unfold allocPpRamMapping
  by_cases first : w.host.mallocs.head? = some true
  swap
  · have refused : w.ppOutcome = .refused := by
      unfold World.ppOutcome World.requestsOutcome
      rw [if_neg]
      intro both
      cases h : w.host.mallocs <;> simp_all
    have block : (coMonitorMalloc w).1 ≠ .ok ∧ (coMonitorMalloc w).2.host.out = w.host.out := by
      unfold coMonitorMalloc coOsMalloc
      cases h : w.host.mallocs with
      | nil => simp
      | cons granted rest => cases granted <;> simp_all [World.setHost]
    rw [Step.andThen_of_ne block.1]
    exact ⟨iff_of_false block.1 (by simp [refused]), fun ok => absurd ok block.1,
      fun ok => absurd ok block.1, fun ok => absurd ok block.1,
      fun _ q => by simp [block.2, refused], fresh⟩
  obtain ⟨blocks, mallocs⟩ : ∃ blocks, w.host.mallocs = true :: blocks := by
    cases h : w.host.mallocs with
    | nil => simp [h] at first
    | cons granted rest => exact ⟨rest, by simp_all⟩
  have block : coMonitorMalloc w = (.ok, { w with
      monitor := { w.monitor with blocksAllocated := w.monitor.blocksAllocated + 1 }
      host := { w.host with mallocs := blocks } }) := by
    simp [coMonitorMalloc, coOsMalloc, mallocs, World.setHost]
  rw [block, Step.andThen_ok]
  dsimp only
  generalize hw1 : (World.mk _ _ _ _ : World) = w1
  have has : w1.monitor.hasPpPfns = true := by rw [← hw1]
  have memorySize : w1.monitor.memorySize = w.monitor.memorySize := by rw [← hw1]
  have small1 : SmallMemory w1 := by rw [SmallMemory, memorySize]; exact small
  have manager1 : w1.manager = w.manager := by rw [← hw1]
  have table1 : w1.monitor.ppPfns = fun _ => none := by rw [← hw1]
  have host1 : w1.host = { w.host with mallocs := blocks } := by rw [← hw1]
  have scan (left : Nat) := scanPageTables_outcome small1 (memorySize ▸
    scanAt_start left least mallocs manager1 table1 host1)
  simp only [memorySize] at scan
  have has' := (scanPageTables_grown small1).hasPpPfns.trans has
  generalize scanPageTables w1 = r at scan has'
  obtain ⟨onOk, onFail⟩ := scan 0
  rw [Nat.zero_add] at onOk onFail
  by_cases ok : r.1 = .ok
  · rw [if_pos ok]
    have done := onOk ok
    have settled : w.ppOutcome = .granted := done.settled.symm
    have present := done.group
      (Nat.lt_add_of_pos_right (Nat.mul_pos (pageTables_pos least) (by decide)))
    refine ⟨iff_of_true ok settled, fun _ => done.own, fun _ n => ?_, fun _ => ?_,
      fun failed => absurd ok failed, fresh⟩
    · have later := ((scan n).1 ok).settled
      rwa [World.scanOutcome, if_pos (.inr (.inl present))] at later
    · rw [← done.blocks, if_pos present]
  · rw [if_neg ok]
    have failed := onFail ok
    refine ⟨iff_of_false ok failed.settled, fun h => absurd h ok, fun h => absurd h ok,
      fun h => absurd h ok, fun _ => failed.freed has', fresh⟩

end CoLinux
