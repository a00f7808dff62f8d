import CoLinux.Kernel.DebugLog
import CoLinux.Lib.Run
import Mathlib.Algebra.BigOperators.Group.List.Basic

/-!
# The books of the debug log

Between calls the three totals agree with the list of sections, every listed section has one
reference, and a section is freed once, by the reader that drains it after its descriptor was
closed or by the unload of the driver. The unload frees every listed section, so it must not
find a section whose descriptor is still open: `co_debug_writev` looks at `freeing` before it
uses a section, `co_debug_fold` does not.
-/

namespace CoLinux

open Lib

namespace DebugLog

/-- A total over the listed sections. -/
def total (f : DebugSection → Int) (log : DebugLog) : Int :=
  (log.sections.map fun id => f (log.heap id)).sum

/-- The totals and the reference counts are right. -/
structure Accounted (log : DebugLog) : Prop where
  filled : log.sectionsTotalFilled = log.total DebugSection.filled
  size : log.sectionsTotalSize = log.total DebugSection.bufferSize
  count : log.sectionsCount = log.sections.length
  within : ∀ id ∈ log.sections,
    0 ≤ (log.heap id).filled ∧ (log.heap id).filled ≤ (log.heap id).bufferSize
  refcount : ∀ id ∈ log.sections, (log.heap id).refcount = 1 + log.working id

/-- No section is freed twice or used after it was freed, none is freed while the list or an open
descriptor has it, and after the unload none is left. -/
structure FreedOnce (log : DebugLog) : Prop where
  noFaults : log.ledger.faults = []
  unused : log.misfreed = []
  all : log.freeing = true → log.ledger.live = []

/-- The property that the log is to have between calls. -/
structure Sound (log : DebugLog) : Prop where
  accounted : log.freeing = false → log.Accounted
  freed : log.FreedOnce

/-- The call unloads the driver while an open descriptor has a section. -/
def UnloadsInUse (log : DebugLog) : Call → Prop
  | .free => ∃ d ∈ log.opens, log.holds (.opened d) ≠ none
  | _ => False

instance (log : DebugLog) (c : Call) : Decidable (log.UnloadsInUse c) := by
  cases c <;> unfold UnloadsInUse <;> infer_instance

/-! ## Replacing one section -/

/-- A listed section becomes `s`, and the totals follow. -/
def replace (id : SectionId) (s : DebugSection) (log : DebugLog) : DebugLog :=
  { log.setSection id s with
    sectionsTotalFilled := log.sectionsTotalFilled + (s.filled - (log.heap id).filled)
    sectionsTotalSize := log.sectionsTotalSize + (s.bufferSize - (log.heap id).bufferSize) }

variable {log : DebugLog} {id : SectionId}

@[simp] theorem setSection_heap (s : DebugSection) : (log.setSection id s).heap id = s :=
  if_pos rfl

@[simp] theorem replace_heap (s : DebugSection) : (log.replace id s).heap id = s := if_pos rfl

@[simp] theorem replace_working (s : DebugSection) : (log.replace id s).working = log.working := rfl

@[simp] theorem setWorking_heap (n : Nat) : (log.setWorking id n).heap = log.heap := rfl

@[simp] theorem setWorking_working (n : Nat) : (log.setWorking id n).working id = n := if_pos rfl

theorem setSection_self : log.setSection id (log.heap id) = log := by
  have same : (fun i => if i = id then log.heap id else log.heap i) = log.heap := by
    funext i
    split_ifs with h
    · rw [h]
    · rfl
  unfold setSection
  rw [same]

theorem replace_self : log.replace id (log.heap id) = log := by
  unfold replace
  rw [setSection_self, Int.sub_self, Int.sub_self, Int.add_zero, Int.add_zero]

theorem eq_replace (log : DebugLog) (id : SectionId) (s : DebugSection) {filled size : Int}
    (hf : filled = log.sectionsTotalFilled + (s.filled - (log.heap id).filled))
    (hs : size = log.sectionsTotalSize + (s.bufferSize - (log.heap id).bufferSize)) :
    { log.setSection id s with sectionsTotalFilled := filled, sectionsTotalSize := size } =
      log.replace id s := by
  rw [hf, hs]
  rfl

theorem replace_replace (s s' : DebugSection) :
    (log.replace id s).replace id s' = log.replace id s' := by
  have before : (log.replace id s).heap id = s := replace_heap s
  apply DebugLog.ext <;> try rfl
  · funext i
    show (if i = id then s' else if i = id then s else log.heap i) =
      if i = id then s' else log.heap i
    split_ifs <;> rfl
  · show log.sectionsTotalSize + (s.bufferSize - (log.heap id).bufferSize) +
      (s'.bufferSize - ((log.replace id s).heap id).bufferSize) =
        log.sectionsTotalSize + (s'.bufferSize - (log.heap id).bufferSize)
    rw [before]
    omega
  · show log.sectionsTotalFilled + (s.filled - (log.heap id).filled) +
      (s'.filled - ((log.replace id s).heap id).filled) =
        log.sectionsTotalFilled + (s'.filled - (log.heap id).filled)
    rw [before]
    omega

theorem sum_map_replace {l : List SectionId} {f g : SectionId → Int} (nodup : l.Nodup)
    (mem : id ∈ l) (others : ∀ i ∈ l, i ≠ id → g i = f i) :
    (l.map g).sum = (l.map f).sum + (g id - f id) := by
  induction l with
  | nil => exact nomatch mem
  | cons a l ih =>
    obtain ⟨fresh, nodup⟩ := List.nodup_cons.mp nodup
    simp only [List.map_cons, List.sum_cons]
    by_cases here : a = id
    · subst here
      have rest : l.map g = l.map f :=
        List.map_congr_left fun i hi => others i (List.mem_cons_of_mem _ hi)
          fun same => fresh (same ▸ hi)
      rw [rest]
      omega
    · have later : id ∈ l := (List.mem_cons.mp mem).resolve_left (Ne.symm here)
      rw [others a List.mem_cons_self here, ih nodup later fun i hi =>
        others i (List.mem_cons_of_mem _ hi)]
      omega

theorem total_replace (f : DebugSection → Int) (s : DebugSection) (nodup : log.sections.Nodup)
    (mem : id ∈ log.sections) :
    (log.replace id s).total f = log.total f + (f s - f (log.heap id)) := by
  have sum := @sum_map_replace id log.sections (fun i => f (log.heap i))
    (fun i => f ((log.replace id s).heap i)) nodup mem fun i _ other => by
      show f (if i = id then s else log.heap i) = _
      rw [if_neg other]
  rwa [replace_heap] at sum

/-! ## What the calls do to one section -/

/-- The sections differ in their buffer and peak size at most. -/
structure SameSection (s s' : DebugSection) : Prop where
  bufferSize : s'.bufferSize = s.bufferSize
  filled : s'.filled = s.filled
  refcount : s'.refcount = s.refcount
  folded : s'.folded = s.folded
  contents : s'.contents = s.contents

/-- An append did nothing, or it stored the vector behind the contents. -/
structure Appended (vec : List DebugWriteVector) (s s' : DebugSection) : Prop where
  bufferSize : s'.bufferSize = s.bufferSize
  folded : s'.folded = s.folded
  nonneg : 0 ≤ s'.filled
  within : s'.filled ≤ s'.bufferSize
  contents : s'.filled = s.filled ∧ s'.contents = s.contents ∨
    s'.filled = s.filled + coDebugWriteVectorSize vec ∧ ∃ b : ByteMem,
      b.slice 0 s.filled.toNat = s.contents ∧ s'.buffer = memcpyVector s.filled.toNat b vec

/-- `resize_section` grows or shrinks nothing: it goes on only when both sizes are the same. -/
theorem resizeSection_eq (granted : Option ByteMem) (id : SectionId) (log : DebugLog) :
    ∃ s, resizeSection granted id log = log.replace id s ∧ SameSection (log.heap id) s := by
  have same : ∃ s, log = log.replace id s ∧ SameSection (log.heap id) s :=
    ⟨log.heap id, replace_self.symm, rfl, rfl, rfl, rfl, rfl⟩
  unfold resizeSection
  dsimp only
  by_cases none : newSize (log.heap id) = 0
  · rwa [if_pos none]
  by_cases differ : (log.heap id).bufferSize ≠ newSize (log.heap id)
  · rwa [if_neg none, if_pos differ]
  rw [if_neg none, if_neg differ]
  rw [not_not] at differ
  cases granted with
  | none => exact same
  | some block =>
    let s := log.heap id
    exact ⟨{ s with
        buffer := block.copyBytes 0 s.filled.toNat s.buffer
        bufferSize := newSize s
        peakSize := if s.peakSize < newSize s then newSize s else s.peakSize },
      eq_replace log id _ ((Int.add_zero _).symm.trans (congrArg _ (Int.sub_self _).symm)) rfl,
      differ.symm, rfl, rfl, rfl, ByteMem.slice_copyBytes_inside block 0 _ s.buffer⟩

theorem appendToBuffer_eq (granted : Option ByteMem) (vec : List DebugWriteVector)
    (nonneg : 0 ≤ (log.heap id).filled) (within : (log.heap id).filled ≤ (log.heap id).bufferSize) :
    ∃ s, (appendToBuffer granted id vec log).2 = log.replace id s ∧
      s.refcount = (log.heap id).refcount ∧ Appended vec (log.heap id) s := by
  obtain ⟨s, resized, same⟩ := resizeSection_eq granted id log
  have size := same.bufferSize
  have filled := same.filled
  unfold appendToBuffer
  rw [resized]
  dsimp only
  rw [replace_heap]
  split_ifs with full
  · exact ⟨s, rfl, same.refcount, size, same.folded, by omega, by omega,
      .inl ⟨filled, same.contents⟩⟩
  · refine ⟨{ s with
      buffer := memcpyVector s.filled.toNat s.buffer vec
      filled := s.filled + coDebugWriteVectorSize vec }, ?_, same.refcount, size, same.folded, ?_,
      ?_, .inr ⟨congrArg (· + _) filled, s.buffer, ?_, ?_⟩⟩
    · refine Eq.trans (eq_replace (log.replace id s) id _ ?_ ?_) (replace_replace s _)
      · rw [replace_heap]
        dsimp only
        omega
      · rw [replace_heap, Int.sub_self, Int.add_zero]
        rfl
    · dsimp only
      omega
    · dsimp only
      omega
    · rw [← filled]
      exact same.contents
    · rw [← filled]

/-! ## The invariant -/

/-- What holds between calls until the driver is unloaded. -/
structure Running (log : DebugLog) : Prop where
  notFreeing : log.freeing = false
  accounted : log.Accounted
  nodup : log.sections.Nodup
  liveNodup : log.ledger.live.Nodup
  live : ∀ id, id ∈ log.ledger.live ↔ id ∈ log.sections
  fresh : ∀ id ∈ log.sections, id < log.next
  idle : ∀ id, log.working id = 0
  held : ∀ h id, log.holds h = some id → id ∈ log.sections ∧ (log.heap id).folded = false
  distinct : ∀ h h' id, log.holds h = some id → log.holds h' = some id → h = h'
  closed : ∀ d, d ∉ log.opens → log.holds (.opened d) = none
  noFaults : log.ledger.faults = []
  unused : log.misfreed = []

/-- What holds after the driver was unloaded. -/
structure Unloaded (log : DebugLog) : Prop where
  freeing : log.freeing = true
  notReady : log.ready = false
  sections : log.sections = []
  live : log.ledger.live = []
  noHolder : ∀ d, log.holds (.opened d) = none
  noFaults : log.ledger.faults = []
  unused : log.misfreed = []

theorem Running.refcount (running : log.Running) (mem : id ∈ log.sections) :
    (log.heap id).refcount = 1 := by
  rw [running.accounted.refcount id mem, running.idle]
  rfl

theorem Running.sound (running : log.Running) : log.Sound :=
  ⟨fun _ => running.accounted, running.noFaults, running.unused, fun freeing => by
    rw [running.notFreeing] at freeing
    contradiction⟩

theorem Unloaded.sound (unloaded : log.Unloaded) : log.Sound :=
  ⟨fun running => by
    rw [unloaded.freeing] at running
    contradiction, unloaded.noFaults, unloaded.unused, fun _ => unloaded.live⟩

theorem coDebugInit_running : coDebugInit.Running where
  notFreeing := rfl
  accounted := ⟨rfl, rfl, rfl, fun _ h => (nomatch h), fun _ h => (nomatch h)⟩
  nodup := List.nodup_nil
  liveNodup := List.nodup_nil
  live := fun _ => Iff.rfl
  fresh := fun _ h => nomatch h
  idle := fun _ => rfl
  held := fun _ _ h => nomatch h
  distinct := fun _ _ _ h => nomatch h
  closed := fun _ _ => rfl
  noFaults := rfl
  unused := rfl

/-- A listed section becomes `s`. -/
theorem Running.replace (running : log.Running) (mem : id ∈ log.sections) {s : DebugSection}
    (refcount : s.refcount = 1) (within : 0 ≤ s.filled ∧ s.filled ≤ s.bufferSize)
    (unheld : s.folded = true → ∀ h, log.holds h ≠ some id) : (log.replace id s).Running := by
  have heap : ∀ i, (log.replace id s).heap i = if i = id then s else log.heap i := fun _ => rfl
  obtain ⟨notFreeing, accounted, nodup, liveNodup, live, fresh, idle, held, distinct, closed,
    noFaults, unused⟩ := running
  refine ⟨notFreeing, ⟨?_, ?_, accounted.count, fun i hi => ?_, fun i hi => ?_⟩, nodup, liveNodup,
    live, fresh, idle, fun h i hi => ?_, distinct, closed, noFaults, unused⟩
  · rw [total_replace _ _ nodup mem, ← accounted.filled]
    rfl
  · rw [total_replace _ _ nodup mem, ← accounted.size]
    rfl
  · rw [heap]
    split_ifs
    · exact within
    · exact accounted.within i hi
  · rw [heap]
    split_ifs with here
    · rw [refcount]
      show _ = 1 + ((log.working i : Nat) : Int)
      rw [idle]
      rfl
    · exact accounted.refcount i hi
  · obtain ⟨listed, unfolded⟩ := held h i hi
    refine ⟨listed, ?_⟩
    rw [heap]
    split_ifs with here
    · cases folded : s.folded with
      | false => rfl
      | true => exact absurd (here ▸ hi) (unheld folded h)
    · exact unfolded

/-- `get_section` of a section that no call works on. -/
theorem getSection_eq (live : id ∈ log.ledger.live) (idle : log.working id = 0)
    (refcount : (log.heap id).refcount = 1) :
    log.getSection id =
      (log.replace id { log.heap id with refcount := 2 }).setWorking id 1 := by
  unfold DebugLog.getSection touch
  rw [if_pos live, idle, addRefcount, refcount]
  apply DebugLog.ext <;> try rfl
  · exact (Int.add_zero _).symm.trans (congrArg _ (Int.sub_self _).symm)
  · exact (Int.add_zero _).symm.trans (congrArg _ (Int.sub_self _).symm)

theorem Running.getSection (running : log.Running) (mem : id ∈ log.sections) :
    log.getSection id = (log.replace id { log.heap id with refcount := 2 }).setWorking id 1 :=
  getSection_eq ((running.live id).mpr mem) (running.idle id) (running.refcount mem)

/-- A section that a call works on becomes `s'`, and the totals follow. -/
theorem setSection_used (s s' : DebugSection) {filled size : Int}
    (hf : filled = log.sectionsTotalFilled + (s'.filled - (log.heap id).filled))
    (hs : size = log.sectionsTotalSize + (s'.bufferSize - (log.heap id).bufferSize)) :
    { ((log.replace id s).setWorking id 1).setSection id s' with
      sectionsTotalFilled := filled, sectionsTotalSize := size } =
        (log.replace id s').setWorking id 1 := by
  rw [hf, hs]
  apply DebugLog.ext <;> try rfl
  funext i
  show (if i = id then s' else if i = id then s else log.heap i) = if i = id then s' else log.heap i
  split_ifs <;> rfl

/-- `put_section` by the one call that works on the section. -/
theorem putSection_eq (idle : log.working id = 0) (s : DebugSection) :
    putSection id ((log.replace id s).setWorking id 1) =
      if s.refcount + -1 = 0 then
        (false, { log.replace id { s with refcount := s.refcount + -1 } with
          sectionsCount := log.sectionsCount - 1
          sectionsTotalSize := (log.replace id s).sectionsTotalSize - s.bufferSize }.freeSection id)
      else (true, log.replace id { s with refcount := s.refcount + -1 }) := by
  have put : ((((log.replace id s).setWorking id 1).addRefcount id (-1)).setWorking id
      (((log.replace id s).setWorking id 1).working id - 1)) =
        log.replace id { s with refcount := s.refcount + -1 } := by
    apply DebugLog.ext <;> try rfl
    · funext i
      show (if i = id then
          { (log.replace id s).heap id with refcount := ((log.replace id s).heap id).refcount + -1 }
        else if i = id then s else log.heap i) =
          if i = id then { s with refcount := s.refcount + -1 } else log.heap i
      rw [replace_heap]
      split_ifs <;> rfl
    · funext i
      show (if i = id then _ else if i = id then 1 else log.working i) = log.working i
      split_ifs with here
      · rw [here, idle, setWorking_working]
      · rfl
  unfold putSection
  dsimp only
  rw [put, replace_heap]
  rfl

/-- The section stays when it is listed. -/
theorem putSection_used (idle : log.working id = 0) {s : DebugSection} (refcount : s.refcount = 2) :
    putSection id ((log.replace id s).setWorking id 1) =
      (true, log.replace id { s with refcount := 1 }) := by
  rw [putSection_eq idle, refcount, if_neg (by decide)]
  rfl

/-! ## Writing -/

/-- An append by a call that works on the section, with the `put_section` after it. -/
theorem appendAndPut_used (holder : SectionHolder) (host : WriteHost)
    (vec : List DebugWriteVector) (idle : log.working id = 0) {s : DebugSection}
    (refcount : s.refcount = 2) (nonneg : 0 ≤ s.filled) (within : s.filled ≤ s.bufferSize) :
    ∃ s', (appendAndPut holder host vec id ((log.replace id s).setWorking id 1)).2 =
        log.replace id s' ∧ s'.refcount = 1 ∧ Appended vec s s' := by
  have before : ((log.replace id s).setWorking id 1).heap id = s := replace_heap s
  obtain ⟨s', appended, same, effect⟩ :=
    @appendToBuffer_eq ((log.replace id s).setWorking id 1) id host.resize vec (by rwa [before])
      (by rwa [before])
  rw [before] at same effect
  have replaced : ((log.replace id s).setWorking id 1).replace id s' =
      (log.replace id s').setWorking id 1 :=
    congrArg (setWorking id 1) (replace_replace s s')
  refine ⟨{ s' with refcount := 1 }, ?_, rfl, effect.bufferSize, effect.folded, effect.nonneg,
    effect.within, effect.contents⟩
  unfold appendAndPut
  dsimp only
  rw [appended, replaced, putSection_used idle (same.trans refcount)]
  rfl

/-- A new section with `r` references. -/
def newSection (buffer : ByteMem) (r : Int) : DebugSection where
  buffer := buffer
  bufferSize := coDebugSectionBufferStartSize
  peakSize := coDebugSectionBufferStartSize
  filled := 0
  refcount := r
  maxSize := coDebugSectionBufferMaxSize
  folded := false

theorem newSection_nonneg (buffer : ByteMem) (r : Int) : 0 ≤ (newSection buffer r).bufferSize :=
  show (0 : Int) ≤ coDebugSectionBufferStartSize by decide

/-- The log with a new section of the holder. -/
def withNew (buffer : ByteMem) (holder : SectionHolder) (log : DebugLog) : DebugLog :=
  { (log.setSection log.next (newSection buffer 1)).setHolds holder (some log.next) with
    sections := log.sections ++ [log.next]
    sectionsCount := log.sectionsCount + 1
    sectionsTotalSize := log.sectionsTotalSize + coDebugSectionBufferStartSize
    next := log.next + 1
    ledger := log.ledger.acquire log.next }

/-- The holders whose pointers are looked at: the driver and the open descriptors. -/
def Valid (log : DebugLog) : SectionHolder → Prop
  | .driver => True
  | .opened d => d ∈ log.opens

theorem Running.withNew (running : log.Running) (buffer : ByteMem) {holder : SectionHolder}
    (valid : log.Valid holder) : (log.withNew buffer holder).Running := by
  have heap : ∀ i, (log.withNew buffer holder).heap i =
      if i = log.next then newSection buffer 1 else log.heap i := fun _ => rfl
  have holds : ∀ h, (log.withNew buffer holder).holds h =
      if h = holder then some log.next else log.holds h := fun _ => rfl
  obtain ⟨notFreeing, accounted, nodup, liveNodup, live, fresh, idle, held, distinct, closed,
    noFaults, unused⟩ := running
  have new : log.next ∉ log.sections := fun mem => Nat.lt_irrefl _ (fresh _ mem)
  have old : ∀ i ∈ log.sections, (log.withNew buffer holder).heap i = log.heap i := fun i hi => by
    rw [heap, if_neg fun same : i = log.next => new (same ▸ hi)]
  have total : ∀ f : DebugSection → Int,
      (log.withNew buffer holder).total f = log.total f + f (newSection buffer 1) := fun f => by
    show ((log.sections ++ [log.next]).map fun i =>
      f ((log.withNew buffer holder).heap i)).sum = _
    rw [List.map_append, List.sum_append, List.map_cons, List.map_nil, List.sum_singleton, heap,
      if_pos rfl]
    exact congrArg (fun l => List.sum l + f (newSection buffer 1))
      (List.map_congr_left fun i hi => congrArg f (old i hi))
  have cases : ∀ i, i ∈ (log.withNew buffer holder).sections ↔ i ∈ log.sections ∨ i = log.next :=
    fun i => by
      show i ∈ log.sections ++ [log.next] ↔ _
      rw [List.mem_append, List.mem_singleton]
  refine ⟨notFreeing, ⟨?_, ?_, ?_, fun i hi => ?_, fun i hi => ?_⟩, ?_, ?_, fun i => ?_,
    fun i hi => ?_, idle, fun h i hi => ?_, fun h h' i hi hi' => ?_, fun d hd => ?_, noFaults,
    unused⟩
  · rw [total, ← accounted.filled]
    exact (Int.add_zero _).symm
  · rw [total, ← accounted.size]
    rfl
  · show log.sectionsCount + 1 = (((log.sections ++ [log.next]).length : Nat) : Int)
    rw [List.length_append, accounted.count]
    rfl
  · rcases (cases i).mp hi with listed | rfl
    · rw [old i listed]
      exact accounted.within i listed
    · rw [heap, if_pos rfl]
      exact ⟨Int.le_refl 0, newSection_nonneg buffer 1⟩
  · rcases (cases i).mp hi with listed | rfl
    · rw [old i listed]
      exact accounted.refcount i listed
    · rw [heap, if_pos rfl]
      show (1 : Int) = 1 + ((log.working log.next : Nat) : Int)
      rw [idle]
      rfl
  · show (log.sections ++ [log.next]).Nodup
    exact List.nodup_append.mpr ⟨nodup, List.nodup_singleton _, fun a ha b hb same =>
      new (List.mem_singleton.mp hb ▸ same ▸ ha)⟩
  · exact List.nodup_cons.mpr ⟨fun mem => new ((live _).mp mem), liveNodup⟩
  · rw [cases]
    show i ∈ log.next :: log.ledger.live ↔ _
    rw [List.mem_cons, live, or_comm]
  · show i < log.next + 1
    rcases (cases i).mp hi with listed | rfl
    · exact Nat.lt_succ_of_lt (fresh i listed)
    · exact Nat.lt_succ_self _
  · rw [holds] at hi
    split_ifs at hi with here
    · obtain rfl := Option.some.inj hi
      exact ⟨(cases _).mpr (.inr rfl), by rw [heap, if_pos rfl]; rfl⟩
    · obtain ⟨listed, unfolded⟩ := held h i hi
      exact ⟨(cases i).mpr (.inl listed), by rw [old i listed]; exact unfolded⟩
  · rw [holds] at hi hi'
    split_ifs at hi hi' with here there
    · rw [here, there]
    · obtain rfl := Option.some.inj hi
      exact absurd (held h' _ hi').1 new
    · obtain rfl := Option.some.inj hi'
      exact absurd (held h _ hi).1 new
    · exact distinct h h' i hi hi'
  · rw [holds]
    split_ifs with here
    · subst here
      exact absurd valid hd
    · exact closed d hd

/-- The log after `create_section`, with the new section in the list. -/
def created (buffer : ByteMem) (log : DebugLog) : DebugLog :=
  { log.setSection log.next (newSection buffer 0) with
    sections := log.sections ++ [log.next]
    sectionsCount := log.sectionsCount + 1
    sectionsTotalSize := log.sectionsTotalSize + coDebugSectionBufferStartSize
    next := log.next + 1
    ledger := log.ledger.acquire log.next }

theorem created_eq (buffer : ByteMem) :
    log.created buffer =
      { log.setSection log.next (newSection buffer 0) with
        sections := log.sections ++ [log.next]
        sectionsCount := log.sectionsCount + 1
        sectionsTotalSize := log.sectionsTotalSize +
          ((log.setSection log.next (newSection buffer 0)).heap log.next).bufferSize
        next := log.next + 1
        ledger := log.ledger.acquire log.next } := by
  rw [setSection_heap]
  rfl

theorem getSection_created (idle : log.working log.next = 0) (buffer : ByteMem)
    (holder : SectionHolder) :
    (((log.created buffer).getSection log.next).setHolds holder (some log.next)).addRefcount
        log.next 1 =
      ((log.withNew buffer holder).replace log.next (newSection buffer 2)).setWorking
        log.next 1 := by
  have live : log.next ∈ (log.created buffer).ledger.live := List.mem_cons_self
  have working : (log.created buffer).working log.next + 1 = 1 := congrArg (· + 1) idle
  have new : (log.withNew buffer holder).heap log.next = newSection buffer 1 := setSection_heap _
  unfold DebugLog.getSection touch
  rw [if_pos live, working]
  apply DebugLog.ext <;> try rfl
  · funext i
    by_cases here : i = log.next
    · subst here
      simp [addRefcount, setSection, setWorking, setHolds, DebugLog.replace, newSection, created]
    · simp [addRefcount, setSection, setWorking, setHolds, DebugLog.replace, withNew, created, here]
  · show _ = (log.withNew buffer holder).sectionsTotalSize +
      ((newSection buffer 2).bufferSize - ((log.withNew buffer holder).heap log.next).bufferSize)
    rw [new]
    exact (Int.add_zero _).symm
  · show _ = (log.withNew buffer holder).sectionsTotalFilled +
      ((newSection buffer 2).filled - ((log.withNew buffer holder).heap log.next).filled)
    rw [new]
    exact (Int.add_zero _).symm

/-- What `co_debug_writev` does between calls: nothing, or an append to the section of the holder,
which is new when it had none. -/
theorem coDebugWritev_eq (running : log.Running) (holder : SectionHolder) (host : WriteHost)
    (vec : List DebugWriteVector) :
    (log.coDebugWritev holder host vec).2 = log ∨
    ∃ base id s, (log.coDebugWritev holder host vec).2 = base.replace id s ∧
      (base = log ∧ log.holds holder = some id ∨
        id = log.next ∧ log.holds holder = none ∧
          ∃ buffer, base = log.withNew buffer holder) ∧
      s.refcount = 1 ∧ Appended vec (base.heap id) s := by
  unfold coDebugWritev
  by_cases full : coDebugMaxFill < log.sectionsTotalFilled
  · exact .inl (by rw [if_pos full])
  rw [if_neg full, running.notFreeing, if_neg (by decide)]
  cases has : log.holds holder with
  | some id =>
    obtain ⟨mem, -⟩ := running.held holder id has
    obtain ⟨nonneg, within⟩ := running.accounted.within id mem
    obtain ⟨s, result, refcount, effect⟩ := appendAndPut_used holder host vec
      (running.idle id) (s := { log.heap id with refcount := 2 }) rfl nonneg within
    refine .inr ⟨log, id, s, ?_, .inl ⟨rfl, rfl⟩, refcount, effect.bufferSize, effect.folded,
      effect.nonneg, effect.within, effect.contents⟩
    dsimp only
    rw [running.getSection mem, result]
  | none =>
    unfold createSection
    cases host.malloc with
    | false => exact .inl rfl
    | true =>
      cases host.buffer with
      | none => exact .inl rfl
      | some buffer =>
        dsimp only
        by_cases mutex : host.mutex ≠ .ok
        · exact .inl (by rw [if_pos mutex])
        · rw [if_neg mutex]
          obtain ⟨s, result, refcount, effect⟩ := @appendAndPut_used
            (log.withNew buffer holder) log.next holder host vec (running.idle _)
            (newSection buffer 2) rfl (Int.le_refl 0) (newSection_nonneg buffer 2)
          have new : (log.withNew buffer holder).heap log.next = newSection buffer 1 :=
            setSection_heap _
          refine .inr ⟨log.withNew buffer holder, log.next, s, ?_, .inr ⟨rfl, rfl, buffer, rfl⟩,
            refcount, new ▸ effect.bufferSize, new ▸ effect.folded, effect.nonneg, effect.within,
            new ▸ effect.contents⟩
          refine Eq.subst (motive := fun created : DebugLog =>
            (appendAndPut holder host vec log.next (((created.getSection log.next).setHolds holder
              (some log.next)).addRefcount log.next 1)).2 = _) (@created_eq log buffer) ?_
          rw [getSection_created (running.idle _), result]

theorem Running.writev (running : log.Running) {holder : SectionHolder}
    (valid : log.Valid holder) (host : WriteHost) (vec : List DebugWriteVector) :
    (log.coDebugWritev holder host vec).2.Running := by
  rcases coDebugWritev_eq running holder host vec with
    same | ⟨base, id, s, result, ⟨rfl, has⟩ | ⟨rfl, -, buffer, rfl⟩, refcount, effect⟩
  · rwa [same]
  · obtain ⟨mem, unfolded⟩ := running.held holder id has
    rw [result]
    refine running.replace mem refcount ⟨effect.nonneg, effect.within⟩ fun folded => ?_
    rw [effect.folded, unfolded] at folded
    contradiction
  · have new : (log.withNew buffer holder).heap log.next = newSection buffer 1 := setSection_heap _
    rw [result]
    refine (running.withNew buffer valid).replace (List.mem_append_right _ List.mem_cons_self)
      refcount ⟨effect.nonneg, effect.within⟩ fun folded => ?_
    rw [effect.folded, new] at folded
    contradiction

/-- A log that differs in `debug_driver_index` only. -/
theorem Running.withIndex (running : log.Running) (n : Nat) :
    ({ log with driverIndex := n } : DebugLog).Running :=
  { running with accounted := { running.accounted with } }

theorem Running.writeLog (running : log.Running) {holder : SectionHolder}
    (valid : log.Valid holder) (host : WriteHost) (vec : List DebugWriteVector) :
    (log.coDebugWriteLog holder host vec).2.Running := by
  unfold coDebugWriteLog
  split_ifs with long
  · exact running
  · refine (running.withIndex ((log.driverIndex + 1) % wordSize)).writev ?_ host _
    cases holder with
    | driver => trivial
    | opened d => exact valid

theorem Running.buf (running : log.Running) (host : WriteHost) (size : Nat) (bytes : ByteMem) :
    (log.coDebugBuf host size bytes).Running := by
  unfold coDebugBuf
  split_ifs with unready
  · exact running
  · exact @Running.writeLog log running .driver trivial host _

/-! ## Opening and closing -/

theorem Running.withOpens (running : log.Running) {opens : List Nat}
    (closed : ∀ d, d ∉ opens → log.holds (.opened d) = none) :
    ({ log with opens := opens } : DebugLog).Running :=
  { running with
    accounted := { running.accounted with }
    closed := closed }

theorem Running.setHolds_none (running : log.Running) (holder : SectionHolder) :
    (log.setHolds holder none).Running := by
  have holds : ∀ h i, (log.setHolds holder none).holds h = some i → log.holds h = some i :=
    fun h i hi => by
      change (if h = holder then none else log.holds h) = some i at hi
      split_ifs at hi
      exact hi
  exact { running with
    accounted := { running.accounted with }
    held := fun h i hi => running.held h i (holds h i hi)
    distinct := fun h h' i hi hi' => running.distinct h h' i (holds h i hi) (holds h' i hi')
    closed := fun d hd => by
      show (if SectionHolder.opened d = holder then none else log.holds (.opened d)) = none
      rw [running.closed d hd, ite_self] }

theorem Running.managerOpen (running : log.Running) (d : Nat) : (log.coManagerOpen d).Running := by
  unfold coManagerOpen
  split_ifs with opened
  · exact running
  · exact (running.withOpens fun d' hd' =>
      running.closed d' fun mem => hd' (List.mem_cons_of_mem _ mem)).setHolds_none _

/-- `co_debug_fold` of a listed section: with or without a new buffer, it is folded. -/
theorem coDebugFold_eq (running : log.Running) (mem : id ∈ log.sections)
    (granted : Option ByteMem) :
    ∃ s, log.coDebugFold granted id = log.replace id s ∧ s.refcount = 1 ∧
      0 ≤ s.filled ∧ s.filled ≤ s.bufferSize ∧ s.bufferSize ≤ (log.heap id).bufferSize ∧
      s.contents = (log.heap id).contents := by
  obtain ⟨nonneg, within⟩ := running.accounted.within id mem
  have folded : ∀ s : DebugSection, s.refcount = 2 →
      ((((log.replace id s).setWorking id 1).setSection id
        { ((log.replace id s).setWorking id 1).heap id with folded := true }).putSection id).2 =
        log.replace id { s with folded := true, refcount := 1 } := fun s two => by
    have again : ((log.replace id s).setWorking id 1).setSection id
        { ((log.replace id s).setWorking id 1).heap id with folded := true } =
          (log.replace id { s with folded := true }).setWorking id 1 := by
      rw [setWorking_heap, replace_heap]
      exact setSection_used s _ rfl rfl
    rw [again, putSection_used (running.idle id) (s := { s with folded := true }) two]
  unfold coDebugFold
  rw [running.getSection mem]
  cases granted with
  | none => exact ⟨_, folded _ rfl, rfl, nonneg, within, Int.le_refl _, rfl⟩
  | some block =>
    dsimp only
    rw [setWorking_heap, replace_heap]
    have shrunk := @setSection_used log id { log.heap id with refcount := 2 }
      { log.heap id with
        buffer := block.copyBytes 0 (log.heap id).filled.toNat (log.heap id).buffer
        bufferSize := (log.heap id).filled
        refcount := 2 } _
      (log.sectionsTotalSize + ((log.heap id).bufferSize - (log.heap id).bufferSize) -
        (log.heap id).bufferSize + (log.heap id).filled) rfl (by dsimp only; omega)
    exact ⟨_, (congrArg (fun shrunk : DebugLog =>
      ((shrunk.setSection id { shrunk.heap id with folded := true }).putSection id).2) shrunk).trans
        (folded _ rfl), rfl, nonneg, Int.le_refl _, within,
      ByteMem.slice_copyBytes_inside block 0 _ (log.heap id).buffer⟩

theorem Running.close (running : log.Running) (granted : Option ByteMem) (d : Nat) :
    (log.coManagerClose granted d).Running := by
  have rest : ∀ log' : DebugLog, log'.Running → log'.holds (.opened d) = none →
      ({ log' with opens := log'.opens.erase d } : DebugLog).Running := fun log' running' none =>
    running'.withOpens fun d' hd' => by
      by_cases same : d' = d
      · rw [same, none]
      · exact running'.closed d' fun mem => hd' ((List.mem_erase_of_ne same).mpr mem)
  unfold coManagerClose
  by_cases unopened : d ∉ log.opens
  · rwa [if_pos unopened]
  rw [if_neg unopened]
  cases has : log.holds (.opened d) with
  | none => exact rest log running has
  | some id =>
    obtain ⟨mem, unfolded⟩ := running.held _ id has
    obtain ⟨s, fold, refcount, nonneg, within, -⟩ := coDebugFold_eq running mem granted
    dsimp only
    rw [fold]
    refine rest ((log.replace id s).setHolds (.opened d) none) ?_ (if_pos rfl)
    refine (running.setHolds_none (.opened d)).replace mem refcount ⟨nonneg, within⟩
      fun _ h held => ?_
    change (if h = .opened d then none else log.holds h) = some id at held
    split_ifs at held with same
    exact same (running.distinct h _ id held has)

/-! ## Reading -/

/-- A section leaves the list and is freed; what its memory holds no longer matters. -/
def drop (id : SectionId) (s : DebugSection) (log : DebugLog) : DebugLog :=
  { log.setSection id s with
    sections := log.sections.erase id
    sectionsCount := log.sectionsCount - 1
    sectionsTotalFilled := log.sectionsTotalFilled - (log.heap id).filled
    sectionsTotalSize := log.sectionsTotalSize - (log.heap id).bufferSize
    ledger := log.ledger.release id }

theorem Running.drop (running : log.Running) (mem : id ∈ log.sections) (s : DebugSection)
    (unheld : ∀ h, log.holds h ≠ some id) : (log.drop id s).Running := by
  obtain ⟨notFreeing, accounted, nodup, liveNodup, live, fresh, idle, held, distinct, closed,
    noFaults, unused⟩ := running
  have others : ∀ i, i ≠ id → (log.drop id s).heap i = log.heap i := fun i other => if_neg other
  have rest : ∀ i, i ∈ (log.drop id s).sections ↔ i ≠ id ∧ i ∈ log.sections := fun i =>
    nodup.mem_erase_iff
  have ledger : (log.drop id s).ledger = ⟨log.ledger.live.erase id, log.ledger.faults⟩ :=
    Ledger.release_mem ((live id).mpr mem)
  have total : ∀ f : DebugSection → Int,
      (log.drop id s).total f = log.total f - f (log.heap id) := fun f => by
    have sum := List.sum_map_erase (fun i => f (log.heap i)) mem
    have same : (log.sections.erase id).map (fun i => f ((log.drop id s).heap i)) =
        (log.sections.erase id).map fun i => f (log.heap i) :=
      List.map_congr_left fun i hi => congrArg f (others i ((rest i).mp hi).1)
    show ((log.sections.erase id).map fun i => f ((log.drop id s).heap i)).sum =
      (log.sections.map fun i => f (log.heap i)).sum - f (log.heap id)
    rw [same]
    omega
  refine ⟨notFreeing, ⟨?_, ?_, ?_, fun i hi => ?_, fun i hi => ?_⟩, nodup.erase id, ?_, fun i => ?_,
    fun i hi => fresh i ((rest i).mp hi).2, idle, fun h i hi => ?_, distinct, closed, ?_, unused⟩
  · rw [total, ← accounted.filled]
    rfl
  · rw [total, ← accounted.size]
    rfl
  · have positive : 0 < log.sections.length := List.length_pos_of_mem mem
    show log.sectionsCount - 1 = (((log.sections.erase id).length : Nat) : Int)
    rw [List.length_erase_of_mem mem, accounted.count]
    omega
  · rw [others i ((rest i).mp hi).1]
    exact accounted.within i ((rest i).mp hi).2
  · rw [others i ((rest i).mp hi).1]
    exact accounted.refcount i ((rest i).mp hi).2
  · rw [ledger]
    exact liveNodup.erase id
  · rw [ledger, rest]
    show i ∈ log.ledger.live.erase id ↔ _
    rw [liveNodup.mem_erase_iff, live]
  · obtain ⟨listed, unfolded⟩ := held h i hi
    have other : i ≠ id := fun same => unheld h (same ▸ hi)
    exact ⟨(rest i).mpr ⟨other, listed⟩, by rw [others i other]; exact unfolded⟩
  · rw [ledger]
    exact noFaults

/-- `resize_section` in the middle of a call that works on the section. -/
theorem resizeSection_used (granted : Option ByteMem) (s : DebugSection) :
    ∃ s', resizeSection granted id ((log.replace id s).setWorking id 1) =
        (log.replace id s').setWorking id 1 ∧ SameSection s s' := by
  obtain ⟨s', resized, same⟩ :=
    resizeSection_eq granted id ((log.replace id s).setWorking id 1)
  rw [setWorking_heap, replace_heap] at same
  exact ⟨s', resized.trans (congrArg (setWorking id 1) (replace_replace s s')), same⟩

/-- `put_section` of a section that was taken off the list. -/
theorem putSection_last (idle : log.working id = 0) {s : DebugSection} (refcount : s.refcount = 1)
    (empty : s.filled = 0) (unused : ¬ (log.unlist id).InUse id) :
    (putSection id (((log.unlist id).replace id s).setWorking id 1)).2 =
      log.drop id { s with refcount := 0 } := by
  have idle : (log.unlist id).working id = 0 := idle
  rw [putSection_eq idle, refcount, if_pos (by decide)]
  unfold freeSection
  apply DebugLog.ext <;> try rfl
  · show log.sectionsTotalSize + (s.bufferSize - (log.heap id).bufferSize) - s.bufferSize =
      log.sectionsTotalSize - (log.heap id).bufferSize
    omega
  · show log.sectionsTotalFilled + (s.filled - (log.heap id).filled) =
      log.sectionsTotalFilled - (log.heap id).filled
    omega
  · exact if_neg unused

/-- A section after a reader's visit, its contents aside. -/
structure Visited (s s' : DebugSection) : Prop where
  refcount : s'.refcount = 1
  bufferSize : s'.bufferSize = s.bufferSize
  folded : s'.folded = s.folded
  nonneg : 0 ≤ s'.filled
  within : s'.filled ≤ s'.bufferSize

/-- The end of a reader's visit to a section that stays. -/
theorem visit_kept (idle : log.working id = 0) (granted : Option ByteMem) {s : DebugSection}
    (refcount : s.refcount = 2) (nonneg : 0 ≤ s.filled) (within : s.filled ≤ s.bufferSize) :
    ∃ s', ((if s.folded = false then resizeSection granted id
          ((log.replace id s).setWorking id 1)
        else (log.replace id s).setWorking id 1).putSection id).2 = log.replace id s' ∧
      Visited s s' ∧ s'.contents = s.contents := by
  split_ifs with unfolded
  · obtain ⟨s', resized, same⟩ := @resizeSection_used log id granted s
    have size := same.bufferSize
    have filled := same.filled
    rw [resized, putSection_used idle (same.refcount.trans refcount)]
    refine ⟨{ s' with refcount := 1 }, rfl, ⟨rfl, size, same.folded, ?_, ?_⟩, same.contents⟩
    · dsimp only
      omega
    · dsimp only
      omega
  · rw [putSection_used idle refcount]
    exact ⟨_, rfl, ⟨rfl, rfl, rfl, nonneg, within⟩, rfl⟩

theorem drain_used (s : DebugSection) :
    ((log.replace id s).setWorking id 1).drain id =
      (log.replace id { s with filled := 0 }).setWorking id 1 := by
  unfold drain
  rw [setWorking_heap, replace_heap]
  refine setSection_used s _ ?_ rfl
  show log.sectionsTotalFilled + (s.filled - (log.heap id).filled) - s.filled =
    log.sectionsTotalFilled + (0 - (log.heap id).filled)
  omega

theorem addRefcount_used (s : DebugSection) (n : Int) :
    ((log.replace id s).setWorking id 1).addRefcount id n =
      (log.replace id { s with refcount := s.refcount + n }).setWorking id 1 := by
  rw [addRefcount, setWorking_heap, replace_heap]
  exact setSection_used s _ rfl rfl

theorem unfold_used (s : DebugSection) :
    ((log.replace id s).setWorking id 1).unfold id =
      ((log.unlist id).replace id
        { s with refcount := s.refcount + -1, folded := false }).setWorking id 1 := by
  have unlisted : ((log.replace id s).setWorking id 1).unlist id =
      ((log.unlist id).replace id s).setWorking id 1 := rfl
  unfold DebugLog.unfold
  dsimp only
  rw [unlisted, addRefcount_used, setWorking_heap, replace_heap]
  exact @setSection_used (log.unlist id) id { s with refcount := s.refcount + -1 } _ _ _ rfl rfl

/-- A reader's visit to one section: the bytes go to the reader or stay, and the section stays or,
when it was folded and its bytes went, is dropped. -/
theorem readSection_eq (running : log.Running) (mem : id ∈ log.sections) (host : ReadHost)
    (size : Nat) (user : List UInt8) :
    (readSection host size (user, log) id).1 =
        (if Saves host size user id log then user ++ (log.heap id).contents else user) ∧
      ((∃ s, (readSection host size (user, log) id).2 = log.replace id s ∧
          Visited (log.heap id) s ∧
          s.contents = if Saves host size user id log then [] else (log.heap id).contents) ∨
        (log.heap id).folded = true ∧ Saves host size user id log ∧
          ∃ s, (readSection host size (user, log) id).2 = log.drop id s) := by
  obtain ⟨nonneg, within⟩ := running.accounted.within id mem
  have filled : Saves host size user id
      ((log.replace id { log.heap id with refcount := 2 }).setWorking id 1) ↔
        Saves host size user id log := by
    unfold Saves
    rw [setWorking_heap, replace_heap]
  unfold readSection
  dsimp only
  rw [running.getSection mem]
  simp only [setWorking_heap, replace_heap, filled]
  refine ⟨rfl, ?_⟩
  by_cases saved : Saves host size user id log
  · simp only [if_pos saved, drain_used]
    have empty : (0 : Int) ≤ (log.heap id).bufferSize := Int.le_trans nonneg within
    cases folded : (log.heap id).folded with
    | false =>
      simp only [Bool.false_eq_true, and_false, if_false, setWorking_heap, replace_heap]
      obtain ⟨s, kept, visited, contents⟩ := visit_kept (running.idle id) (host.resize id)
        (s := { log.heap id with refcount := 2, filled := 0 }) rfl (Int.le_refl 0) empty
      dsimp only at kept
      rw [folded] at kept
      exact .inl ⟨s, kept, ⟨visited.refcount, visited.bufferSize, visited.folded, visited.nonneg,
        visited.within⟩, contents⟩
    | true =>
      simp only [and_true, if_pos saved, unfold_used, setWorking_heap, replace_heap, if_true]
      obtain ⟨s, resized, same⟩ := @resizeSection_used (log.unlist id) id (host.resize id)
        { log.heap id with refcount := 2 + -1, filled := 0, folded := false }
      have unused : ¬ (log.unlist id).InUse id := by
        rintro (listed | ⟨d, _, held⟩)
        · exact (running.nodup.mem_erase_iff.mp listed).1 rfl
        · have unfolded := (running.held _ id held).2
          rw [folded] at unfolded
          contradiction
      refine .inr ⟨trivial, saved, { s with refcount := 0 }, ?_⟩
      rw [resized]
      exact putSection_last (running.idle id) same.refcount same.filled unused
  · simp only [if_neg saved, if_neg fun both : _ ∧ (log.heap id).folded = true => saved both.1,
      setWorking_heap, replace_heap]
    obtain ⟨s, kept, visited, contents⟩ := visit_kept (running.idle id) (host.resize id)
      (s := { log.heap id with refcount := 2 }) rfl nonneg within
    exact .inl ⟨s, kept, ⟨visited.refcount, visited.bufferSize, visited.folded, visited.nonneg,
      visited.within⟩, contents⟩

/-- One visit keeps the invariant and every other section. -/
theorem Running.readSection (running : log.Running) (mem : id ∈ log.sections) (host : ReadHost)
    (size : Nat) (user : List UInt8) :
    (readSection host size (user, log) id).2.Running ∧
      ∀ i, i ≠ id → (i ∈ (DebugLog.readSection host size (user, log) id).2.sections ↔
          i ∈ log.sections) ∧
        (DebugLog.readSection host size (user, log) id).2.heap i = log.heap i := by
  rcases (readSection_eq running mem host size user).2 with
    ⟨s, kept, visited, -⟩ | ⟨folded, -, s, dropped⟩
  · rw [kept]
    refine ⟨running.replace mem visited.refcount ⟨visited.nonneg, visited.within⟩
      fun isFolded h held => ?_, fun i other => ⟨Iff.rfl, if_neg other⟩⟩
    rw [visited.folded, (running.held h id held).2] at isFolded
    contradiction
  · rw [dropped]
    refine ⟨running.drop mem s fun h held => ?_, fun i other =>
      ⟨running.nodup.mem_erase_iff.trans (and_iff_right other), if_neg other⟩⟩
    rw [(running.held h id held).2] at folded
    contradiction

/-- What a reader's visits to the sections `l` come to; `saved` are the sections whose bytes it
got. -/
structure ReadResult (host : ReadHost) (size : Nat) (l saved : List SectionId)
    (r r' : List UInt8 × DebugLog) : Prop where
  running : r'.2.Running
  others : ∀ i, i ∉ l → (i ∈ r'.2.sections ↔ i ∈ r.2.sections) ∧ r'.2.heap i = r.2.heap i
  sublist : saved.Sublist l
  copied : ∀ i ∈ saved, host.copies i = true
  user : r'.1 = r.1 ++ saved.flatMap fun i => (r.2.heap i).contents
  taken : ∀ i ∈ saved, i ∈ r'.2.sections → (r'.2.heap i).contents = []
  left : ∀ i ∈ l, i ∉ saved → i ∈ r'.2.sections ∧
    (r'.2.heap i).contents = (r.2.heap i).contents ∧
    (host.copies i = true → (size : Int) - r'.1.length < (r.2.heap i).filled)
  bufferSize : ∀ i ∈ l, i ∈ r'.2.sections → (r'.2.heap i).bufferSize = (r.2.heap i).bufferSize

/-- The visited section itself. -/
theorem readSection_self (running : log.Running) (mem : id ∈ log.sections) (host : ReadHost)
    (size : Nat) (user : List UInt8) :
    (Saves host size user id log → id ∈ (readSection host size (user, log) id).2.sections →
      ((readSection host size (user, log) id).2.heap id).contents = []) ∧
    (¬ Saves host size user id log → id ∈ (readSection host size (user, log) id).2.sections ∧
      ((readSection host size (user, log) id).2.heap id).contents = (log.heap id).contents) ∧
    (id ∈ (readSection host size (user, log) id).2.sections →
      ((readSection host size (user, log) id).2.heap id).bufferSize =
        (log.heap id).bufferSize) := by
  rcases (readSection_eq running mem host size user).2 with
    ⟨s, kept, visited, contents⟩ | ⟨-, saves, s, dropped⟩
  · rw [kept, replace_heap]
    refine ⟨fun saves _ => ?_, fun unsaved => ⟨mem, ?_⟩, fun _ => visited.bufferSize⟩
    · rw [contents, if_pos saves]
    · rw [contents, if_neg unsaved]
  · have off : id ∉ (readSection host size (user, log) id).2.sections := by
      rw [dropped]
      exact fun listed => (running.nodup.mem_erase_iff.mp listed).1 rfl
    exact ⟨fun _ listed => absurd listed off, fun unsaved => absurd saves unsaved,
      fun listed => absurd listed off⟩

theorem readSections (host : ReadHost) (size : Nat) {l : List SectionId}
    {r : List UInt8 × DebugLog} (running : r.2.Running) (nodup : l.Nodup)
    (listed : ∀ i ∈ l, i ∈ r.2.sections) :
    ∃ saved, ReadResult host size l saved r (l.foldl (readSection host size) r) := by
  induction l generalizing r with
  | nil =>
    exact ⟨[], running, fun _ _ => ⟨Iff.rfl, rfl⟩, List.Sublist.refl _, fun _ h => (nomatch h),
      (List.append_nil _).symm, fun _ h => (nomatch h), fun _ h => (nomatch h),
      fun _ h => nomatch h⟩
  | cons id l ih =>
    obtain ⟨user, log⟩ := r
    obtain ⟨fresh, nodup⟩ := List.nodup_cons.mp nodup
    have here : id ∈ log.sections := listed id List.mem_cons_self
    obtain ⟨next, others⟩ := running.readSection here host size user
    have apart : ∀ i ∈ l, i ≠ id := fun i hi same => fresh (same ▸ hi)
    obtain ⟨saved, result⟩ := ih next nodup fun i hi =>
      (others i (apart i hi)).1.mpr (listed i (List.mem_cons_of_mem _ hi))
    have later : ∀ i ∈ l, (DebugLog.readSection host size (user, log) id).2.heap i = log.heap i :=
      fun i hi => (others i (apart i hi)).2
    obtain ⟨stays, same⟩ := result.others id fresh
    obtain ⟨emptied, untouched, bufferSize⟩ := readSection_self running here host size user
    have output := (readSection_eq running here host size user).1
    have rest : saved.flatMap (fun i =>
        ((DebugLog.readSection host size (user, log) id).2.heap i).contents) =
          saved.flatMap fun i => (log.heap i).contents := by
      rw [List.flatMap_def, List.flatMap_def]
      exact congrArg List.flatten (List.map_congr_left fun i hi =>
        congrArg DebugSection.contents (later i (result.sublist.subset hi)))
    have beyond : ∀ i, i ∉ id :: l → (i ∈ ((id :: l).foldl (DebugLog.readSection host size)
        (user, log)).2.sections ↔ i ∈ log.sections) ∧ ((id :: l).foldl
          (DebugLog.readSection host size) (user, log)).2.heap i = log.heap i := fun i hi => by
      rw [List.mem_cons, not_or] at hi
      exact ⟨(result.others i hi.2).1.trans (others i hi.1).1,
        (result.others i hi.2).2.trans (others i hi.1).2⟩
    have sizes : ∀ i ∈ id :: l, i ∈ ((id :: l).foldl (DebugLog.readSection host size)
        (user, log)).2.sections → (((id :: l).foldl (DebugLog.readSection host size)
          (user, log)).2.heap i).bufferSize = (log.heap i).bufferSize := fun i hi listed => by
      rcases List.mem_cons.mp hi with rfl | hi
      · exact (congrArg DebugSection.bufferSize same).trans (bufferSize (stays.mp listed))
      · exact (result.bufferSize i hi listed).trans (congrArg _ (later i hi))
    have unread : ∀ i ∈ l, i ∉ saved → _ := fun i hi unsaved => by
      have left := result.left i hi unsaved
      rw [later i hi] at left
      exact left
    by_cases saves : Saves host size user id log
    · rw [if_pos saves] at output
      refine ⟨id :: saved, result.running, beyond, result.sublist.cons_cons id, ?_, ?_, ?_, ?_,
        sizes⟩
      · exact List.forall_mem_cons.mpr ⟨saves.2, result.copied⟩
      · rw [List.flatMap_cons, ← List.append_assoc]
        exact result.user.trans (congrArg₂ (· ++ ·) output rest)
      · refine List.forall_mem_cons.mpr ⟨fun listed => ?_, result.taken⟩
        exact (congrArg DebugSection.contents same).trans (emptied saves (stays.mp listed))
      · intro i hi unsaved
        rw [List.mem_cons, not_or] at unsaved
        exact unread i ((List.mem_cons.mp hi).resolve_left unsaved.1) unsaved.2
    · rw [if_neg saves] at output
      refine ⟨saved, result.running, beyond, result.sublist.cons id, result.copied, ?_,
        result.taken, ?_, sizes⟩
      · exact result.user.trans (congrArg₂ (· ++ ·) output rest)
      · intro i hi unsaved
        rcases List.mem_cons.mp hi with rfl | hi
        · obtain ⟨listed, contents⟩ := untouched saves
          refine ⟨stays.mpr listed, (congrArg DebugSection.contents same).trans contents,
            fun copies => ?_⟩
          have grown : user.length ≤ ((i :: l).foldl (DebugLog.readSection host size)
              (user, log)).1.length := by
            rw [show ((i :: l).foldl (DebugLog.readSection host size) (user, log)).1 = _ from
              result.user, output, List.length_append]
            exact Nat.le_add_right _ _
          have long : (size : Int) - user.length < (log.heap i).filled :=
            Classical.byContradiction fun fits => saves ⟨fits, copies⟩
          show (size : Int) - _ < (log.heap i).filled
          omega
        · exact unread i hi unsaved

theorem Running.read (running : log.Running) (host : ReadHost) (size : Nat) :
    (log.coDebugRead host size).2.Running := by
  obtain ⟨saved, result⟩ := @readSections host size log.sections ([], log) running running.nodup
    fun _ hi => hi
  exact result.running

/-! ## Unloading -/

/-- An open descriptor has the section. -/
def HeldOpen (log : DebugLog) (id : SectionId) : Prop :=
  ∃ d ∈ log.opens, log.holds (.opened d) = some id

/-- The loop of `co_debug_free`, with the sections that it has not visited. -/
structure Unloading (start : DebugLog) (l : List SectionId) (log : DebugLog) : Prop where
  freeing : log.freeing = true
  notReady : log.ready = false
  sections : log.sections = l
  nodup : l.Nodup
  liveNodup : log.ledger.live.Nodup
  live : ∀ id, id ∈ log.ledger.live ↔ id ∈ l
  refcount : ∀ id ∈ l, (log.heap id).refcount = 1
  idle : ∀ id, log.working id = 0
  opens : log.opens = start.opens
  holds : log.holds = start.holds
  noFaults : log.ledger.faults = []

theorem freeListed_eq (live : id ∈ log.ledger.live) (idle : log.working id = 0)
    (refcount : (log.heap id).refcount = 1) :
    freeListed log id =
      { (log.unlist id).replace id { log.heap id with refcount := 0 } with
        sectionsCount := log.sectionsCount - 1
        sectionsTotalSize := log.sectionsTotalSize +
          ((log.heap id).bufferSize - (log.heap id).bufferSize) -
            (log.heap id).bufferSize }.freeSection id := by
  have unlisted :
      ((log.replace id { log.heap id with refcount := 2 }).setWorking id 1).unlist id =
      ((log.unlist id).replace id { log.heap id with refcount := 2 }).setWorking id 1 := rfl
  have idle' : (log.unlist id).working id = 0 := idle
  unfold freeListed
  rw [getSection_eq live idle refcount, unlisted, addRefcount_used, putSection_eq idle']
  rfl

/-- A round of the loop frees its section, which is in use when an open descriptor has it. -/
theorem Unloading.step {start : DebugLog} {l : List SectionId}
    (unloading : Unloading start (id :: l) log) :
    Unloading start l (freeListed log id) ∧
      ((freeListed log id).misfreed = [] ↔ log.misfreed = [] ∧ ¬ start.HeldOpen id) := by
  obtain ⟨freeing, notReady, sections, nodup, liveNodup, live, refcount, idle, opens, holds,
    noFaults⟩ := unloading
  obtain ⟨other, rest⟩ := List.nodup_cons.mp nodup
  have isLive : id ∈ log.ledger.live := (live id).mpr List.mem_cons_self
  have unlisted : (log.unlist id).sections = l := by
    show log.sections.erase id = l
    rw [sections, List.erase_cons_head]
  have inUse : (log.unlist id).InUse id ↔ start.HeldOpen id := by
    unfold InUse HeldOpen
    rw [unlisted, ← opens, ← holds]
    exact or_iff_right other
  rw [freeListed_eq isLive (idle id) (refcount id List.mem_cons_self)]
  refine ⟨⟨freeing, notReady, unlisted, rest, ?_, fun i => ?_, fun i hi => ?_, idle, opens, holds,
    ?_⟩, ?_⟩
  · show (log.ledger.release id).live.Nodup
    rw [Ledger.release_mem isLive]
    exact liveNodup.erase id
  · show i ∈ (log.ledger.release id).live ↔ i ∈ l
    rw [Ledger.release_mem isLive]
    show i ∈ log.ledger.live.erase id ↔ i ∈ l
    rw [liveNodup.mem_erase_iff, live, List.mem_cons]
    constructor
    · rintro ⟨ne, rfl | mem⟩
      · exact absurd rfl ne
      · exact mem
    · exact fun mem => ⟨fun same => other (same ▸ mem), .inr mem⟩
  · have ne : i ≠ id := fun same => other (same ▸ hi)
    show (if i = id then _ else log.heap i).refcount = 1
    rw [if_neg ne]
    exact refcount i (List.mem_cons_of_mem _ hi)
  · show (log.ledger.release id).faults = []
    rw [Ledger.release_mem isLive]
    exact noFaults
  · show (if (log.unlist id).InUse id then id :: log.misfreed else log.misfreed) = [] ↔ _
    by_cases held : start.HeldOpen id
    · rw [if_pos (inUse.mpr held)]
      exact ⟨fun h => (nomatch h), fun h => absurd held h.2⟩
    · rw [if_neg fun h => held (inUse.mp h)]
      exact ⟨fun h => ⟨h, held⟩, fun h => h.1⟩

theorem Unloading.loop {start : DebugLog} {l : List SectionId}
    (unloading : Unloading start l log) :
    Unloading start [] (l.foldl freeListed log) ∧
      ((l.foldl freeListed log).misfreed = [] ↔
        log.misfreed = [] ∧ ∀ id ∈ l, ¬ start.HeldOpen id) := by
  induction l generalizing log with
  | nil => exact ⟨unloading, (and_iff_left fun _ h => nomatch h).symm⟩
  | cons id l ih =>
    obtain ⟨next, misfreed⟩ := unloading.step
    obtain ⟨last, all⟩ := ih next
    refine ⟨last, ?_⟩
    rw [List.foldl_cons, all, misfreed, List.forall_mem_cons, and_assoc]

/-- `co_debug_free` leaves no section, and frees none in use when no open descriptor has one. -/
theorem Running.free (running : log.Running) :
    Unloading log [] log.coDebugFree ∧
      (log.coDebugFree.misfreed = [] ↔ ¬ log.UnloadsInUse .free) := by
  have start : Unloading log log.sections { log with ready := false, freeing := true } :=
    ⟨rfl, rfl, rfl, running.nodup, running.liveNodup, running.live,
      fun id hi => running.refcount hi, running.idle, rfl, rfl, running.noFaults⟩
  obtain ⟨last, misfreed⟩ := start.loop
  refine ⟨last, misfreed.trans ?_⟩
  constructor
  · rintro ⟨-, unheld⟩ ⟨d, mem, held⟩
    obtain ⟨id, has⟩ := Option.ne_none_iff_exists'.mp held
    exact unheld id (running.held _ id has).1 ⟨d, mem, has⟩
  · intro unused
    refine ⟨running.unused, fun id _ => ?_⟩
    rintro ⟨d, mem, has⟩
    exact unused ⟨d, mem, has ▸ Option.some_ne_none id⟩

theorem Running.unloaded (running : log.Running) (unused : ¬ log.UnloadsInUse .free) :
    log.coDebugFree.Unloaded := by
  obtain ⟨last, misfreed⟩ := running.free
  refine ⟨last.freeing, last.notReady, last.sections, ?_, fun d => ?_, last.noFaults,
    misfreed.mpr unused⟩
  · exact List.eq_nil_iff_forall_not_mem.mpr fun id mem => nomatch (last.live id).mp mem
  · rw [last.holds]
    by_cases mem : d ∈ log.opens
    · exact Classical.byContradiction fun held => unused ⟨d, mem, held⟩
    · exact running.closed d mem

/-! ## After the driver was unloaded -/

/-- While the sections are freed, a log request changes the driver's index at most. -/
theorem coDebugWriteLog_freeing (freeing : log.freeing = true) (holder : SectionHolder)
    (host : WriteHost) (vec : List DebugWriteVector) :
    ∃ n, (log.coDebugWriteLog holder host vec).2 = { log with driverIndex := n } := by
  have ignored : ∀ (log : DebugLog) (vec : List DebugWriteVector), log.freeing = true →
      (log.coDebugWritev holder host vec).2 = log := fun log vec freeing => by
    unfold coDebugWritev
    rw [freeing, if_pos rfl, ite_self]
  unfold coDebugWriteLog
  split_ifs
  · exact ⟨log.driverIndex, rfl⟩
  · exact ⟨_, ignored { log with driverIndex := (log.driverIndex + 1) % wordSize } _ freeing⟩

theorem Unloaded.write (unloaded : log.Unloaded) (holder : SectionHolder) (host : WriteHost)
    (vec : List DebugWriteVector) : (log.coDebugWriteLog holder host vec).2.Unloaded := by
  obtain ⟨n, same⟩ := coDebugWriteLog_freeing unloaded.freeing holder host vec
  rw [same]
  exact { unloaded with }

/-- Every later call leaves the log empty. -/
theorem Unloaded.step (unloaded : log.Unloaded) (c : Call) : (step c log).Unloaded := by
  cases c with
  | opened d =>
    show (log.coManagerOpen d).Unloaded
    unfold coManagerOpen
    split_ifs with opened
    · exact unloaded
    · exact { unloaded with
        noHolder := fun d' => by
          show (if SectionHolder.opened d' = .opened d then none else log.holds (.opened d')) = none
          rw [unloaded.noHolder d', ite_self] }
  | writeLog d host vec =>
    show (if d ∈ log.opens then (log.coDebugWriteLog (.opened d) host vec).2 else log).Unloaded
    split_ifs
    · exact unloaded.write _ host vec
    · exact unloaded
  | buf host size bytes =>
    show (log.coDebugBuf host size bytes).Unloaded
    unfold coDebugBuf
    rwa [if_pos unloaded.notReady]
  | read host size =>
    show (log.sections.foldl (DebugLog.readSection host size) ([], log)).2.Unloaded
    rwa [unloaded.sections]
  | close granted d =>
    show (log.coManagerClose granted d).Unloaded
    unfold coManagerClose
    by_cases unopened : d ∉ log.opens
    · rwa [if_pos unopened]
    · rw [if_neg unopened, unloaded.noHolder d]
      exact { unloaded with }
  | free =>
    show (log.sections.foldl freeListed { log with ready := false, freeing := true }).Unloaded
    rw [unloaded.sections]
    exact { unloaded with freeing := rfl, notReady := rfl, sections := rfl }

/-! ## Runs -/

theorem Running.step (running : log.Running) {c : Call} (notFree : c ≠ .free) :
    (step c log).Running := by
  cases c with
  | opened d => exact running.managerOpen d
  | writeLog d host vec =>
    show (if d ∈ log.opens then (log.coDebugWriteLog (.opened d) host vec).2 else log).Running
    split_ifs with opened
    · exact @Running.writeLog log running (.opened d) opened host vec
    · exact running
  | buf host size bytes => exact running.buf host size bytes
  | read host size => exact running.read host size
  | close granted d => exact running.close granted d
  | free => exact absurd rfl notFree

/-- The log is sound in every state that the calls reach exactly when the driver is never
unloaded while an open descriptor has a section. -/
theorem debugLog_sound_iff (calls : List Call) :
    (∀ before, before <+: calls → (run step before coDebugInit).Sound) ↔
      RunOk step (fun log c => ¬ log.UnloadsInUse c) calls coDebugInit := by
  have start : coDebugInit.Running ∨ coDebugInit.Unloaded := .inl coDebugInit_running
  refine @forall_prefix_iff_runOk_of_breaks _ _ step (fun log c => ¬ log.UnloadsInUse c)
    (fun log => log.Running ∨ log.Unloaded) Sound ?_ ?_ ?_ calls coDebugInit start
  · rintro log (running | unloaded)
    · exact running.sound
    · exact unloaded.sound
  · rintro log c (running | unloaded) unused
    · by_cases isFree : c = .free
      · subst isFree
        exact .inr (running.unloaded unused)
      · exact .inl (running.step isFree)
    · exact .inr (unloaded.step c)
  · rintro log c (running | unloaded) inUse sound
    · rw [not_not] at inUse
      cases c with
      | free => exact running.free.2.mp sound.freed.unused inUse
      | _ => exact inUse
    · rw [not_not] at inUse
      cases c with
      | free =>
        obtain ⟨d, _, held⟩ := inUse
        exact held (unloaded.noHolder d)
      | _ => exact inUse

/-- A descriptor that logged a record is open when the driver is unloaded. -/
theorem debugLog_unloadInUse :
    ¬ (run step [.opened 0, .writeLog 0 ⟨true, some fun _ => 0, .ok, none⟩ [], .free]
      coDebugInit).Sound := by
  intro sound
  have unused := sound.freed.unused
  revert unused
  decide +kernel

end DebugLog

end CoLinux
