import CoLinux.Kernel.DebugRecords

/-!
# Records that the debug log loses

A section may grow to 64 KB, but `resize_section` returns whenever the new size differs from the
old one, so every section keeps the 4 KB it starts with. A record is lost once those are full.
-/

namespace CoLinux

open Lib

/-! ## The bytes of a vector -/

mutual

/-- The bytes that a vector stands for. -/
def DebugWriteVector.bytes : DebugWriteVector → List UInt8
  | .ptr size bytes => bytes.slice 0 size
  | .vec _ vec => vectorBytes vec

def vectorBytes : List DebugWriteVector → List UInt8
  | [] => []
  | v :: vs => v.bytes ++ vectorBytes vs

end

mutual

/-- Every size in the vector is that of its bytes. -/
def DebugWriteVector.WellSized : DebugWriteVector → Prop
  | .ptr _ _ => True
  | .vec size vec => size = (vectorBytes vec).length ∧ VectorsWellSized vec

def VectorsWellSized : List DebugWriteVector → Prop
  | [] => True
  | v :: vs => v.WellSized ∧ VectorsWellSized vs

end

namespace DebugLog

theorem WellSized.length {v : DebugWriteVector} (sized : v.WellSized) :
    v.size = v.bytes.length := by
  cases v with
  | ptr size bytes => exact (ByteMem.length_slice bytes 0 size).symm
  | vec size vec => exact sized.1

theorem sum_sizes {vec : List DebugWriteVector} (sized : VectorsWellSized vec) :
    (vec.map DebugWriteVector.size).sum = (vectorBytes vec).length := by
  induction vec with
  | nil => rfl
  | cons v vs ih =>
    rw [List.map_cons, List.sum_cons, ih sized.2, WellSized.length sized.1, vectorBytes,
      List.length_append]

theorem vectorSize_eq {vec : List DebugWriteVector} (sized : VectorsWellSized vec)
    (word : (vectorBytes vec).length < wordSize) :
    coDebugWriteVectorSize vec = (vectorBytes vec).length := by
  rw [coDebugWriteVectorSize, sum_sizes sized]
  exact Nat.mod_eq_of_lt word

mutual

/-- The copy of a vector stores its bytes. -/
theorem copy_slice (v : DebugWriteVector) (sized : v.WellSized) (dest : Nat) (b : ByteMem)
    (room : dest + v.bytes.length < wordSize) :
    (v.copy dest b).slice 0 (dest + v.bytes.length) = b.slice 0 dest ++ v.bytes := by
  match v with
  | .ptr size bytes =>
    rw [DebugWriteVector.bytes, ByteMem.length_slice]
    exact ByteMem.slice_copyBytes_end b dest size bytes
  | .vec size vec => exact memcpyVector_slice vec sized.2 dest b room

theorem memcpyVector_slice (vec : List DebugWriteVector) (sized : VectorsWellSized vec)
    (dest : Nat) (b : ByteMem) (room : dest + (vectorBytes vec).length < wordSize) :
    (memcpyVector dest b vec).slice 0 (dest + (vectorBytes vec).length) =
      b.slice 0 dest ++ vectorBytes vec := by
  match vec with
  | [] => exact (List.append_nil _).symm
  | v :: vs =>
    rw [vectorBytes, List.length_append] at room
    have next : (dest + v.size) % wordSize = dest + v.bytes.length := by
      rw [WellSized.length sized.1]
      exact Nat.mod_eq_of_lt (by omega)
    have first := copy_slice v sized.1 dest b (by omega)
    have rest := memcpyVector_slice vs sized.2 (dest + v.bytes.length) (v.copy dest b) (by omega)
    rw [memcpyVector, next, vectorBytes, List.length_append, ← Nat.add_assoc, rest, first,
      List.append_assoc]

end

/-- The vector around a caller's has the bytes of a record. -/
theorem vectorBytes_logVector {vec : List DebugWriteVector} (sized : VectorsWellSized vec)
    (word : (vectorBytes vec).length < wordSize) (index : Nat) :
    vectorBytes (logVector vec index) = logRecord (vectorBytes vec) index := by
  unfold logVector
  rw [vectorSize_eq sized word]
  simp only [vectorBytes, DebugWriteVector.bytes, List.append_nil]
  rfl

theorem logVector_sized {vec : List DebugWriteVector} (sized : VectorsWellSized vec)
    (word : (vectorBytes vec).length < wordSize) (index : Nat) :
    VectorsWellSized (logVector vec index) :=
  ⟨trivial, ⟨vectorSize_eq sized word, sized⟩, ⟨rfl, trivial, trivial, trivial⟩, trivial⟩

/-! ## Writes -/

/-- A call of `co_debug_write_log`, with the blocks that the host allocates for it. -/
structure LogWrite where
  writer : SectionHolder
  vec : List DebugWriteVector
  sized : VectorsWellSized vec
  word : (vectorBytes vec).length < wordSize
  buffer : ByteMem
  resize : ByteMem

namespace LogWrite

def payload (w : LogWrite) : List UInt8 := vectorBytes w.vec

def host (w : LogWrite) : WriteHost where
  malloc := true
  buffer := some w.buffer
  mutex := .ok
  resize := some w.resize

def apply (w : LogWrite) (log : DebugLog) : DebugLog :=
  (log.coDebugWriteLog w.writer w.host w.vec).2

end LogWrite

/-- The log after the load of the driver, with some descriptors open. -/
def emptyLog (opens : List Nat) : DebugLog := { coDebugInit with opens := opens }

/-- The earlier records of a writer. -/
def earlier (log : DebugLog) (writer : SectionHolder) : List UInt8 :=
  ((log.holds writer).map fun id => (log.heap id).contents).getD []

/-- The writer's section is at its maximum size, without room for the record. -/
def AtMaximum (log : DebugLog) (w : LogWrite) : Prop :=
  ∃ id, log.holds w.writer = some id ∧
    coDebugSectionBufferMaxSize ≤ (log.heap id).bufferSize ∧
    (log.heap id).bufferSize - (log.heap id).filled < (w.payload.length + 8 : Nat)

/-- `after` has the record behind the earlier ones of the writer, in the same section. -/
def Extends (log : DebugLog) (w : LogWrite) (after : DebugLog) : Prop :=
  ∃ id ∈ after.sections, after.holds w.writer = some id ∧
    (∀ old, log.holds w.writer = some old → id = old) ∧
    (after.heap id).contents = log.earlier w.writer ++ logRecord w.payload after.driverIndex

/-- The write stores its record unless one of the limits is reached. -/
def LosesAtLimits (log : DebugLog) (w : LogWrite) : Prop :=
  w.payload.length ≤ 0xf8 →
    coDebugMaxFill < log.sectionsTotalFilled ∨ log.AtMaximum w ∨ log.Extends w (w.apply log)

/-- How many bytes of the writer's section are in use. -/
def filledBy (log : DebugLog) (writer : SectionHolder) : Int :=
  ((log.holds writer).map fun id => (log.heap id).filled).getD 0

/-- The record fits the size that sections start with, or the log is full. -/
def FitsStart (log : DebugLog) (w : LogWrite) : Prop :=
  w.payload.length ≤ 0xf8 →
    coDebugMaxFill < log.sectionsTotalFilled ∨
      log.filledBy w.writer + (w.payload.length + 8 : Nat) ≤ coDebugSectionBufferStartSize

instance (log : DebugLog) (w : LogWrite) : Decidable (log.FitsStart w) :=
  inferInstanceAs (Decidable (_ → _ ∨ _))

/-- What holds between the writes: no section has grown. -/
structure Unresized (log : DebugLog) : Prop where
  running : log.Running
  start : ∀ id ∈ log.sections, (log.heap id).bufferSize = coDebugSectionBufferStartSize

variable {log : DebugLog} {id : SectionId}

theorem length_contents (within : 0 ≤ (log.heap id).filled) :
    ((log.heap id).contents.length : Int) = (log.heap id).filled := by
  unfold DebugSection.contents
  rw [ByteMem.length_slice]
  omega

/-! ## What an append adds to the total -/

theorem resizeSection_filled (granted : Option ByteMem) (id : SectionId) (log : DebugLog) :
    (resizeSection granted id log).sectionsTotalFilled = log.sectionsTotalFilled := by
  obtain ⟨s, resized, same⟩ := resizeSection_eq granted id log
  have filled := same.filled
  rw [resized]
  show log.sectionsTotalFilled + (s.filled - (log.heap id).filled) = _
  omega

/-- An append that has room adds the size of the vector. -/
theorem appendToBuffer_filled (granted : Option ByteMem) {vec : List DebugWriteVector}
    (room : (log.heap id).filled + coDebugWriteVectorSize vec ≤ (log.heap id).bufferSize) :
    (appendToBuffer granted id vec log).2.sectionsTotalFilled =
      log.sectionsTotalFilled + coDebugWriteVectorSize vec := by
  obtain ⟨s, resized, same⟩ := resizeSection_eq granted id log
  have total := resizeSection_filled granted id log
  have size := same.bufferSize
  have filled := same.filled
  unfold appendToBuffer
  dsimp only
  rw [total, resized, replace_heap, if_neg (by omega)]

theorem putSection_filled (id : SectionId) (log : DebugLog) :
    (log.putSection id).2.sectionsTotalFilled = log.sectionsTotalFilled := by
  unfold putSection
  dsimp only
  split_ifs <;> rfl

theorem appendAndPut_filled (holder : SectionHolder) (host : WriteHost)
    {vec : List DebugWriteVector}
    (room : (log.heap id).filled + coDebugWriteVectorSize vec ≤ (log.heap id).bufferSize) :
    (appendAndPut holder host vec id log).2.sectionsTotalFilled =
      log.sectionsTotalFilled + coDebugWriteVectorSize vec := by
  have put := (putSection_filled id _).trans (appendToBuffer_filled host.resize room)
  unfold appendAndPut
  dsimp only
  split_ifs
  · exact put
  · exact put

theorem getSection_same (id : SectionId) (log : DebugLog) :
    (log.getSection id).sectionsTotalFilled = log.sectionsTotalFilled ∧
      (log.getSection id).heap id =
        { log.heap id with refcount := (log.heap id).refcount + 1 } := by
  have touched : (log.touch id).heap = log.heap := by
    unfold touch
    split_ifs <;> rfl
  refine ⟨?_, ?_⟩
  · unfold getSection touch
    split_ifs <;> rfl
  · unfold getSection addRefcount
    rw [setWorking_heap, setSection_heap, touched]

/-- A call that is not refused and has room adds the size of its vector. -/
theorem coDebugWritev_filled (unresized : log.Unresized) (w : LogWrite)
    {vec : List DebugWriteVector} (open_ : ¬coDebugMaxFill < log.sectionsTotalFilled)
    (room : log.filledBy w.writer + coDebugWriteVectorSize vec ≤ coDebugSectionBufferStartSize) :
    (log.coDebugWritev w.writer w.host vec).2.sectionsTotalFilled =
      log.sectionsTotalFilled + coDebugWriteVectorSize vec := by
  unfold coDebugWritev
  rw [if_neg open_, unresized.running.notFreeing, if_neg (by decide)]
  cases has : log.holds w.writer with
  | some id =>
    obtain ⟨listed, -⟩ := unresized.running.held w.writer id has
    obtain ⟨total, heap⟩ := getSection_same id log
    have start := unresized.start id listed
    have filled : log.filledBy w.writer = (log.heap id).filled := by
      unfold filledBy
      rw [has]
      rfl
    rw [← total]
    refine appendAndPut_filled w.writer w.host ?_
    rw [heap]
    dsimp only
    rw [start, ← filled]
    exact room
  | none =>
    have filled : log.filledBy w.writer = 0 := by
      unfold filledBy
      rw [has]
      rfl
    rw [filled, Int.zero_add] at room
    have new : (log.withNew w.buffer w.writer).heap log.next = newSection w.buffer 1 :=
      setSection_heap _
    refine Eq.subst (motive := fun created : DebugLog =>
      (appendAndPut w.writer w.host vec log.next (((created.getSection log.next).setHolds w.writer
        (some log.next)).addRefcount log.next 1)).2.sectionsTotalFilled = _)
      (@created_eq log w.buffer) ?_
    rw [getSection_created (unresized.running.idle _)]
    refine (appendAndPut_filled w.writer w.host ?_).trans ?_
    · rw [setWorking_heap, replace_heap]
      exact (Int.zero_add _).trans_le room
    · show log.sectionsTotalFilled + ((newSection w.buffer 2).filled -
        ((log.withNew w.buffer w.writer).heap log.next).filled) + _ = _
      rw [new]
      exact congrArg (· + _) (Int.add_zero _)

/-! ## What one write does -/

/-- The vector that `co_debug_write_log` passes on. -/
theorem LogWrite.size_logVector (w : LogWrite) (short : w.payload.length ≤ 0xf8) (index : Nat) :
    coDebugWriteVectorSize (logVector w.vec index) = w.payload.length + 8 := by
  have record := vectorBytes_logVector w.sized w.word index
  have length : (vectorBytes (logVector w.vec index)).length = w.payload.length + 8 := by
    rw [record, length_logRecord]
    rfl
  rw [← length]
  refine vectorSize_eq (logVector_sized w.sized w.word index) ?_
  rw [length]
  exact Nat.lt_of_le_of_lt (Nat.add_le_add_right short 8) (by decide)

theorem LogWrite.apply_eq (w : LogWrite) (short : w.payload.length ≤ 0xf8) (log : DebugLog) :
    w.apply log = (DebugLog.coDebugWritev w.writer w.host
      (logVector w.vec ((log.driverIndex + 1) % wordSize))
      { log with driverIndex := (log.driverIndex + 1) % wordSize }).2 := by
  have size : ¬0xf8 < coDebugWriteVectorSize w.vec := by
    rw [vectorSize_eq w.sized w.word]
    exact Nat.not_lt.mpr short
  unfold LogWrite.apply coDebugWriteLog
  rw [if_neg size]

/-- An append to a section that has not grown leaves it alone or stores the record. -/
theorem Appended.record {w : LogWrite} {index : Nat} {s s' : DebugSection}
    (appended : Appended (logVector w.vec index) s s') (short : w.payload.length ≤ 0xf8)
    (nonneg : 0 ≤ s.filled) (start : s.bufferSize = coDebugSectionBufferStartSize) :
    s'.filled = s.filled ∨ s'.contents = s.contents ++ logRecord w.payload index := by
  refine appended.contents.imp And.left ?_
  rintro ⟨filled, b, before, buffer⟩
  have within := appended.within
  have size := appended.bufferSize
  have bytes := vectorBytes_logVector w.sized w.word index
  have length : (vectorBytes (logVector w.vec index)).length = w.payload.length + 8 := by
    rw [bytes, length_logRecord]
    rfl
  rw [w.size_logVector short] at filled
  have room : s.filled.toNat + (w.payload.length + 8) < wordSize := by
    have : coDebugSectionBufferStartSize < (wordSize : Nat) := by decide
    omega
  have stored := memcpyVector_slice (logVector w.vec index) (logVector_sized w.sized w.word index)
    s.filled.toNat b (by rwa [length])
  rw [length, bytes, before] at stored
  have next : s'.filled.toNat = s.filled.toNat + (w.payload.length + 8) := by omega
  show s'.buffer.slice 0 s'.filled.toNat = _
  rw [next, buffer]
  exact stored

/-- A write stores nothing, or its record behind the earlier ones. -/
theorem Unresized.write_cases (unresized : log.Unresized) {w : LogWrite}
    (short : w.payload.length ≤ 0xf8) :
    (w.apply log).sectionsTotalFilled = log.sectionsTotalFilled ∨ log.Extends w (w.apply log) := by
  rw [w.apply_eq short]
  generalize (log.driverIndex + 1) % wordSize = index
  rcases coDebugWritev_eq (unresized.running.withIndex index) w.writer w.host
      (logVector w.vec index) with
    same | ⟨base, id, s, result, ⟨rfl, has⟩ | ⟨rfl, none, buffer, rfl⟩, -, appended⟩
  · exact .inl (by rw [same])
  · have has : log.holds w.writer = some id := has
    obtain ⟨listed, -⟩ := unresized.running.held w.writer id has
    obtain ⟨nonneg, -⟩ := unresized.running.accounted.within id listed
    rw [result]
    rcases Appended.record appended short nonneg (unresized.start id listed) with kept | stored
    · refine .inl ?_
      show log.sectionsTotalFilled + (s.filled - (log.heap id).filled) = _
      have kept : s.filled = (log.heap id).filled := kept
      omega
    · refine .inr ⟨id, listed, has, ?_, ?_⟩
      · intro old hold
        exact Option.some.inj (has.symm.trans hold)
      · rw [replace_heap, stored]
        unfold earlier
        rw [has]
        rfl
  · have none : log.holds w.writer = Option.none := none
    have new : ({ log with driverIndex := index }.withNew buffer w.writer).heap log.next =
      newSection buffer 1 := setSection_heap _
    rw [new] at appended
    rw [result]
    rcases Appended.record appended short (Int.le_refl 0) rfl with kept | stored
    · refine .inl ?_
      show log.sectionsTotalFilled + (s.filled -
        (({ log with driverIndex := index }.withNew buffer w.writer).heap log.next).filled) = _
      rw [new, kept]
      exact Int.add_zero _
    · refine .inr ⟨log.next, List.mem_append_right _ List.mem_cons_self, if_pos rfl, ?_, ?_⟩
      · intro old hold
        rw [none] at hold
        cases hold
      · rw [replace_heap, stored]
        unfold earlier
        rw [none]
        rfl

theorem Unresized.writev (unresized : log.Unresized) {writer : SectionHolder}
    (valid : log.Valid writer) (host : WriteHost) (vec : List DebugWriteVector) :
    (log.coDebugWritev writer host vec).2.Unresized := by
  refine ⟨unresized.running.writev valid host vec, ?_⟩
  rcases coDebugWritev_eq unresized.running writer host vec with
    same | ⟨base, id, s, result, ⟨rfl, has⟩ | ⟨rfl, -, buffer, rfl⟩, -, appended⟩
  · rw [same]
    exact unresized.start
  · obtain ⟨listed, -⟩ := unresized.running.held writer id has
    rw [result]
    intro i hi
    show (if i = id then s else base.heap i).bufferSize = _
    split_ifs with here
    · rw [appended.bufferSize]
      exact unresized.start id listed
    · exact unresized.start i hi
  · have new : (log.withNew buffer writer).heap log.next = newSection buffer 1 := setSection_heap _
    rw [new] at appended
    rw [result]
    intro i hi
    show (if i = log.next then s else if i = log.next then _ else log.heap i).bufferSize = _
    split_ifs with here
    · exact appended.bufferSize
    · rcases List.mem_append.mp hi with listed | fresh
      · exact unresized.start i listed
      · exact absurd (List.mem_singleton.mp fresh) here

theorem Unresized.apply (unresized : log.Unresized) {w : LogWrite} (valid : log.Valid w.writer) :
    (w.apply log).Unresized := by
  by_cases short : w.payload.length ≤ 0xf8
  · rw [w.apply_eq short]
    have indexed : ({ log with driverIndex := (log.driverIndex + 1) % wordSize } :
        DebugLog).Unresized :=
      ⟨unresized.running.withIndex _, unresized.start⟩
    refine indexed.writev ?_ _ _
    cases h : w.writer with
    | driver => trivial
    | opened d =>
      rw [h] at valid
      exact valid
  · have long : 0xf8 < coDebugWriteVectorSize w.vec := by
      rw [vectorSize_eq w.sized w.word]
      exact Nat.not_le.mp short
    unfold LogWrite.apply coDebugWriteLog
    rw [if_pos long]
    exact unresized

theorem Unresized.length_earlier (unresized : log.Unresized) (writer : SectionHolder) :
    ((log.earlier writer).length : Int) = log.filledBy writer := by
  unfold earlier filledBy
  cases has : log.holds writer with
  | none => rfl
  | some id =>
    obtain ⟨listed, -⟩ := unresized.running.held writer id has
    exact length_contents (unresized.running.accounted.within id listed).1

/-- A write keeps its record exactly when the record fits the size that sections start with. -/
theorem Unresized.losesAtLimits_iff (unresized : log.Unresized) {w : LogWrite}
    (valid : log.Valid w.writer) : log.LosesAtLimits w ↔ log.FitsStart w := by
  constructor
  · intro kept short
    rcases kept short with full | ⟨id, has, large, -⟩ | ⟨id, listed, -, -, contents⟩
    · exact .inl full
    · obtain ⟨listed, -⟩ := unresized.running.held w.writer id has
      rw [unresized.start id listed] at large
      exact absurd large (by decide)
    · have after := unresized.apply valid
      obtain ⟨nonneg, within⟩ := after.running.accounted.within id listed
      have filled := length_contents nonneg
      have before := unresized.length_earlier w.writer
      have record := length_logRecord w.payload (w.apply log).driverIndex
      rw [contents, List.length_append, record] at filled
      rw [after.start id listed] at within
      right
      omega
  · intro fits short
    rcases fits short with full | room
    · exact .inl full
    by_cases full : coDebugMaxFill < log.sectionsTotalFilled
    · exact .inl full
    rcases unresized.write_cases short with dropped | stored
    · -- the total has grown by a record
      have indexed : ({ log with driverIndex := (log.driverIndex + 1) % wordSize } :
          DebugLog).Unresized :=
        ⟨unresized.running.withIndex _, unresized.start⟩
      have size := w.size_logVector short ((log.driverIndex + 1) % wordSize)
      have grown := coDebugWritev_filled indexed w full (by rwa [size])
      rw [w.apply_eq short, grown, size] at dropped
      have : (0 : Int) < (w.payload.length + 8 : Nat) := by omega
      exact absurd dropped (by dsimp only; omega)
    · exact .inr (.inr stored)

/-! ## Runs -/

theorem LogWrite.apply_opens (unresized : log.Unresized) (w : LogWrite) :
    (w.apply log).opens = log.opens := by
  unfold LogWrite.apply coDebugWriteLog
  split_ifs with long
  · rfl
  dsimp only
  rcases coDebugWritev_eq (unresized.running.withIndex ((log.driverIndex + 1) % wordSize))
      w.writer w.host (logVector w.vec ((log.driverIndex + 1) % wordSize)) with
    same | ⟨base, id, s, result, ⟨rfl, -⟩ | ⟨-, -, buffer, rfl⟩, -, -⟩
  · rw [same]
  · rw [result]
    rfl
  · rw [result]
    rfl

theorem emptyLog_unresized (opens : List Nat) : (emptyLog opens).Unresized :=
  ⟨coDebugInit_running.withOpens fun _ _ => rfl, fun _ h => nomatch h⟩

/-- Records are lost at the limits only, in exactly the runs in which every record fits the size
that sections start with. -/
theorem losesAtLimits_iff_fitsStart (opens : List Nat) {ws : List LogWrite}
    (valid : ∀ w ∈ ws, (emptyLog opens).Valid w.writer) :
    RunOk LogWrite.apply LosesAtLimits ws (emptyLog opens) ↔
      RunOk LogWrite.apply FitsStart ws (emptyLog opens) := by
  have writer : ∀ (log : DebugLog) (w : LogWrite), log.opens = opens →
      (emptyLog opens).Valid w.writer → log.Valid w.writer := by
    intro log w same valid
    cases h : w.writer with
    | driver => trivial
    | opened d =>
      rw [h] at valid
      show d ∈ log.opens
      rw [same]
      exact valid
  refine @runOk_iff_of_invariant _ _ LogWrite.apply LosesAtLimits FitsStart
    (fun log => log.Unresized ∧ log.opens = opens) (fun w => (emptyLog opens).Valid w.writer)
    ?_ ?_ ws (emptyLog opens) ?_ valid
  · rintro log w ⟨unresized, same⟩ valid
    exact ⟨unresized.apply (writer log w same valid), (w.apply_opens unresized).trans same⟩
  · rintro log w ⟨unresized, same⟩ valid
    exact unresized.losesAtLimits_iff (writer log w same valid)
  · exact ⟨emptyLog_unresized opens, rfl⟩

/-- A record of the driver with the longest payload. -/
def longRecord : LogWrite where
  writer := .driver
  vec := [.ptr 0xf8 fun _ => 0x41]
  sized := ⟨trivial, trivial⟩
  word := by
    simp only [vectorBytes, DebugWriteVector.bytes, List.append_nil, ByteMem.length_slice]
    decide
  buffer := fun _ => 0
  resize := fun _ => 0

theorem losesAtLimits_iff_fitsStart_longRecords :
    RunOk LogWrite.apply LosesAtLimits [longRecord, longRecord] (emptyLog []) := by
  refine (losesAtLimits_iff_fitsStart [] fun w hw => ?_).mpr (by decide +kernel)
  rcases List.mem_cons.mp hw with rfl | hw
  · trivial
  · rw [List.mem_singleton.mp hw]
    trivial

/-- The section is full after 16 of these records, which are 256 bytes each. The next one is
lost. -/
theorem longRecord_lost :
    (run LogWrite.apply (List.replicate 16 longRecord) (emptyLog [])).sectionsTotalFilled =
        0x1000 ∧
      (run LogWrite.apply (List.replicate 17 longRecord) (emptyLog [])).sectionsTotalFilled =
        0x1000 ∧
      ¬RunOk LogWrite.apply LosesAtLimits (List.replicate 17 longRecord) (emptyLog []) := by
  refine ⟨by decide +kernel, by decide +kernel, fun kept => ?_⟩
  have unresized : (run LogWrite.apply (List.replicate 16 longRecord) (emptyLog [])).Unresized :=
    @run_invariant _ _ LogWrite.apply (fun _ w => w = longRecord) _
      (fun _ _ unresized same => unresized.apply (same ▸ trivial)) _ _ (emptyLog_unresized [])
      (runOk_of_forall fun _ hw => List.eq_of_mem_replicate hw)
  have last := ((runOk_append _ _ (List.replicate 16 longRecord) [longRecord] _).mp kept).2.1
  have fits := (unresized.losesAtLimits_iff (w := longRecord) trivial).mp last
  revert fits
  decide +kernel

end DebugLog

end CoLinux
