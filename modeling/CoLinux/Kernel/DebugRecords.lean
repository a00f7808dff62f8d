import CoLinux.Common.DebugRecord
import CoLinux.Kernel.DebugAccounting

/-!
# The records in the debug log

The callers of `co_debug_write_log` pass one flat vector. What is stored for it is a record of
`tlvFraming` whatever the vector holds, since the length of the record is taken from the size of
the vector and the size is checked. So every section holds whole records, and a reader gets whole
records.
-/

namespace CoLinux

open Lib

/-- A log record as `co_debug_write_log` stores it. -/
def logRecord (payload : List UInt8) (index : Nat) : List UInt8 :=
  coDebugTypeTlv :: UInt8.ofNat (payload.length + 6) ::
    (payload ++ (Tlv.mk coDebugTypeDriverIndex (wordBytes index)).encode)

theorem length_logRecord (payload : List UInt8) (index : Nat) :
    (logRecord payload index).length = payload.length + 8 := by
  simp [logRecord, Tlv.encode, wordBytes]

theorem logRecord_record {payload : List UInt8} (index : Nat) (short : payload.length ≤ 0xf8) :
    tlvFraming.Record (logRecord payload index) := by
  have length := length_logRecord payload index
  have byte : (UInt8.ofNat (payload.length + 6)).toNat = payload.length + 6 := by
    rw [UInt8.toNat_ofNat']
    exact Nat.mod_eq_of_lt (by omega)
  refine ⟨?_, ?_⟩
  · rw [length]
    exact Nat.le_add_left 2 (payload.length + 6)
  · rw [length, Framing.recordLength]
    show _ = 2 + (UInt8.ofNat (payload.length + 6)).toNat
    omega

/-- The bytes are whole records. -/
def Whole (bytes : List UInt8) : Prop :=
  ∃ records : List (List UInt8), (∀ r ∈ records, tlvFraming.Record r) ∧ records.flatten = bytes

theorem Whole.nil : Whole [] := ⟨[], fun _ h => (nomatch h), rfl⟩

theorem Whole.single {r : List UInt8} (record : tlvFraming.Record r) : Whole r :=
  ⟨[r], List.forall_mem_singleton.mpr record, List.flatten_singleton⟩

theorem Whole.append {xs ys : List UInt8} : Whole xs → Whole ys → Whole (xs ++ ys) := by
  rintro ⟨front, fronts, rfl⟩ ⟨back, backs, rfl⟩
  refine ⟨front ++ back, fun r hr => ?_, List.flatten_append⟩
  rcases List.mem_append.mp hr with mem | mem
  · exact fronts r mem
  · exact backs r mem

theorem Whole.flatMap {α : Type} {l : List α} {f : α → List UInt8} (h : ∀ a ∈ l, Whole (f a)) :
    Whole (l.flatMap f) := by
  induction l with
  | nil => exact Whole.nil
  | cons a l ih =>
    rw [List.flatMap_cons]
    exact (h a List.mem_cons_self).append (ih fun b hb => h b (List.mem_cons_of_mem _ hb))

/-! ## Storing a record -/

namespace DebugLog

theorem size_ptr (bytes : ByteMem) {size : Nat} (h : size < wordSize) :
    coDebugWriteVectorSize [.ptr size bytes] = size := by
  simp only [coDebugWriteVectorSize, DebugWriteVector.size, List.map_cons, List.map_nil,
    List.sum_singleton]
  exact Nat.mod_eq_of_lt h

theorem size_logVector (bytes : ByteMem) {size : Nat} (index : Nat) (short : size ≤ 0xf8) :
    coDebugWriteVectorSize (logVector [.ptr size bytes] index) = size + 8 := by
  unfold logVector
  rw [size_ptr bytes (Nat.lt_of_le_of_lt short (by decide))]
  simp only [coDebugWriteVectorSize, DebugWriteVector.size, List.map_cons, List.map_nil,
    List.sum_cons, List.sum_nil, wordSize]
  omega

theorem slice_logVector (b bytes : ByteMem) {filled size : Nat} (index : Nat)
    (short : size ≤ 0xf8) (room : filled + size + 8 ≤ 0x1000) :
    (memcpyVector filled b (logVector [.ptr size bytes] index)).slice 0 (filled + (size + 8)) =
      b.slice 0 filled ++ logRecord (bytes.slice 0 size) index := by
  unfold logVector
  rw [size_ptr bytes (Nat.lt_of_le_of_lt short (by decide))]
  simp only [memcpyVector, DebugWriteVector.copy, DebugWriteVector.size]
  have small : ∀ n, n ≤ 0x1000 → n % wordSize = n := fun n h =>
    Nat.mod_eq_of_lt (Nat.lt_of_le_of_lt h (by decide))
  rw [small (filled + 2) (by omega), small (filled + 2 + size) (by omega),
    small (filled + 2 + size + 2) (by omega),
    show filled + (size + 8) = filled + 2 + size + 2 + 4 by omega,
    ByteMem.slice_copyBytes_end, ByteMem.slice_copyBytes_end, ByteMem.slice_copyBytes_end,
    ByteMem.slice_copyBytes_end, List.append_assoc, List.append_assoc, List.append_assoc]
  rw [logRecord, ByteMem.length_slice]
  rfl

/-- An append stores the record or leaves the contents as they are. -/
theorem Appended.contents_eq {s s' : DebugSection} {size index : Nat} {bytes : ByteMem}
    (appended : Appended (logVector [.ptr size bytes] index) s s') (short : size ≤ 0xf8)
    (nonneg : 0 ≤ s.filled) (small : s.bufferSize ≤ coDebugSectionBufferStartSize) :
    s'.filled = s.filled ∧ s'.contents = s.contents ∨
      s'.filled = s.filled + (size + 8 : Nat) ∧
        s'.contents = s.contents ++ logRecord (bytes.slice 0 size) index := by
  refine appended.contents.imp_right ?_
  rintro ⟨filled, b, before, buffer⟩
  rw [size_logVector bytes index short] at filled
  refine ⟨filled, ?_⟩
  have within := appended.within
  have size' := appended.bufferSize
  have room : s.filled.toNat + size + 8 ≤ 0x1000 := by
    unfold coDebugSectionBufferStartSize at small
    omega
  have length : s'.filled.toNat = s.filled.toNat + (size + 8) := by omega
  unfold DebugSection.contents
  rw [length, buffer, slice_logVector b bytes index short room, before]
  rfl

/-- Every section holds whole records, in a buffer that has not grown. -/
structure Framed (log : DebugLog) : Prop where
  whole : ∀ id ∈ log.sections, Whole (log.heap id).contents
  small : ∀ id ∈ log.sections, (log.heap id).bufferSize ≤ coDebugSectionBufferStartSize

variable {log : DebugLog} {id : SectionId}

theorem Framed.replace (framed : log.Framed) {s : DebugSection} (whole : Whole s.contents)
    (small : s.bufferSize ≤ coDebugSectionBufferStartSize) : (log.replace id s).Framed := by
  have heap : ∀ i, (log.replace id s).heap i = if i = id then s else log.heap i := fun _ => rfl
  constructor
  · intro i hi
    rw [heap]
    split_ifs
    · exact whole
    · exact framed.whole i hi
  · intro i hi
    rw [heap]
    split_ifs
    · exact small
    · exact framed.small i hi

theorem Framed.withNew (framed : log.Framed) (buffer : ByteMem) (holder : SectionHolder) :
    (log.withNew buffer holder).Framed := by
  have heap : ∀ i, (log.withNew buffer holder).heap i =
      if i = log.next then newSection buffer 1 else log.heap i := fun _ => rfl
  have old : ∀ i ∈ (log.withNew buffer holder).sections, i ≠ log.next → i ∈ log.sections := by
    intro i hi other
    rcases List.mem_append.mp hi with mem | mem
    · exact mem
    · exact absurd (List.mem_singleton.mp mem) other
  constructor
  · intro i hi
    rw [heap]
    split_ifs with new
    · exact Whole.nil
    · exact framed.whole i (old i hi new)
  · intro i hi
    rw [heap]
    split_ifs with new
    · exact Int.le_refl _
    · exact framed.small i (old i hi new)

/-- The record that a call stored is the last one of the caller's section. -/
structure Stored (log : DebugLog) (holder : SectionHolder) (payload : List UInt8)
    (id : SectionId) : Prop where
  listed : id ∈ log.sections
  holds : log.holds holder = some id
  last : ∃ old, Whole old ∧ (log.heap id).contents = old ++ logRecord payload log.driverIndex

theorem Framed.appended (framed : log.Framed) {s : DebugSection} {holder : SectionHolder}
    {bytes : ByteMem} {size : Nat} (short : size ≤ 0xf8) (mem : id ∈ log.sections)
    (holds : log.holds holder = some id) (nonneg : 0 ≤ (log.heap id).filled)
    (appended : Appended (logVector [.ptr size bytes] log.driverIndex) (log.heap id) s) :
    (log.replace id s).Framed ∧
      ((log.replace id s).sectionsTotalFilled = log.sectionsTotalFilled ∨
        (log.replace id s).Stored holder (bytes.slice 0 size) id) := by
  have small : s.bufferSize ≤ coDebugSectionBufferStartSize := by
    rw [appended.bufferSize]
    exact framed.small id mem
  have whole := framed.whole id mem
  rcases appended.contents_eq short nonneg (framed.small id mem) with
    ⟨filled, contents⟩ | ⟨-, contents⟩
  · refine ⟨framed.replace (by rwa [contents]) small, .inl ?_⟩
    show log.sectionsTotalFilled + (s.filled - (log.heap id).filled) = log.sectionsTotalFilled
    omega
  · have record : tlvFraming.Record (logRecord (bytes.slice 0 size) log.driverIndex) :=
      logRecord_record log.driverIndex (by rwa [ByteMem.length_slice])
    refine ⟨framed.replace ?_ small, .inr ⟨mem, holds, _, whole, ?_⟩⟩
    · rw [contents]
      exact whole.append (Whole.single record)
    · rw [replace_heap]
      exact contents

/-- `co_debug_write_log` of a flat vector stores nothing, or the record of the vector. -/
theorem Framed.writeLog (framed : log.Framed) (running : log.Running) (holder : SectionHolder)
    (host : WriteHost) (bytes : ByteMem) {size : Nat} (word : size < wordSize) :
    (log.coDebugWriteLog holder host [.ptr size bytes]).2.Framed ∧
      ((log.coDebugWriteLog holder host [.ptr size bytes]).2.sectionsTotalFilled =
          log.sectionsTotalFilled ∨
        size ≤ 0xf8 ∧ ∃ id, (log.coDebugWriteLog holder host [.ptr size bytes]).2.Stored holder
          (bytes.slice 0 size) id) := by
  unfold coDebugWriteLog
  rw [size_ptr bytes word]
  by_cases long : 0xf8 < size
  · rw [if_pos long]
    exact ⟨framed, .inl rfl⟩
  have short : size ≤ 0xf8 := Nat.not_lt.mp long
  rw [if_neg long]
  dsimp only
  have framed' : { log with driverIndex := (log.driverIndex + 1) % wordSize }.Framed :=
    ⟨framed.whole, framed.small⟩
  have running' := running.withIndex ((log.driverIndex + 1) % wordSize)
  rcases coDebugWritev_eq running' holder host
      (logVector [.ptr size bytes] ((log.driverIndex + 1) % wordSize)) with
    same | ⟨base, id, s, result, ⟨rfl, has⟩ | ⟨rfl, -, buffer, rfl⟩, -, appended⟩
  · rw [same]
    exact ⟨framed', .inl rfl⟩
  · obtain ⟨mem, -⟩ := running'.held holder id has
    obtain ⟨after, stored⟩ := framed'.appended short mem has
      (running'.accounted.within id mem).1 appended
    rw [result]
    exact ⟨after, stored.imp_right fun stored => ⟨short, id, stored⟩⟩
  · have new : ({ log with driverIndex := (log.driverIndex + 1) % wordSize }.withNew buffer
        holder).heap log.next = newSection buffer 1 := setSection_heap _
    obtain ⟨after, stored⟩ := (framed'.withNew buffer holder).appended short
      (List.mem_append_right _ List.mem_cons_self) (if_pos rfl)
      (by rw [new]; exact Int.le_refl 0) appended
    rw [result]
    exact ⟨after, stored.imp_right fun stored => ⟨short, _, stored⟩⟩

/-! ## Reading -/

theorem Framed.read (framed : log.Framed) (running : log.Running) (host : ReadHost) (size : Nat) :
    (log.coDebugRead host size).2.Framed := by
  obtain ⟨saved, result⟩ := @readSections host size log.sections ([], log) running running.nodup
    fun _ hi => hi
  have listed : ∀ i ∈ (log.coDebugRead host size).2.sections, i ∈ log.sections := fun i hi =>
    Classical.byContradiction fun off => off ((result.others i off).1.mp hi)
  refine ⟨fun i hi => ?_, fun i hi => ?_⟩
  · by_cases mem : i ∈ saved
    · rw [show ((log.coDebugRead host size).2.heap i).contents = [] from result.taken i mem hi]
      exact Whole.nil
    · rw [show ((log.coDebugRead host size).2.heap i).contents = (log.heap i).contents from
        (result.left i (listed i hi) mem).2.1]
      exact framed.whole i (listed i hi)
  · rw [show ((log.coDebugRead host size).2.heap i).bufferSize = (log.heap i).bufferSize from
      result.bufferSize i (listed i hi) hi]
    exact framed.small i (listed i hi)

/-- The section was read: it is empty, or it is gone. -/
def Drained (log : DebugLog) (id : SectionId) : Prop :=
  id ∈ log.sections → (log.heap id).contents = []

/-- A reader that gets a section gets whole records, and the section's in one piece. -/
theorem Framed.read_section (framed : log.Framed) (running : log.Running) (mem : id ∈ log.sections)
    (filled : (log.heap id).contents ≠ []) {host : ReadHost} {size : Nat}
    (drained : (log.coDebugRead host size).2.Drained id) :
    ∃ before after, Whole before ∧ Whole after ∧
      (log.coDebugRead host size).1 = before ++ ((log.heap id).contents ++ after) := by
  obtain ⟨saved, result⟩ := @readSections host size log.sections ([], log) running running.nodup
    fun _ hi => hi
  have taken : id ∈ saved := Classical.byContradiction fun unsaved => by
    obtain ⟨listed, same, -⟩ := result.left id mem unsaved
    exact filled (same.symm.trans (drained listed))
  obtain ⟨front, back, rfl⟩ := List.append_of_mem taken
  have whole : ∀ i ∈ front ++ id :: back, Whole (log.heap i).contents := fun i hi =>
    framed.whole i (result.sublist.subset hi)
  refine ⟨front.flatMap fun i => (log.heap i).contents, back.flatMap fun i => (log.heap i).contents,
    Whole.flatMap fun i hi => whole i (List.mem_append_left _ hi),
    Whole.flatMap fun i hi => whole i (List.mem_append_right _ (List.mem_cons_of_mem _ hi)), ?_⟩
  refine result.user.trans ?_
  rw [List.nil_append, List.flatMap_append, List.flatMap_cons]

/-- Some reader gets the section. -/
theorem Running.exists_reader (running : log.Running) (mem : id ∈ log.sections) :
    ∃ host size, (log.coDebugRead host size).2.Drained id := by
  obtain ⟨nonneg, -⟩ := running.accounted.within id mem
  refine ⟨⟨fun i => decide (i = id), fun _ => none⟩, (log.heap id).filled.toNat, fun listed => ?_⟩
  obtain ⟨saved, result⟩ := @readSections ⟨fun i => decide (i = id), fun _ => none⟩
    (log.heap id).filled.toNat log.sections ([], log) running running.nodup fun _ hi => hi
  by_cases taken : id ∈ saved
  · exact result.taken id taken listed
  -- nothing else is copied, so the section has the whole buffer
  · have none : saved = [] := List.eq_nil_iff_forall_not_mem.mpr fun i hi =>
      taken (of_decide_eq_true (result.copied i hi) ▸ hi)
    have long := (result.left id mem taken).2.2 (decide_eq_true rfl)
    rw [result.user, none] at long
    simp only [List.flatMap_nil, List.append_nil, List.length_nil] at long
    omega

/-! ## Runs -/

/-- What the clients of the log do: the driver and open descriptors log flat vectors. -/
inductive Request where
  | opened (d : Nat)
  | debug (client : SectionHolder) (host : WriteHost) (size : UInt32) (bytes : ByteMem)
  | read (host : ReadHost) (size : Nat)
  | close (granted : Option ByteMem) (d : Nat)
  | free

/-- A log request of a client: `co_debug_buf`, or the DEBUG ioctl. -/
def debugCall (host : WriteHost) (size : Nat) (bytes : ByteMem) : SectionHolder → Call
  | .driver => .buf host size bytes
  | .opened d => .writeLog d host [.ptr size bytes]

def Request.call : Request → Call
  | .opened d => .opened d
  | .debug client host size bytes => debugCall host size.toNat bytes client
  | .read host size => .read host size
  | .close granted d => .close granted d
  | .free => .free

/-- Nothing is logged any more. -/
structure Stopped (log : DebugLog) : Prop where
  freeing : log.freeing = true
  sections : log.sections = []

theorem debugCall_ne_free (host : WriteHost) (size : Nat) (bytes : ByteMem)
    (client : SectionHolder) : debugCall host size bytes client ≠ .free := by
  cases client <;> exact fun same => nomatch same

/-- A log request stores nothing, or the record of its bytes. -/
theorem Framed.debug (framed : log.Framed) (running : log.Running) (client : SectionHolder)
    (host : WriteHost) (bytes : ByteMem) {size : Nat} (word : size < wordSize) :
    (step (debugCall host size bytes client) log).Framed ∧
      ((step (debugCall host size bytes client) log).sectionsTotalFilled =
          log.sectionsTotalFilled ∨
        size ≤ 0xf8 ∧ ∃ id, (step (debugCall host size bytes client) log).Stored client
          (bytes.slice 0 size) id) := by
  cases client with
  | driver =>
    by_cases unready : log.ready = false
    · have same : step (debugCall host size bytes .driver) log = log := if_pos unready
      rw [same]
      exact ⟨framed, .inl rfl⟩
    · have same : step (debugCall host size bytes .driver) log =
          (log.coDebugWriteLog .driver host [.ptr size bytes]).2 := if_neg unready
      rw [same]
      exact framed.writeLog running .driver host bytes word
  | opened d =>
    by_cases opened : d ∈ log.opens
    · have same : step (debugCall host size bytes (.opened d)) log =
          (log.coDebugWriteLog (.opened d) host [.ptr size bytes]).2 := if_pos opened
      rw [same]
      exact framed.writeLog running (.opened d) host bytes word
    · have same : step (debugCall host size bytes (.opened d)) log = log := if_neg opened
      rw [same]
      exact ⟨framed, .inl rfl⟩

theorem Framed.close (framed : log.Framed) (running : log.Running) (granted : Option ByteMem)
    (d : Nat) : (log.coManagerClose granted d).Framed := by
  unfold coManagerClose
  by_cases unopened : d ∉ log.opens
  · rwa [if_pos unopened]
  rw [if_neg unopened]
  cases has : log.holds (.opened d) with
  | none => exact ⟨framed.whole, framed.small⟩
  | some id =>
    obtain ⟨mem, -⟩ := running.held _ id has
    obtain ⟨s, fold, -, -, -, small, contents⟩ := coDebugFold_eq running mem granted
    have folded : (log.replace id s).Framed :=
      framed.replace (by rw [contents]; exact framed.whole id mem)
        (Int.le_trans small (framed.small id mem))
    dsimp only
    rw [fold]
    exact ⟨folded.whole, folded.small⟩

theorem Framed.step (framed : log.Framed) (running : log.Running) {r : Request}
    (notFree : r ≠ .free) : (step r.call log).Framed := by
  cases r with
  | opened d =>
    show (log.coManagerOpen d).Framed
    unfold coManagerOpen
    split_ifs
    · exact framed
    · exact ⟨framed.whole, framed.small⟩
  | debug client host size bytes => exact (framed.debug running client host bytes size.toNat_lt).1
  | read host size => exact framed.read running host size
  | close granted d => exact framed.close running granted d
  | free => exact absurd rfl notFree

theorem Stopped.getSection (stopped : log.Stopped) : (log.getSection id).Stopped := by
  unfold DebugLog.getSection touch
  split_ifs <;> exact ⟨stopped.freeing, stopped.sections⟩

theorem Stopped.putSection (stopped : log.Stopped) : (log.putSection id).2.Stopped := by
  unfold DebugLog.putSection
  dsimp only
  split_ifs <;> exact ⟨stopped.freeing, stopped.sections⟩

theorem Stopped.fold (stopped : log.Stopped) (granted : Option ByteMem) :
    (log.coDebugFold granted id).Stopped := by
  have got : (log.getSection id).Stopped := stopped.getSection
  unfold coDebugFold
  cases granted with
  | none => exact Stopped.putSection ⟨got.freeing, got.sections⟩
  | some block => exact Stopped.putSection ⟨got.freeing, got.sections⟩

theorem Stopped.writeLog (stopped : log.Stopped) (holder : SectionHolder) (host : WriteHost)
    (vec : List DebugWriteVector) : (log.coDebugWriteLog holder host vec).2.Stopped := by
  obtain ⟨n, same⟩ := coDebugWriteLog_freeing stopped.freeing holder host vec
  rw [same]
  exact ⟨stopped.freeing, stopped.sections⟩

/-- Once the driver is unloaded, the log stays empty. -/
theorem Stopped.step (stopped : log.Stopped) (c : Call) : (step c log).Stopped := by
  cases c with
  | opened d =>
    show (log.coManagerOpen d).Stopped
    unfold coManagerOpen
    split_ifs
    · exact stopped
    · exact ⟨stopped.freeing, stopped.sections⟩
  | writeLog d host vec =>
    show (if d ∈ log.opens then (log.coDebugWriteLog (.opened d) host vec).2 else log).Stopped
    split_ifs
    · exact stopped.writeLog _ host vec
    · exact stopped
  | buf host size bytes =>
    show (log.coDebugBuf host size bytes).Stopped
    unfold coDebugBuf
    split_ifs
    · exact stopped
    · exact stopped.writeLog _ host _
  | read host size =>
    show (log.sections.foldl (readSection host size) ([], log)).2.Stopped
    rwa [stopped.sections]
  | close granted d =>
    show (log.coManagerClose granted d).Stopped
    unfold coManagerClose
    by_cases unopened : d ∉ log.opens
    · rwa [if_pos unopened]
    rw [if_neg unopened]
    cases log.holds (.opened d) with
    | none => exact ⟨stopped.freeing, stopped.sections⟩
    | some id =>
      have folded := @Stopped.fold log id stopped granted
      exact ⟨folded.freeing, folded.sections⟩
  | free =>
    show (log.sections.foldl freeListed { log with ready := false, freeing := true }).Stopped
    rw [stopped.sections]
    exact ⟨rfl, rfl⟩

theorem Stopped.debug_total (stopped : log.Stopped) (client : SectionHolder) (host : WriteHost)
    (size : Nat) (bytes : ByteMem) :
    (DebugLog.step (debugCall host size bytes client) log).sectionsTotalFilled =
      log.sectionsTotalFilled := by
  have ignored : ∀ holder, (log.coDebugWriteLog holder host
      [.ptr size bytes]).2.sectionsTotalFilled = log.sectionsTotalFilled := fun holder => by
    obtain ⟨n, same⟩ := coDebugWriteLog_freeing stopped.freeing holder host [.ptr size bytes]
    rw [same]
  cases client with
  | driver =>
    show (log.coDebugBuf host size bytes).sectionsTotalFilled = _
    unfold coDebugBuf
    split_ifs
    · rfl
    · exact ignored .driver
  | opened d =>
    show (if d ∈ log.opens then (log.coDebugWriteLog (.opened d) host
      [.ptr size bytes]).2 else log).sectionsTotalFilled = _
    split_ifs
    · exact ignored (.opened d)
    · rfl

/-- Before the unload the log is in order; after it nothing is logged. -/
def Serving (log : DebugLog) : Prop := log.Running ∧ log.Framed ∨ log.Stopped

theorem Serving.step (serving : log.Serving) (r : Request) : (step r.call log).Serving := by
  rcases serving with ⟨running, framed⟩ | stopped
  · by_cases isFree : r = .free
    · subst isFree
      obtain ⟨last, -⟩ := running.free
      exact .inr ⟨last.freeing, last.sections⟩
    · refine .inl ⟨running.step fun same => ?_, framed.step running isFree⟩
      cases r with
      | debug client host size bytes => exact debugCall_ne_free _ _ _ _ same
      | free => exact isFree rfl
      | _ => exact nomatch same
  · exact .inr (stopped.step r.call)

theorem serving_run (requests : List Request) :
    (run step (requests.map Request.call) coDebugInit).Serving := by
  have start : coDebugInit.Serving :=
    .inl ⟨coDebugInit_running, fun _ h => (nomatch h), fun _ h => (nomatch h)⟩
  suffices ∀ log : DebugLog, log.Serving → (run step (requests.map Request.call) log).Serving from
    this coDebugInit start
  induction requests with
  | nil => exact fun _ serving => serving
  | cons r requests ih => exact fun log serving => ih _ (serving.step r)

end DebugLog

end CoLinux
