import CoLinux.Kernel.DebugRecords
import CoLinux.User.DebugReader

/-!
# From `co_debug_` to the reader

What `co_debug_` was called with, and what the reader finds in the record that the log stored for
it. A record that is too long for the log is not stored, and the framing of the log is right in any
case; the sub-TLVs are those of the call when no string is longer than its length byte can say.
-/

namespace CoLinux

open Lib DebugLog

/-- The `co_debug_buf` of a `co_debug_` call. -/
def DebugCall.logged (c : DebugCall) (stack : ByteMem) (host : WriteHost)
    (client : SectionHolder) : Call :=
  debugCall host (c.coDebug stack).2 (c.coDebug stack).1 client

/-- The sub-TLVs of a stored record: the caller's and the driver's index. -/
def recordTlvs (tlvs : List Tlv) (index : Nat) : List Tlv :=
  tlvs ++ [⟨coDebugTypeDriverIndex, wordBytes index⟩]

/-- The records of a section. -/
def sectionRecords (log : DebugLog) (id : SectionId) : List (List UInt8) :=
  (tlvFraming.split (log.heap id).contents).1

/-- Whichever reader gets the section: it gets whole records, the section's among them, and for the
section's last record `parse_tlv` finds the sub-TLVs `tlvs`. -/
def ReadsBack (log : DebugLog) (id : SectionId) (tlvs : List Tlv) : Prop :=
  ∀ (host : ReadHost) (size : Nat) (block : ByteMem),
    (log.coDebugRead host size).2.Drained id → block.StartsWith (log.coDebugRead host size).1 →
      ∃ (front : List (List UInt8)) (after : List UInt8), (∀ r ∈ front, tlvFraming.Record r) ∧
        (log.coDebugRead host size).1 = (front ++ sectionRecords log id).flatten ++ after ∧
        (parseTlvBuffer block (log.coDebugRead host size).1.length)[
          front.length + (sectionRecords log id).length - 1]? = some tlvs

variable {log : DebugLog} {id : SectionId} {c : DebugCall} {stack : ByteMem}
  {client : SectionHolder}

/-- What the reader finds for the record of a `co_debug_` call. -/
theorem parse_stored {payload : List UInt8} {tlvs : List Tlv} {front : List (List UInt8)}
    {after user : List UInt8} {block : ByteMem}
    (stored : log.Stored client payload id) (encoded : payload = tlvs.flatMap Tlv.encode)
    (short : ∀ t ∈ tlvs, t.value.length < 256) (small : payload.length ≤ 0xf8)
    (framed : ∀ r ∈ front, tlvFraming.Record r)
    (output : user = (front ++ sectionRecords log id).flatten ++ after)
    (starts : block.StartsWith user) :
    (parseTlvBuffer block user.length)[front.length + (sectionRecords log id).length - 1]? =
      some (recordTlvs tlvs log.driverIndex) := by
  obtain ⟨old, ⟨olds, records, rfl⟩, contents⟩ := stored.last
  have record := logRecord_record log.driverIndex small
  have split : sectionRecords log id = olds ++ [logRecord payload log.driverIndex] := by
    have unique := @Framing.split_unique _ tlvFraming
      (olds ++ [logRecord payload log.driverIndex]) [] (fun r hr => by
        rcases List.mem_append.mp hr with mem | mem
        · exact records r mem
        · exact List.mem_singleton.mp mem ▸ record) tlvFraming.not_starts_nil
    rw [List.append_nil, List.flatten_append, List.flatten_singleton, ← contents] at unique
    exact congrArg Prod.fst unique
  have all : ∀ t ∈ recordTlvs tlvs log.driverIndex, t.value.length < 256 := fun t ht => by
    rcases List.mem_append.mp ht with mem | mem
    · exact short t mem
    · rw [List.mem_singleton.mp mem]
      simp [wordBytes]
  have bytes : (recordTlvs tlvs log.driverIndex).flatMap Tlv.encode =
      payload ++ (Tlv.mk coDebugTypeDriverIndex (wordBytes log.driverIndex)).encode := by
    rw [recordTlvs, List.flatMap_append, encoded, List.flatMap_singleton]
  have length : ((recordTlvs tlvs log.driverIndex).flatMap Tlv.encode).length =
      payload.length + 6 := by
    rw [bytes, List.length_append, Tlv.length_encode]
    simp [wordBytes]
  have shape : logRecord payload log.driverIndex = coDebugTypeTlv ::
      UInt8.ofNat ((recordTlvs tlvs log.driverIndex).flatMap Tlv.encode).length ::
        (recordTlvs tlvs log.driverIndex).flatMap Tlv.encode := by
    rw [length, bytes]
    rfl
  have whole : user = (front ++ olds).flatten ++ (logRecord payload log.driverIndex ++ after) := by
    rw [output, split, ← List.append_assoc, @List.flatten_append _ (front ++ olds),
      List.flatten_singleton, List.append_assoc]
  have place : front.length + (sectionRecords log id).length - 1 = (front ++ olds).length := by
    rw [split, List.length_append, List.length_append, List.length_singleton]
    omega
  have records' : ∀ r ∈ front ++ olds, tlvFraming.Record r := fun r hr =>
    (List.mem_append.mp hr).elim (framed r) (records r)
  rw [place]
  subst whole
  exact parseTlvBuffer_at records' starts shape all (by rw [length]; omega)

/-- The reader finds what `co_debug_` left in its buffer, which is right for short strings. -/
theorem readsBack_iff (running : log.Running) (framed : log.Framed)
    (stored : log.Stored client ((c.coDebug stack).1.slice 0 (c.coDebug stack).2) id)
    (small : (c.coDebug stack).2 ≤ 0xf8) :
    ReadsBack log id (recordTlvs c.subTlvs log.driverIndex) ↔ c.Short := by
  have length : ((c.coDebug stack).1.slice 0 (c.coDebug stack).2).length ≤ 0xf8 := by
    rwa [ByteMem.length_slice]
  have filled : (log.heap id).contents ≠ [] := by
    obtain ⟨old, -, contents⟩ := stored.last
    rw [contents]
    exact List.append_ne_nil_of_right_ne_nil _ (List.cons_ne_nil _ _)
  constructor
  · intro reads
    obtain ⟨host, size, drained⟩ := running.exists_reader stored.listed
    have starts := ByteMem.slice_ofList (log.coDebugRead host size).1
    obtain ⟨front, after, records, output, found⟩ := reads host size _ drained starts
    have actual := parse_stored stored (c.coDebug_bytes stack) (c.written_length stack) length
      records output starts
    have same : recordTlvs (c.written stack) log.driverIndex =
        recordTlvs c.subTlvs log.driverIndex := Option.some.inj (actual.symm.trans found)
    exact (c.written_eq_iff stack small).mp (List.append_cancel_right same)
  · intro short host size block drained starts
    obtain ⟨before, after, ⟨front, records, rfl⟩, -, output⟩ :=
      framed.read_section running stored.listed filled drained
    have whole : (sectionRecords log id).flatten = (log.heap id).contents := by
      obtain ⟨all, records, contents⟩ := framed.whole id stored.listed
      have unique := tlvFraming.split_unique records tlvFraming.not_starts_nil
      rw [List.append_nil, contents] at unique
      rw [sectionRecords, unique, contents]
    have output' : (log.coDebugRead host size).1 =
        (front ++ sectionRecords log id).flatten ++ after := by
      rw [output, List.flatten_append, whole, List.append_assoc]
    refine ⟨front, after, records, output', ?_⟩
    rw [← (c.written_eq_iff stack small).mpr short]
    exact parse_stored stored (c.coDebug_bytes stack) (c.written_length stack) length records
      output' starts

theorem debug_readsBack_iff (serving : log.Serving) {host : WriteHost}
    (stored : (step (c.logged stack host client) log).sectionsTotalFilled ≠
      log.sectionsTotalFilled) :
    ∃ id, (step (c.logged stack host client) log).holds client = some id ∧
      (ReadsBack (step (c.logged stack host client) log) id
        (recordTlvs c.subTlvs (step (c.logged stack host client) log).driverIndex) ↔ c.Short) := by
  rcases serving with ⟨running, framed⟩ | stopped
  · have word : (c.coDebug stack).2 < wordSize :=
      Nat.lt_trans (c.coDebug_size_lt stack) (by decide)
    obtain ⟨framed', same | ⟨small, id, last⟩⟩ :=
      framed.debug running client host (c.coDebug stack).1 word
    · exact absurd same stored
    · exact ⟨id, last.holds, readsBack_iff
        (running.step (debugCall_ne_free host _ _ client)) framed' last small⟩
  · exact absurd (stopped.debug_total client host _ _) stored

/-- For every `co_debug_` call whose record the log stores, after any requests: the reader finds
the call's sub-TLVs in it exactly when the three names and the text have less than 255 bytes. -/
theorem coDebug_readsBack_iff (requests : List Request) (c : DebugCall) (stack : ByteMem)
    (host : WriteHost) (client : SectionHolder)
    (stored : (step (c.logged stack host client)
        (run step (requests.map Request.call) coDebugInit)).sectionsTotalFilled ≠
      (run step (requests.map Request.call) coDebugInit).sectionsTotalFilled) :
    ∃ id, (step (c.logged stack host client)
        (run step (requests.map Request.call) coDebugInit)).holds client = some id ∧
      (ReadsBack (step (c.logged stack host client)
          (run step (requests.map Request.call) coDebugInit)) id
        (recordTlvs c.subTlvs (step (c.logged stack host client)
          (run step (requests.map Request.call) coDebugInit)).driverIndex) ↔ c.Short) :=
  debug_readsBack_iff (serving_run requests) stored

/-- A line of the daemon. -/
def sampleCall (text : List UInt8) : DebugCall where
  module := ⟨[100], by decide⟩
  facility := 2
  level := 10
  filename := ⟨[109, 46, 99], by decide⟩
  line := 77
  func := ⟨[102], by decide⟩
  text := text
  localIndex := 1
  low := 5
  high := 0

def sampleHost : WriteHost := ⟨true, some fun _ => 0, .ok, none⟩

theorem coDebug_readsBack_sample :
    ∃ id, (step ((sampleCall [104, 105]).logged (fun _ => 0) sampleHost .driver)
        coDebugInit).holds .driver = some id ∧
      (ReadsBack (step ((sampleCall [104, 105]).logged (fun _ => 0) sampleHost .driver)
          coDebugInit) id
        (recordTlvs (sampleCall [104, 105]).subTlvs
          (step ((sampleCall [104, 105]).logged (fun _ => 0) sampleHost .driver)
            coDebugInit).driverIndex) ↔ (sampleCall [104, 105]).Short) :=
  coDebug_readsBack_iff [] (sampleCall [104, 105]) (fun _ => 0) sampleHost .driver
    (by decide +kernel)

/-- A text of 255 bytes: its length byte is 0, and the record is stored. -/
theorem coDebug_longText :
    ∃ id, (step ((sampleCall (List.replicate 255 65)).logged (fun _ => 0) sampleHost .driver)
        coDebugInit).holds .driver = some id ∧
      ¬ ReadsBack (step ((sampleCall (List.replicate 255 65)).logged (fun _ => 0) sampleHost
          .driver) coDebugInit) id
        (recordTlvs (sampleCall (List.replicate 255 65)).subTlvs
          (step ((sampleCall (List.replicate 255 65)).logged (fun _ => 0) sampleHost .driver)
            coDebugInit).driverIndex) := by
  obtain ⟨id, holds, reads⟩ := @debug_readsBack_iff coDebugInit
    (sampleCall (List.replicate 255 65)) (fun _ => 0) .driver (serving_run []) sampleHost
    (by decide +kernel)
  refine ⟨id, holds, fun found => ?_⟩
  exact absurd (reads.mp found) (by decide +kernel)

end CoLinux
