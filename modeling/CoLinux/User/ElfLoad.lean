import CoLinux.Kernel.MonitorLife
import CoLinux.Kernel.Proofs.RamLoad

/-!
# Loading the kernel image (`user/elf_load.c`)

The daemon walks over the section headers of the image in its memory and sends every allocated
section to the driver in a request of its own, which carries the contents of the section behind
its parameters. The driver copies them to the section's address, or clears the range when the
request has no user pointer.
-/

namespace CoLinux

open Lib

/-! ## The image -/

def shfAlloc : Nat := 2

def shtNobits : Nat := 8

/-- `sizeof(Elf32_Ehdr)`. -/
def sizeofElf32Ehdr : Nat := 52

/-- `sizeof(Elf32_Shdr)`. -/
def sizeofElf32Shdr : Nat := 40

/-- The fields of `Elf32_Shdr` that decide what is loaded. -/
structure Elf32Shdr where
  shType : Nat
  shFlags : Nat
  shAddr : Nat
  shOffset : Nat
  shSize : Nat

/-- `co_elf_data`: `buffer` points into the daemon's memory. -/
structure CoElfData where
  mem : ByteMem
  buffer : Nat
  size : Nat

namespace CoElfData

def eShoff (pl : CoElfData) : Nat := pl.mem.readWord (pl.buffer + 32)

def eShentsize (pl : CoElfData) : Nat := pl.mem.readHalf (pl.buffer + 46)

def eShnum (pl : CoElfData) : Nat := pl.mem.readHalf (pl.buffer + 48)

/-- `co_get_section_header`. -/
def coGetSectionHeader (pl : CoElfData) (index : Nat) : Nat :=
  (pl.buffer + pl.eShoff + pl.eShentsize * index) % wordSize

/-- The section header that `co_get_section_header` points to. -/
def sectionAt (pl : CoElfData) (index : Nat) : Elf32Shdr :=
  let header := pl.coGetSectionHeader index
  { shType := pl.mem.readWord (header + 4)
    shFlags := pl.mem.readWord (header + 8)
    shAddr := pl.mem.readWord (header + 12)
    shOffset := pl.mem.readWord (header + 16)
    shSize := pl.mem.readWord (header + 20) }

/-- `co_get_section_count`. -/
def coGetSectionCount (pl : CoElfData) : Nat := pl.eShnum

/-- `co_get_at_offset`. -/
def coGetAtOffset (pl : CoElfData) (s : Elf32Shdr) (index : Nat) : Nat :=
  (pl.buffer + (s.shOffset + index) % wordSize) % wordSize

end CoElfData

/-- `section->sh_flags & SHF_ALLOC`. -/
def Elf32Shdr.Alloc (s : Elf32Shdr) : Prop := s.shFlags &&& shfAlloc ≠ 0

instance (s : Elf32Shdr) : Decidable s.Alloc := inferInstanceAs (Decidable (_ ≠ _))

/-! ## One section -/

/-- `co_monitor_ioctl_load_section_t` without `pc` and `buf`. -/
structure LoadSectionParams where
  userPtr : Nat
  address : Nat
  size : Nat
  index : Nat

/-- `sizeof(co_manager_ioctl_monitor_t)`, a `co_rc_t` and an operation. `user_ptr` follows it. -/
def sizeofIoctlMonitor : Nat := 8

/-- `sizeof(co_monitor_ioctl_load_section_t)`, which is also the offset of `buf`. -/
def sizeofLoadSection : Nat := 24

/-- What the daemon's host does for one request: the block that `co_os_malloc` returns and the
buffer the request arrives in, if there is one. -/
structure RequestHost where
  malloc : Option ByteMem
  systemBuffer : Option ByteMem

/-- `*params_copy = *params`. -/
def LoadSectionParams.store (params : LoadSectionParams) (block : ByteMem) : ByteMem :=
  block.writeWords sizeofIoctlMonitor 4
    ([params.userPtr, params.address, params.size, params.index].getD · 0)

/-- The case `CO_MONITOR_IOCTL_LOAD_SECTION` of `co_monitor_ioctl`, for the monitor's owner. -/
def coMonitorIoctlLoadSection (ioBuffer : ByteMem) (c : Cmon) : Step Cmon :=
  let userPtr := ioBuffer.readWord sizeofIoctlMonitor
  let address := ioBuffer.readWord (sizeofIoctlMonitor + 4)
  let size := ioBuffer.readWord (sizeofIoctlMonitor + 8)
  c.loadSection address size
    (if userPtr ≠ 0 then some fun i => ioBuffer (sizeofLoadSection + i) else none)

/-- The way of the request through `co_manager_io_monitor_unisize` and `co_manager_ioctl`: the
driver gets `size` bytes of it. -/
def coManagerIoMonitorUnisize (host : RequestHost) (ioctl : ByteMem) (size : Nat) (c : Cmon) :
    Step Cmon :=
  match host.systemBuffer with
  | none => (.error, c)
  | some buffer =>
    if size < sizeofIoctlMonitor then (.monitorNotLoaded, c)
    else coMonitorIoctlLoadSection (buffer.copyBytes 0 size ioctl) c

def coUserMonitorLoadSection (host : RequestHost) (mem : ByteMem) (params : LoadSectionParams)
    (c : Cmon) : Step Cmon :=
  let allocSize := (sizeofLoadSection + if params.userPtr ≠ 0 then params.size else 0) % wordSize
  match host.malloc with
  | none => (.outOfMemory, c)
  | some block =>
    let paramsCopy := params.store block
    let paramsCopy := if params.userPtr ≠ 0 then
      paramsCopy.copyBytes sizeofLoadSection params.size fun i => mem (params.userPtr + i)
      else paramsCopy
    coManagerIoMonitorUnisize host paramsCopy allocSize c

def coSectionLoad (host : Nat → RequestHost) (pl : CoElfData) (index : Nat) (c : Cmon) :
    Step Cmon :=
  let s := pl.sectionAt index
  if s.Alloc then
    coUserMonitorLoadSection (host index) pl.mem
      { userPtr := if s.shType = shtNobits then 0 else pl.coGetAtOffset s 0
        address := s.shAddr
        size := s.shSize
        index := index } c
  else (.ok, c)

/-! ## The image -/

def sectionsLoad (host : Nat → RequestHost) (pl : CoElfData) : List Nat → Cmon → Step Cmon
  | [], c => (.ok, c)
  | index :: rest, c => (coSectionLoad host pl index c).andThen (sectionsLoad host pl rest)

/-- The indices `1, 2, ...` of the sections. -/
def CoElfData.indices (pl : CoElfData) : List Nat := List.range' 1 (pl.coGetSectionCount - 1)

def coElfImageLoad (host : Nat → RequestHost) (pl : CoElfData) (c : Cmon) : Step Cmon :=
  sectionsLoad host pl pl.indices c

/-! ## What a loaded image looks like -/

namespace CoElfData

/-- A 32 bit ELF image of `size` bytes that the daemon has read into memory. `e_shnum` counts its
sections: `co_elf_image_read` finds no `.strtab` in an image that counts them elsewhere. -/
structure WellFormed (pl : CoElfData) : Prop where
  buffer : 0 < pl.buffer
  inMemory : pl.buffer + pl.size ≤ wordSize
  header : sizeofElf32Ehdr ≤ pl.size
  ident : pl.mem.slice pl.buffer 4 = [0x7f, 0x45, 0x4c, 0x46]
  entries : pl.eShentsize = sizeofElf32Shdr
  table : pl.eShoff + sizeofElf32Shdr * pl.eShnum ≤ pl.size
  contents : ∀ index ∈ pl.indices, (pl.sectionAt index).shType ≠ shtNobits →
    (pl.sectionAt index).shOffset + (pl.sectionAt index).shSize ≤ pl.size

/-- The addresses of an allocated section. -/
def Occupies (pl : CoElfData) (index x : Nat) : Prop :=
  (pl.sectionAt index).Alloc ∧ (pl.sectionAt index).shAddr ≤ x ∧
    x < (pl.sectionAt index).shAddr + (pl.sectionAt index).shSize

/-- The allocated sections lie in the RAM of the guest, and no two of them share an address. -/
structure Fits (pl : CoElfData) (w : World) : Prop where
  inRam : ∀ index ∈ pl.indices, (pl.sectionAt index).Alloc →
    coArchKernelOffset ≤ (pl.sectionAt index).shAddr ∧
      (pl.sectionAt index).shAddr + (pl.sectionAt index).shSize ≤ w.monitor.endPhysical
  disjoint : ∀ i ∈ pl.indices, ∀ j ∈ pl.indices, ∀ x, pl.Occupies i x → pl.Occupies j x → i = j

/-- The guest's memory after the load. -/
structure LoadedInto (pl : CoElfData) (w w' : World) : Prop where
  mapped : ∀ index ∈ pl.indices, ∀ x, pl.Occupies index x → w'.ppPfn (x / coArchPageSize) ≠ 0
  contents : ∀ index ∈ pl.indices, (pl.sectionAt index).Alloc →
    (pl.sectionAt index).shType ≠ shtNobits → ∀ i < (pl.sectionAt index).shSize,
      w'.guestByte ((pl.sectionAt index).shAddr + i) =
        pl.mem (pl.buffer + (pl.sectionAt index).shOffset + i)
  cleared : ∀ index ∈ pl.indices, (pl.sectionAt index).Alloc →
    (pl.sectionAt index).shType = shtNobits → ∀ i < (pl.sectionAt index).shSize,
      w'.guestByte ((pl.sectionAt index).shAddr + i) = 0
  others : ∀ x, w.InRam x → w.ppPfn (x / coArchPageSize) ≠ 0 →
    (∀ index ∈ pl.indices, ¬ pl.Occupies index x) → w'.guestByte x = w.guestByte x

/-- What one section asks to be stored. -/
def sectionBytes (pl : CoElfData) (index : Nat) : Nat → Option UInt8 :=
  let s := pl.sectionAt index
  if s.Alloc then
    storedRange s.shAddr s.shSize fun i =>
      if s.shType = shtNobits then 0 else pl.mem (pl.buffer + s.shOffset + i)
  else fun _ => none

/-- What sections that are loaded in turn ask to be stored. -/
def sectionsBytes (pl : CoElfData) : List Nat → Nat → Option UInt8
  | [] => fun _ => none
  | index :: rest => fun x => (pl.sectionsBytes rest x).or (pl.sectionBytes index x)

variable {pl : CoElfData} {index : Nat}

theorem sectionAt_lt (pl : CoElfData) (index : Nat) :
    (pl.sectionAt index).shAddr < wordSize ∧ (pl.sectionAt index).shSize < wordSize ∧
      (pl.sectionAt index).shOffset < wordSize :=
  ⟨ByteMem.readWord_lt _ _, ByteMem.readWord_lt _ _, ByteMem.readWord_lt _ _⟩

theorem sectionBytes_none_iff {x : Nat} :
    pl.sectionBytes index x = none ↔ ¬ pl.Occupies index x := by
  unfold sectionBytes Occupies
  by_cases alloc : (pl.sectionAt index).Alloc
  · rw [if_pos alloc, storedRange]
    by_cases inside : (pl.sectionAt index).shAddr ≤ x ∧
        x < (pl.sectionAt index).shAddr + (pl.sectionAt index).shSize
    · simp [inside, alloc]
    · simp [inside]
  · simp [alloc]

theorem sectionsBytes_none {indices : List Nat} {x : Nat}
    (outside : ∀ index ∈ indices, ¬ pl.Occupies index x) :
    pl.sectionsBytes indices x = none := by
  induction indices with
  | nil => rfl
  | cons index rest ih =>
    dsimp only [sectionsBytes]
    rw [ih fun j hj => outside j (List.mem_cons_of_mem _ hj), Option.none_or]
    exact sectionBytes_none_iff.mpr (outside index List.mem_cons_self)

/-- At an address of one section only, the order of the sections does not matter. -/
theorem sectionsBytes_of_occupies {indices : List Nat} {x : Nat} (member : index ∈ indices)
    (occupies : pl.Occupies index x)
    (only : ∀ j ∈ indices, pl.Occupies j x → j = index) :
    pl.sectionsBytes indices x = pl.sectionBytes index x := by
  induction indices with
  | nil => exact nomatch member
  | cons first rest ih =>
    dsimp only [sectionsBytes]
    by_cases later : index ∈ rest
    · rw [ih later fun j hj => only j (List.mem_cons_of_mem _ hj)]
      cases stored : pl.sectionBytes index x with
      | some b => rfl
      | none => exact absurd occupies (sectionBytes_none_iff.mp stored)
    · have same : first = index := ((List.mem_cons.mp member).resolve_right later).symm
      rw [sectionsBytes_none, Option.none_or, same]
      intro j hj inside
      exact later (only j (List.mem_cons_of_mem _ hj) inside ▸ hj)

end CoElfData

/-! ## The request of one section -/

theorem storedRange_congr {a size : Nat} {src src' : Nat → UInt8}
    (h : ∀ i < size, src i = src' i) : storedRange a size src = storedRange a size src' := by
  funext x
  unfold storedRange
  by_cases inside : a ≤ x ∧ x < a + size
  · rw [if_pos inside, if_pos inside, h _ (by omega)]
  · rw [if_neg inside, if_neg inside]

/-- The driver reads the parameters that the daemon stored. -/
theorem readWord_request {buffer block : ByteMem} {params : LoadSectionParams} {n k : Nat}
    {src : Nat → UInt8} (long : sizeofLoadSection ≤ n) {i v : Nat} (hi : i < 4)
    (field : [params.userPtr, params.address, params.size, params.index].getD i 0 = v)
    (word : v < wordSize) :
    (buffer.copyBytes 0 n ((params.store block).copyBytes sizeofLoadSection k src)).readWord
      (sizeofIoctlMonitor + 4 * i) = v := by
  have below : sizeofIoctlMonitor + 4 * i + 4 ≤ sizeofLoadSection := by
    simp only [sizeofIoctlMonitor, sizeofLoadSection]
    omega
  have arrives : (buffer.copyBytes 0 n
      ((params.store block).copyBytes sizeofLoadSection k src)).readWord
        (sizeofIoctlMonitor + 4 * i) =
      ((params.store block).copyBytes sizeofLoadSection k src).readWord
        (sizeofIoctlMonitor + 4 * i) :=
    ByteMem.readWord_congr fun x _ up => by
      rw [ByteMem.copyBytes_inside _ _ (Nat.zero_le x) (by omega), Nat.sub_zero]
  rw [arrives, ByteMem.readWord_copyBytes_outside _ _ (.inl below), LoadSectionParams.store,
    ByteMem.readWord_writeWords _ hi (by rw [field]; exact word), field]

/-- `load_section` into RAM, when it succeeds. -/
theorem loadSection_ramStored {c : Cmon} {address size : Nat} (data : Option (Nat → UInt8))
    (ready : RamReady c.world) (low : coArchKernelOffset ≤ address)
    (high : address + size ≤ c.world.monitor.endPhysical)
    (ok : (c.loadSection address size data).1 = .ok) :
    RamStored c.world (storedRange address size (copyRegionBytes data 0))
      (c.loadSection address size data).2.world := by
  unfold Cmon.loadSection at ok ⊢
  by_cases state : c.monitor.state ≠ .initialized
  · rw [if_pos state] at ok
    exact absurd ok (by simp)
  · rw [if_neg state] at ok ⊢
    exact coMonitorCopyRegion_ramStored data ready low high ok

/-- The driver handles a request that arrives as it was sent. -/
theorem coMonitorIoctlLoadSection_request {buffer block : ByteMem} {params : LoadSectionParams}
    {k : Nat} {src : Nat → UInt8} {c : Cmon} (userPtr : params.userPtr < wordSize)
    (address : params.address < wordSize) (size : params.size < wordSize) :
    coMonitorIoctlLoadSection (buffer.copyBytes 0 (sizeofLoadSection + k)
        ((params.store block).copyBytes sizeofLoadSection k src)) c =
      c.loadSection params.address params.size
        (if params.userPtr ≠ 0 then some fun i =>
          (buffer.copyBytes 0 (sizeofLoadSection + k)
            ((params.store block).copyBytes sizeofLoadSection k src)) (sizeofLoadSection + i)
        else none) := by
  have long : sizeofLoadSection ≤ sizeofLoadSection + k := Nat.le_add_right _ _
  have readPtr := @readWord_request buffer block params _ k src long 0 params.userPtr
    (by decide) rfl userPtr
  have readAddress := @readWord_request buffer block params _ k src long 1 params.address
    (by decide) rfl address
  have readSize := @readWord_request buffer block params _ k src long 2 params.size
    (by decide) rfl size
  rw [Nat.mul_zero, Nat.add_zero] at readPtr
  rw [coMonitorIoctlLoadSection, readPtr, readAddress, readSize]

theorem request_byte {buffer block : ByteMem} {k i : Nat} {src : Nat → UInt8} (hi : i < k) :
    (buffer.copyBytes 0 (sizeofLoadSection + k) (block.copyBytes sizeofLoadSection k src))
      (sizeofLoadSection + i) = src i := by
  rw [ByteMem.copyBytes_inside _ _ (Nat.zero_le _) (by omega), Nat.sub_zero,
    ByteMem.copyBytes_inside _ _ (by omega) (by omega), Nat.add_sub_cancel_left]

/-- The block holds the parameters and, behind them, the section's bytes if it has any. -/
theorem paramsCopy_eq (params : LoadSectionParams) (block : ByteMem) (src : Nat → UInt8) :
    (if params.userPtr ≠ 0 then
        (params.store block).copyBytes sizeofLoadSection params.size src
      else params.store block) =
      (params.store block).copyBytes sizeofLoadSection
        (if params.userPtr ≠ 0 then params.size else 0) src := by
  by_cases pointer : params.userPtr ≠ 0
  · rw [if_pos pointer, if_pos pointer]
  · rw [if_neg pointer, if_neg pointer]
    funext x
    rw [ByteMem.copyBytes_outside _ _ (by omega)]

/-- A request that is answered with OK has reached the driver as it was sent. -/
theorem coUserMonitorLoadSection_ok {host : RequestHost} {mem : ByteMem}
    {params : LoadSectionParams} {c : Cmon} (userPtr : params.userPtr < wordSize)
    (address : params.address < wordSize) (size : sizeofLoadSection + params.size < wordSize)
    (ok : (coUserMonitorLoadSection host mem params c).1 = .ok) :
    ∃ data, coUserMonitorLoadSection host mem params c =
        c.loadSection params.address params.size data ∧
      ∀ i < params.size, copyRegionBytes data 0 i =
        if params.userPtr ≠ 0 then mem (params.userPtr + i) else 0 := by
  unfold coUserMonitorLoadSection at ok ⊢
  cases malloc : host.malloc with
  | none =>
    simp only [malloc] at ok
    exact nomatch ok
  | some block =>
    have fits : sizeofLoadSection + (if params.userPtr ≠ 0 then params.size else 0) <
        wordSize := by
      split_ifs <;> omega
    simp only [malloc, paramsCopy_eq, Nat.mod_eq_of_lt fits] at ok ⊢
    unfold coManagerIoMonitorUnisize at ok ⊢
    cases arrives : host.systemBuffer with
    | none =>
      simp only [arrives] at ok
      exact nomatch ok
    | some buffer =>
      have long : ¬ sizeofLoadSection + (if params.userPtr ≠ 0 then params.size else 0) <
          sizeofIoctlMonitor :=
        Nat.not_lt.mpr (Nat.le_trans (by decide) (Nat.le_add_right _ _))
      dsimp only
      rw [if_neg long, coMonitorIoctlLoadSection_request userPtr address (by omega)]
      refine ⟨_, rfl, fun i hi => ?_⟩
      by_cases pointer : params.userPtr ≠ 0
      · simp only [if_pos pointer, copyRegionBytes, Nat.zero_add]
        exact request_byte hi
      · rw [if_neg pointer, if_neg pointer, copyRegionBytes]

/-! ## The sections of an image -/

section
variable {host : Nat → RequestHost} {pl : CoElfData} {index : Nat} {c : Cmon}

/-- The pointer of a section with contents points to them. -/
theorem coGetAtOffset_eq (image : pl.WellFormed) (member : index ∈ pl.indices)
    (bits : (pl.sectionAt index).shType ≠ shtNobits) (some : 0 < (pl.sectionAt index).shSize) :
    pl.coGetAtOffset (pl.sectionAt index) 0 = pl.buffer + (pl.sectionAt index).shOffset := by
  have inFile := image.contents index member bits
  have inMemory := image.inMemory
  unfold CoElfData.coGetAtOffset
  rw [Nat.add_zero, Nat.mod_eq_of_lt (CoElfData.sectionAt_lt pl index).2.2,
    Nat.mod_eq_of_lt (by omega)]

/-- Loading one section, when it succeeds. -/
theorem coSectionLoad_ramStored (image : pl.WellFormed) (member : index ∈ pl.indices)
    (inRam : (pl.sectionAt index).Alloc → coArchKernelOffset ≤ (pl.sectionAt index).shAddr ∧
      (pl.sectionAt index).shAddr + (pl.sectionAt index).shSize ≤ c.world.monitor.endPhysical)
    (ready : RamReady c.world) (ok : (coSectionLoad host pl index c).1 = .ok) :
    RamStored c.world (pl.sectionBytes index) (coSectionLoad host pl index c).2.world := by
  unfold coSectionLoad at ok ⊢
  dsimp only at ok ⊢
  by_cases alloc : (pl.sectionAt index).Alloc
  · obtain ⟨low, high⟩ := inRam alloc
    obtain ⟨address, size, -⟩ := pl.sectionAt_lt index
    have top := ready.top
    rw [if_pos alloc] at ok ⊢
    have pointer : (if (pl.sectionAt index).shType = shtNobits then 0
        else pl.coGetAtOffset (pl.sectionAt index) 0) < wordSize := by
      split_ifs
      · decide
      · exact Nat.mod_lt _ (by decide)
    have small : sizeofLoadSection + (pl.sectionAt index).shSize < wordSize := by
      simp only [sizeofLoadSection, coArchKernelOffset, wordSize] at *
      omega
    obtain ⟨data, sent, bytes⟩ := coUserMonitorLoadSection_ok pointer address small ok
    rw [sent] at ok ⊢
    have stored := loadSection_ramStored data ready low high ok
    rw [CoElfData.sectionBytes, if_pos alloc]
    rwa [storedRange_congr fun i hi => ?_] at stored
    rw [bytes i hi]
    by_cases bits : (pl.sectionAt index).shType = shtNobits
    · simp [bits]
    · have position := coGetAtOffset_eq image member bits (Nat.zero_lt_of_lt hi)
      have buffer := image.buffer
      have set : pl.buffer + (pl.sectionAt index).shOffset ≠ 0 := by omega
      simp only [bits, if_false, position, set, ne_eq, not_false_eq_true, if_true]
  · rw [if_neg alloc, CoElfData.sectionBytes, if_neg alloc]
    exact .refl ready

/-- Loading sections in turn. -/
theorem sectionsLoad_ramStored (image : pl.WellFormed) {indices : List Nat}
    (members : ∀ index ∈ indices, index ∈ pl.indices)
    (inRam : ∀ index ∈ indices, (pl.sectionAt index).Alloc →
      coArchKernelOffset ≤ (pl.sectionAt index).shAddr ∧
        (pl.sectionAt index).shAddr + (pl.sectionAt index).shSize ≤
          c.world.monitor.endPhysical)
    (ready : RamReady c.world) (ok : (sectionsLoad host pl indices c).1 = .ok) :
    RamStored c.world (pl.sectionsBytes indices) (sectionsLoad host pl indices c).2.world := by
  induction indices generalizing c with
  | nil => exact .refl ready
  | cons index rest ih =>
    rw [sectionsLoad] at ok ⊢
    have first : (coSectionLoad host pl index c).1 = .ok := by
      by_contra failed
      rw [Step.andThen_of_ne failed] at ok
      exact failed ok
    rw [Step.andThen_of_ok first] at ok ⊢
    have one := coSectionLoad_ramStored image (members index List.mem_cons_self)
      (inRam index List.mem_cons_self) ready first
    have others := ih (fun j hj => members j (List.mem_cons_of_mem _ hj))
      (fun j hj alloc => by
        rw [one.machine.endPhysical]
        exact inRam j (List.mem_cons_of_mem _ hj) alloc) one.ready ok
    exact one.trans others

end

/-- A successful `co_elf_image_load` of a well formed image leaves in the guest's RAM the
contents of the allocated sections, zeros where a section has none, and every other byte of a
page that was mapped as it was. -/
theorem coElfImageLoad_loads {host : Nat → RequestHost} {pl : CoElfData} {c : Cmon}
    (image : pl.WellFormed) (fits : pl.Fits c.world) (ready : RamReady c.world)
    (ok : (coElfImageLoad host pl c).1 = .ok) :
    pl.LoadedInto c.world (coElfImageLoad host pl c).2.world := by
  have stored := sectionsLoad_ramStored image (fun _ h => h) fits.inRam ready ok
  have inside : ∀ index ∈ pl.indices, ∀ x, pl.Occupies index x → ∀ b,
      pl.sectionBytes index x = some b →
      (coElfImageLoad host pl c).2.world.ppPfn (x / coArchPageSize) ≠ 0 ∧
        (coElfImageLoad host pl c).2.world.guestByte x = b := by
    intro index member x occupies b byte
    obtain ⟨low, high⟩ := fits.inRam index member occupies.1
    refine stored.bytes x b ⟨Nat.le_trans low occupies.2.1, Nat.lt_of_lt_of_le occupies.2.2 high⟩ ?_
    rw [CoElfData.sectionsBytes_of_occupies member occupies fun j hj other =>
      fits.disjoint j hj index member x other occupies]
    exact byte
  have byteAt : ∀ index, (pl.sectionAt index).Alloc → ∀ i < (pl.sectionAt index).shSize,
      pl.Occupies index ((pl.sectionAt index).shAddr + i) ∧
      pl.sectionBytes index ((pl.sectionAt index).shAddr + i) =
        some (if (pl.sectionAt index).shType = shtNobits then 0
          else pl.mem (pl.buffer + (pl.sectionAt index).shOffset + i)) := by
    intro index alloc i hi
    refine ⟨⟨alloc, by omega, by omega⟩, ?_⟩
    rw [CoElfData.sectionBytes, if_pos alloc, storedRange, if_pos (by omega),
      Nat.add_sub_cancel_left]
  constructor
  · intro index member x occupies
    cases byte : pl.sectionBytes index x with
    | none => exact absurd occupies (CoElfData.sectionBytes_none_iff.mp byte)
    | some b => exact (inside index member x occupies b byte).1
  · intro index member alloc bits i hi
    obtain ⟨occupies, byte⟩ := byteAt index alloc i hi
    rw [if_neg bits] at byte
    exact (inside index member _ occupies _ byte).2
  · intro index member alloc bits i hi
    obtain ⟨occupies, byte⟩ := byteAt index alloc i hi
    rw [if_pos bits] at byte
    exact (inside index member _ occupies _ byte).2
  · intro x inRam mapped outside
    exact stored.others x inRam (CoElfData.sectionsBytes_none outside) mapped

/-! ## A small image -/

/-- Four bytes of code and six bytes without contents behind them, on one page. -/
def smallImage : CoElfData where
  mem := ByteMem.writeWords (fun _ => 0) 4096 44
    ([0x464c457f, 0, 0, 0, 0, 0, 0, 0, 56, 0, 0, 40 * 65536, 3,
      0xddccbbaa,
      0, 0, 0, 0, 0, 0, 0, 0, 0, 0,
      0, 1, 2, 0xc0000100, 52, 4, 0, 0, 0, 0,
      0, 8, 3, 0xc0000104, 56, 6, 0, 0, 0, 0].getD · 0)
  buffer := 4096
  size := 176

theorem smallImage_wellFormed : smallImage.WellFormed :=
  ⟨by decide, by decide, by decide, by decide +kernel, by decide +kernel, by decide +kernel,
    by decide +kernel⟩

/-- A new monitor of a host that still has one frame. -/
def oneFrameMonitor : Cmon where
  kernel :=
    { mem := (allocPpRamMapping coveredHost).2.mem
      host := (allocPpRamMapping coveredHost).2.host
      manager := (allocPpRamMapping coveredHost).2.manager
      hostmemAmount := 8
      hostmemUsed := adjustedMemorySize 8
      hostmemUsageLimit := adjustedMemorySize 8
      monitorsCount := 1
      monitors := [1] }
  monitor := { Monitor.cleared 1 with
    guest := (allocPpRamMapping coveredHost).2.monitor
    state := .initialized
    refcount := 1
    listedInManager := true }

/-- A host that always finds memory. -/
def generousHost : Nat → RequestHost := fun _ => ⟨some fun _ => 0xcc, some fun _ => 0xcd⟩

theorem smallImage_fits : smallImage.Fits oneFrameMonitor.world := by
  have two : smallImage.indices = [1, 2] := by decide +kernel
  have first : (smallImage.sectionAt 1).shAddr = 0xc0000100 ∧
      (smallImage.sectionAt 1).shSize = 4 := by decide +kernel
  have second : (smallImage.sectionAt 2).shAddr = 0xc0000104 ∧
      (smallImage.sectionAt 2).shSize = 6 := by decide +kernel
  have high : oneFrameMonitor.world.monitor.endPhysical = 0xc0800000 := by decide +kernel
  constructor
  · rw [two, high]
    decide +kernel
  · rintro i hi j hj x ⟨-, lo, up⟩ ⟨-, lo', up'⟩
    rw [two] at hi hj
    simp only [List.mem_cons, List.not_mem_nil, or_false] at hi hj
    rcases hi with rfl | rfl <;> rcases hj with rfl | rfl <;>
      first | rfl | (simp only [first, second] at lo up lo' up'; omega)

theorem coElfImageLoad_loads_smallImage :
    smallImage.LoadedInto oneFrameMonitor.world
      (coElfImageLoad generousHost smallImage oneFrameMonitor).2.world :=
  coElfImageLoad_loads smallImage_wellFormed smallImage_fits
    (coveredHost_mapped.ramReady coveredHost_size rfl) (by decide +kernel)

end CoLinux
