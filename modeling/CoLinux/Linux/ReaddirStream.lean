import CoLinux.Linux.Readdir
import CoLinux.Lib.Run
import Mathlib.Data.List.TakeWhile

/-!
# A directory listing as a stream

The host counts a position in bytes of records, from the start of the listing on every call; the
guest counts it in bytes of the records it accepted. Both count the same as long as all names
are at most `NAME_MAX` bytes long. A longer name either never gets past `parse_dirfile`, or its
record is larger than the buffer and the listing seems to end there.
-/

namespace CoLinux

open Lib

/-! ## Records -/

/-- `sizeof(co_filesystem_name_t)`. -/
abbrev sizeofFilesystemName : Nat := 12

/-- A listing as `co_os_file_getdir` builds it, every entry an allocation in the host's memory. -/
structure DirListing where
  entries : List FilesystemName
  fits : (entries.map fun e => e.name.length + sizeofFilesystemName + 2).sum ≤ wordSize

def FilesystemName.size (e : FilesystemName) : Nat := direntSize e.name.length

/-- The name fits into the guest's directory entries. -/
def FilesystemName.Short (e : FilesystemName) : Prop := e.name.length ≤ nameMax

instance (e : FilesystemName) : Decidable e.Short := inferInstanceAs (Decidable (_ ≤ _))

def streamSize (es : List FilesystemName) : Nat := (es.map FilesystemName.size).sum

@[simp] theorem streamSize_nil : streamSize [] = 0 := rfl

@[simp] theorem streamSize_cons (e : FilesystemName) (es : List FilesystemName) :
    streamSize (e :: es) = e.size + streamSize es := by
  simp [streamSize]

@[simp] theorem streamSize_append (xs ys : List FilesystemName) :
    streamSize (xs ++ ys) = streamSize xs + streamSize ys := by
  simp [streamSize]

theorem direntSize_bounds (n : Nat) : n + 7 ≤ direntSize n ∧ direntSize n ≤ n + 10 := by
  unfold direntSize fuseDirentAlign
  have : fuseNameOffset = 7 := rfl
  omega

theorem DirListing.streamSize_lt (l : DirListing) : streamSize l.entries < wordSize := by
  have bound (es : List FilesystemName) : streamSize es + 4 * es.length ≤
      (es.map fun e => e.name.length + sizeofFilesystemName + 2).sum := by
    induction es with
    | nil => exact Nat.le_refl 0
    | cons e es ih =>
      have := (direntSize_bounds e.name.length).2
      have size : e.size = direntSize e.name.length := rfl
      have : sizeofFilesystemName = 12 := rfl
      simp only [streamSize_cons, List.length_cons, List.map_cons, List.sum_cons]
      omega
  have := bound l.entries
  have fits := l.fits
  cases h : l.entries with
  | nil => decide
  | cons e es =>
    rw [h] at this fits
    rw [List.length_cons] at this
    omega

theorem length_le_streamSize (es : List FilesystemName) : es.length ≤ streamSize es := by
  induction es with
  | nil => exact Nat.le_refl 0
  | cons e es ih =>
    have size : e.size = direntSize e.name.length := rfl
    have := (direntSize_bounds e.name.length).1
    rw [streamSize_cons, List.length_cons]
    omega

theorem size_of_short {e : FilesystemName} (h : e.Short) : e.size ≤ sizeofFuseDirent := by
  have size : e.size = (fuseNameOffset + e.name.length + 3) / 4 * 4 := rfl
  have : e.name.length ≤ 255 := h
  have : fuseNameOffset = 7 := rfl
  have : sizeofFuseDirent = 264 := rfl
  omega

/-- The record at `a` is the one for `e`. -/
structure EncodedAt (mem : ByteMem) (a : Nat) (e : FilesystemName) : Prop where
  namelen : direntNamelen mem a = min e.name.length sizeofDirentName
  type : mem (a + 6) = e.type
  name : mem.slice (a + fuseNameOffset) (min e.name.length sizeofDirentName) =
    e.name.take sizeofDirentName

/-- The records from `a` on are those for `es`. -/
def Encoded (mem : ByteMem) : Nat → List FilesystemName → Prop
  | _, [] => True
  | a, e :: es => EncodedAt mem a e ∧ Encoded mem (a + e.size) es

theorem EncodedAt.congr {mem mem' : ByteMem} {a : Nat} {e : FilesystemName}
    (h : EncodedAt mem a e) (same : ∀ x, a ≤ x → x < a + e.size → mem' x = mem x) :
    EncodedAt mem' a e := by
  have size : e.name.length + 7 ≤ e.size := (direntSize_bounds e.name.length).1
  refine ⟨?_, ?_, ?_⟩
  · rw [← h.namelen]
    unfold direntNamelen
    rw [same _ (by omega) (by omega), same _ (by omega) (by omega)]
  · rw [← h.type]
    exact same _ (by omega) (by omega)
  · rw [← h.name]
    refine ByteMem.slice_congr fun i hi => same _ (by omega) ?_
    have : fuseNameOffset = 7 := rfl
    omega

/-- Copying the dirent out makes the record. -/
theorem encodedAt_copy (mem stack : ByteMem) (a : Nat) (ino : Int) (e : FilesystemName) :
    EncodedAt (mem.copyBytes a e.size
      (ByteMem.ofList ((fillDirent stack ino e.type (e.name.take sizeofDirentName)).slice 0 e.size)))
      a e := by
  have size : e.name.length + 7 ≤ e.size := (direntSize_bounds e.name.length).1
  have length : (e.name.take sizeofDirentName).length = min e.name.length sizeofDirentName := by
    rw [List.length_take, Nat.min_comm]
  obtain ⟨name, cut⟩ : ∃ name, e.name.take sizeofDirentName = name := ⟨_, rfl⟩
  rw [cut] at length ⊢
  have read (i : Nat) (hi : i < e.size) : (mem.copyBytes a e.size (ByteMem.ofList
      ((fillDirent stack ino e.type name).slice 0 e.size))) (a + i) =
      fillDirent stack ino e.type name i := by
    rw [ByteMem.copyBytes_inside _ _ (by omega) (by omega), Nat.add_sub_cancel_left,
      ByteMem.ofList_slice _ hi, Nat.zero_add]
  have short : name.length ≤ 256 := by
    rw [length]
    exact Nat.min_le_right _ _
  have offset : fuseNameOffset = 7 := rfl
  refine ⟨?_, ?_, ?_⟩
  · have low : fillDirent stack ino e.type name 4 = ByteMem.wordByte name.length 0 := by
      unfold fillDirent
      rw [ByteMem.copyBytes_outside _ _ (by omega), ByteMem.copyBytes_outside _ _ (by omega),
        ByteMem.copyBytes_inside _ _ (by omega) (by omega)]
    have high : fillDirent stack ino e.type name 5 = ByteMem.wordByte name.length 1 := by
      unfold fillDirent
      rw [ByteMem.copyBytes_outside _ _ (by omega), ByteMem.copyBytes_outside _ _ (by omega),
        ByteMem.copyBytes_inside _ _ (by omega) (by omega)]
    unfold direntNamelen
    rw [read 4 (by omega), read 5 (by omega), low, high, ← length]
    simp only [ByteMem.wordByte, UInt8.toNat_ofNat']
    omega
  · rw [read 6 (by omega)]
    unfold fillDirent
    rw [ByteMem.copyBytes_outside _ _ (by omega),
      ByteMem.copyBytes_inside _ _ (by omega) (by omega)]
  · rw [← length, cut]
    refine ByteMem.slice_eq fun i hi => ?_
    rw [Nat.add_assoc, read _ (by omega)]
    unfold fillDirent
    rw [ByteMem.copyBytes_inside _ _ (by omega) (by omega), Nat.add_sub_cancel_left]
    simp [ByteMem.ofList, List.getD, hi]

/-! ## The host's loop -/

section Host

variable {e : ReaddirEvent} {own parent : Int} {filePos : Nat}

/-- Entries in front of the position are skipped. -/
theorem inodeDirReadLoop_skip {pre rest : List FilesystemName} {s : DirReadState GuestCopies}
    (here : s.filePosSeek + streamSize pre = filePos) (fits : filePos < wordSize) :
    inodeDirReadLoop e.hostToLinuxvm own parent dirBufsize filePos (pre ++ rest) s =
      inodeDirReadLoop e.hostToLinuxvm own parent dirBufsize filePos rest
        { s with filePosSeek := filePos } := by
  induction pre generalizing s with
  | nil =>
    rw [streamSize_nil, Nat.add_zero] at here
    rw [List.nil_append, ← here]
  | cons entry pre ih =>
    rw [streamSize_cons] at here
    have size : entry.size = direntSize entry.name.length := rfl
    have := (direntSize_bounds entry.name.length).1
    rw [List.cons_append, inodeDirReadLoop, if_pos (by omega), ih]
    rw [Nat.mod_eq_of_lt (by omega)]
    show s.filePosSeek + direntSize entry.name.length + streamSize pre = filePos
    omega

/-- What the loop puts into the buffer, once it is at the position. -/
theorem inodeDirReadLoop_fill {entries : List FilesystemName} {s : DirReadState GuestCopies}
    (past : filePos ≤ s.filePosSeek) (fits : s.filePosSeek + streamSize entries < wordSize)
    (ok : (inodeDirReadLoop e.hostToLinuxvm own parent dirBufsize filePos entries s).1 = .ok) :
    ∃ taken left, entries = taken ++ left ∧
      (inodeDirReadLoop e.hostToLinuxvm own parent dirBufsize filePos entries s).2.fillSize =
        s.fillSize + streamSize taken ∧
      (∀ entry ∈ taken, entry.size ≤ dirBufsize) ∧
      (∀ entry, left.head? = some entry →
        dirBufsize < entry.size + (s.fillSize + streamSize taken)) ∧
      Encoded (inodeDirReadLoop e.hostToLinuxvm own parent dirBufsize filePos entries
        s).2.linux.mem s.buffWriteptr taken ∧
      ∀ x, x < s.buffWriteptr → (inodeDirReadLoop e.hostToLinuxvm own parent dirBufsize filePos
        entries s).2.linux.mem x = s.linux.mem x := by
  induction entries generalizing s with
  | nil =>
    refine ⟨[], [], rfl, rfl, fun entry h => ?_, fun entry h => ?_, trivial, fun x _ => rfl⟩ <;>
      cases h
  | cons entry entries ih =>
    rw [streamSize_cons] at fits
    have size : entry.size = direntSize entry.name.length := rfl
    rw [inodeDirReadLoop, if_neg (by omega)] at ok ⊢
    by_cases full : dirBufsize < direntSize entry.name.length + s.fillSize
    · rw [if_pos full]
      refine ⟨[], entry :: entries, rfl, rfl, fun other h => absurd h List.not_mem_nil,
        fun first h => ?_, trivial, fun x _ => rfl⟩
      obtain rfl := Option.some.inj h
      rw [streamSize_nil]
      exact full
    · rw [if_neg full] at ok ⊢
      dsimp only at ok ⊢
      generalize copied : e.hostToLinuxvm s.buffWriteptr
        ((fillDirent s.stack (direntIno own parent entry.name) entry.type
          (entry.name.take sizeofDirentName)).slice 0 (direntSize entry.name.length))
        s.linux = result at ok ⊢
      by_cases granted : result.1 = .ok
      · rw [if_pos granted] at ok ⊢
        have mem : result.2.mem = s.linux.mem.copyBytes s.buffWriteptr entry.size
            (ByteMem.ofList ((fillDirent s.stack (direntIno own parent entry.name) entry.type
              (entry.name.take sizeofDirentName)).slice 0 entry.size)) := by
          rw [← copied] at granted ⊢
          unfold ReaddirEvent.hostToLinuxvm at granted ⊢
          dsimp only at granted ⊢
          rw [if_pos granted, ByteMem.length_slice]
          rfl
        have seek : (s.filePosSeek + direntSize entry.name.length) % wordSize =
            s.filePosSeek + direntSize entry.name.length := Nat.mod_eq_of_lt (by omega)
        rw [seek] at ok ⊢
        have past' : filePos ≤ s.filePosSeek + direntSize entry.name.length := by omega
        have fits' : s.filePosSeek + direntSize entry.name.length + streamSize entries <
            wordSize := by omega
        obtain ⟨taken, left, rfl, fill, small, room, encoded, frame⟩ := ih past' fits' ok
        refine ⟨entry :: taken, left, rfl, ?_, fun other h => ?_, fun first h => ?_,
          ⟨?_, encoded⟩, fun x hx => ?_⟩
        · rw [fill, streamSize_cons, size, Nat.add_assoc]
        · rcases List.mem_cons.mp h with rfl | h
          · omega
          · exact small other h
        · rw [streamSize_cons, size, ← Nat.add_assoc s.fillSize]
          exact room first h
        · refine (encodedAt_copy s.linux.mem s.stack s.buffWriteptr
            (direntIno own parent entry.name) entry).congr fun x _ hx => ?_
          rw [frame x hx, mem]
        · have := frame x (Nat.lt_add_right _ hx)
          rw [this, mem]
          exact ByteMem.copyBytes_outside _ _ (.inl hx)
      · rw [if_neg granted] at ok
        exact absurd ok granted

/-- Every copy is of the record of an entry in front of the first one that is larger than the
buffer. -/
theorem inodeDirReadLoop_sizes {entries : List FilesystemName} {s : DirReadState GuestCopies}
    {n : Nat} (past : filePos ≤ s.filePosSeek)
    (fits : s.filePosSeek + streamSize entries < wordSize)
    (h : n ∈ (inodeDirReadLoop e.hostToLinuxvm own parent dirBufsize filePos entries
      s).2.linux.sizes) :
    n ∈ s.linux.sizes ∨
      ∃ entry ∈ entries.takeWhile fun entry => entry.size ≤ dirBufsize, n = entry.size := by
  induction entries generalizing s with
  | nil => exact .inl h
  | cons entry entries ih =>
    rw [streamSize_cons] at fits
    have size : entry.size = direntSize entry.name.length := rfl
    rw [inodeDirReadLoop, if_neg (by omega)] at h
    by_cases full : dirBufsize < direntSize entry.name.length + s.fillSize
    · rw [if_pos full] at h
      exact .inl h
    · rw [if_neg full] at h
      have small : entry.size ≤ dirBufsize := by omega
      rw [List.takeWhile_cons_of_pos (by simpa using small)]
      have later {n : Nat} : n = entry.size ∨ n ∈ s.linux.sizes ∨
          (∃ other ∈ entries.takeWhile fun entry => entry.size ≤ dirBufsize, n = other.size) →
          n ∈ s.linux.sizes ∨ ∃ other ∈ entry :: entries.takeWhile fun entry =>
            entry.size ≤ dirBufsize, n = other.size := by
        rintro (rfl | old | ⟨other, mem, rfl⟩)
        · exact .inr ⟨entry, List.mem_cons_self, rfl⟩
        · exact .inl old
        · exact .inr ⟨other, List.mem_cons_of_mem _ mem, rfl⟩
      refine later ?_
      dsimp only at h
      generalize copied : e.hostToLinuxvm s.buffWriteptr
        ((fillDirent s.stack (direntIno own parent entry.name) entry.type
          (entry.name.take sizeofDirentName)).slice 0 (direntSize entry.name.length))
        s.linux = result at h
      have sizes : result.2.sizes = entry.size :: s.linux.sizes := by
        rw [← copied]
        unfold ReaddirEvent.hostToLinuxvm
        dsimp only
        rw [ByteMem.length_slice]
        rfl
      have head : n ∈ result.2.sizes → n = entry.size ∨ n ∈ s.linux.sizes := fun h => by
        rw [sizes] at h
        exact List.mem_cons.mp h
      by_cases granted : result.1 = .ok
      · rw [if_pos granted] at h
        have seek : (s.filePosSeek + direntSize entry.name.length) % wordSize =
            s.filePosSeek + direntSize entry.name.length := Nat.mod_eq_of_lt (by omega)
        rw [seek] at h
        have past' : filePos ≤ s.filePosSeek + direntSize entry.name.length := by omega
        have fits' : s.filePosSeek + direntSize entry.name.length + streamSize entries <
            wordSize := by omega
        rcases ih past' fits' h with old | new
        · exact (head old).imp_right .inl
        · exact .inr (.inr new)
      · rw [if_neg granted] at h
        exact (head h).imp_right .inl

end Host

/-! ## The guest's loop -/

/-- A name as the guest gets it. -/
def FilesystemName.seen (e : FilesystemName) : List UInt8 × UInt8 := (e.name, e.type)

def Filldir.seen (f : Filldir) : List UInt8 × UInt8 := (f.name, f.type)

/-- The loop stops at the end, at a name that is too long, or where `filldir` refuses. -/
theorem parseDirfile_spec {mem : ByteMem} {accept : Nat → Bool} {taken : List FilesystemName}
    {buf turns : Nat} {file : DirFile} (encoded : Encoded mem buf taken)
    (enough : taken.length ≤ turns) :
    ∃ read unread, taken = read ++ unread ∧ (∀ e ∈ read, e.Short) ∧
      (parseDirfile mem accept turns buf (streamSize taken) file).2.fPos =
        file.fPos + streamSize read ∧
      (parseDirfile mem accept turns buf (streamSize taken) file).2.accepted.map Filldir.seen =
        file.accepted.map Filldir.seen ++ read.map FilesystemName.seen ∧
      ((∀ n, accept n = true) → ∀ e, unread.head? = some e → ¬e.Short) := by
  induction taken generalizing buf turns file with
  | nil =>
    have stop : parseDirfile mem accept turns buf (streamSize []) file = (0, file) := by
      cases turns with
      | zero => rfl
      | succ turns =>
        rw [parseDirfile, if_pos]
        exact Nat.zero_lt_succ _
    refine ⟨[], [], rfl, fun e he => absurd he List.not_mem_nil, ?_, ?_, fun _ e h => ?_⟩
    · rw [stop]
      rfl
    · rw [stop]
      simp
    · cases h
  | cons e taken ih =>
    obtain ⟨first, others⟩ := encoded
    cases turns with
    | zero => exact absurd enough (Nat.not_succ_le_zero _)
    | succ turns =>
      have size : e.size = direntSize e.name.length := rfl
      have bound := (direntSize_bounds e.name.length).1
      have offset : fuseNameOffset = 7 := rfl
      rw [streamSize_cons, parseDirfile, if_neg (by omega)]
      dsimp only
      rw [first.namelen]
      have stop {x : Int × DirFile} (same : x.2 = file)
          (why : (∀ n, accept n = true) → ¬e.Short) :
          ∃ read unread, e :: taken = read ++ unread ∧ (∀ e ∈ read, e.Short) ∧
            x.2.fPos = file.fPos + streamSize read ∧
            x.2.accepted.map Filldir.seen =
              file.accepted.map Filldir.seen ++ read.map FilesystemName.seen ∧
            ((∀ n, accept n = true) → ∀ e, unread.head? = some e → ¬e.Short) := by
        refine ⟨[], e :: taken, rfl, fun e he => absurd he List.not_mem_nil, ?_, ?_,
          fun all e' h => ?_⟩
        · rw [same]
          rfl
        · rw [same]
          simp
        · obtain rfl := Option.some.inj h
          exact why all
      by_cases short : e.Short
      · have min : min e.name.length sizeofDirentName = e.name.length :=
          Nat.min_eq_left (Nat.le_trans short (by decide))
        have fitting : ¬nameMax < e.name.length := Nat.not_lt.mpr short
        rw [min, if_neg fitting, if_neg (by omega)]
        by_cases takes : accept file.accepted.length = true
        · rw [if_pos takes]
          have rest : e.size + streamSize taken - direntSize e.name.length =
              streamSize taken := by omega
          rw [rest]
          obtain ⟨read, unread, rfl, all, pos, seen, next⟩ := @ih _ turns
            { fPos := file.fPos + direntSize e.name.length
              accepted := file.accepted ++ [⟨mem.slice (buf + fuseNameOffset) e.name.length,
                file.fPos, mem.readWord buf, mem (buf + 6)⟩] } others
            (Nat.le_of_succ_le_succ enough)
          refine ⟨e :: read, unread, rfl, ?_, ?_, ?_, next⟩
          · exact fun x hx => (List.mem_cons.mp hx).elim (fun eq => eq ▸ short) (all x)
          · refine pos.trans ?_
            rw [streamSize_cons, size, Nat.add_assoc]
          · refine seen.trans ?_
            have name := first.name
            rw [min, List.take_of_length_le (Nat.le_trans short (by decide))] at name
            simp [Filldir.seen, FilesystemName.seen, name, first.type]
        · rw [if_neg takes]
          exact stop rfl fun all => absurd (all _) takes
      · have long : nameMax < min e.name.length sizeofDirentName := by
          have : nameMax < e.name.length := Nat.lt_of_not_le short
          exact Nat.lt_min.mpr ⟨this, by decide⟩
        rw [if_pos long]
        exact stop rfl fun _ => short

/-! ## Calls -/

/-- How far the directory has been read: `read` was accepted, `unread` is to come. -/
structure Reading (read unread : List FilesystemName) (s : ReaddirState) : Prop where
  short : ∀ e ∈ read, e.Short
  fPos : s.file.fPos = streamSize read
  accepted : s.file.accepted.map Filldir.seen = read.map FilesystemName.seen
  ended : s.ended = true → ∀ e, unread.head? = some e → dirBufsize < e.size

/-- Nothing fails during the call, and `filldir` takes everything. -/
structure ReaddirEvent.Grants (e : ReaddirEvent) : Prop where
  granted : e.granted = true
  copy : ∀ n, e.copy n = .ok
  accept : ∀ n, e.accept n = true

section Calls

variable {own parent : Int} {read unread : List FilesystemName} {s : ReaddirState}

theorem inodeDirReadLoop_ok {e : ReaddirEvent} (grants : e.Grants) {filePos : Nat}
    {entries : List FilesystemName} {d : DirReadState GuestCopies} :
    (inodeDirReadLoop e.hostToLinuxvm own parent dirBufsize filePos entries d).1 = .ok := by
  induction entries generalizing d with
  | nil => rfl
  | cons entry entries ih =>
    unfold inodeDirReadLoop
    dsimp only
    split
    · exact ih
    split
    · rfl
    · have ok (addr : Nat) (bytes : List UInt8) (g : GuestCopies) :
          (e.hostToLinuxvm addr bytes g).1 = .ok := grants.copy _
      rw [if_pos (ok _ _ _)]
      exact ih

/-- The host finds the guest's position again. -/
theorem dirRead_unread (e : ReaddirEvent) (fits : streamSize (read ++ unread) < wordSize) :
    e.dirRead own parent (read ++ unread) (streamSize read) =
      inodeDirReadLoop e.hostToLinuxvm own parent dirBufsize (streamSize read) unread
        ⟨streamSize read, 0, e.buf, e.stack, ⟨e.mem, []⟩⟩ := by
  rw [streamSize_append] at fits
  unfold ReaddirEvent.dirRead inodeDirRead
  rw [Nat.mod_eq_of_lt (by omega), inodeDirReadLoop_skip (by rw [Nat.zero_add]) (by omega)]

/-- One call of `fuse_readdir`. It gets on unless the next name is too long to be accepted and
too short to be left out. -/
theorem Reading.call (h : Reading read unread s) (fits : streamSize (read ++ unread) < wordSize)
    (e : ReaddirEvent) :
    ∃ more left, unread = more ++ left ∧
      Reading (read ++ more) left (fuseReaddir own parent (read ++ unread) e s) ∧
      (e.Grants → (∀ entry, unread.head? = some entry → entry.Short ∨ dirBufsize < entry.size) →
        (fuseReaddir own parent (read ++ unread) e s).ended = true ∨ more ≠ []) := by
  have same (x : ReaddirState) (file : x.file = s.file)
      (ended : x.ended = true → ∀ e, unread.head? = some e → dirBufsize < e.size) :
      Reading (read ++ []) unread x := by
    rw [List.append_nil]
    exact ⟨h.short, file ▸ h.fPos, file ▸ h.accepted, ended⟩
  unfold fuseReaddir
  by_cases granted : e.granted = true
  · rw [if_pos granted, h.fPos]
    dsimp only
    have equal := @dirRead_unread own parent _ _ e fits
    generalize e.dirRead own parent (read ++ unread) (streamSize read) = result at equal
    rw [streamSize_append] at fits
    by_cases ok : result.1 = .ok
    · rw [if_pos ok]
      rw [equal] at ok
      have past : streamSize read ≤ (DirReadState.mk (streamSize read) 0 e.buf e.stack
        (GuestCopies.mk e.mem [])).filePosSeek := Nat.le_refl _
      obtain ⟨taken, left, rfl, fill, small, room, encoded, -⟩ :=
        inodeDirReadLoop_fill past fits ok
      rw [← equal] at fill encoded ok
      dsimp only at fill encoded room
      rw [Nat.zero_add] at fill room
      obtain ⟨more, unread', rfl, all, pos, seen, next⟩ :=
        @parseDirfile_spec _ e.accept _ _ _ s.file encoded (length_le_streamSize taken)
      rw [fill]
      -- a call that hands out nothing has found the end
      have nothing : streamSize (more ++ unread') = 0 → more = [] ∧ unread' = [] := fun none => by
        have := length_le_streamSize (more ++ unread')
        rw [none] at this
        exact List.append_eq_nil_iff.mp (List.eq_nil_of_length_eq_zero (Nat.le_zero.mp this))
      refine ⟨more, unread' ++ left, List.append_assoc .., ⟨?_, ?_, ?_, fun ended entry head => ?_⟩,
        fun grants gets_on => ?_⟩
      · exact fun x hx => (List.mem_append.mp hx).elim (h.short x) (all x)
      · exact pos.trans (by rw [h.fPos, streamSize_append])
      · rw [List.map_append, ← h.accepted]
        exact seen
      · rcases Bool.or_eq_true_iff.mp ended with old | ended
        · cases more with
          | nil => exact h.ended old entry (by simpa using head)
          | cons first more =>
            have large := h.ended old first rfl
            have := size_of_short (all first List.mem_cons_self)
            have : sizeofFuseDirent ≤ dirBufsize := by decide
            omega
        · have none := (Bool.and_eq_true_iff.mp ended).2
          obtain ⟨rfl, rfl⟩ := nothing (beq_iff_eq.mp none)
          exact room entry head
      · refine Decidable.or_iff_not_imp_right.mpr fun none => ?_
        replace none := Decidable.not_not.mp none
        subst none
        cases unread' with
        | nil => simp [ok]
        | cons first unread' =>
          have head : (([] ++ first :: unread') ++ left).head? = some first := rfl
          rcases gets_on first head with short | large
          · exact absurd short (next grants.accept first rfl)
          · have := small first (by simp)
            omega
    · rw [if_neg ok]
      refine ⟨[], unread, rfl, same _ rfl fun ended => ?_, fun grants => ?_⟩
      · rcases Bool.or_eq_true_iff.mp ended with ended | ended
        · exact h.ended ended
        · exact absurd (of_decide_eq_true (Bool.and_eq_true_iff.mp ended).1) ok
      · rw [equal] at ok
        exact absurd (inodeDirReadLoop_ok grants) ok
  · rw [if_neg granted]
    exact ⟨[], unread, rfl, same s rfl h.ended, fun grants => absurd grants.granted granted⟩

end Calls

/-! ## Runs -/

/-- What a directory listing should do: it ends once nothing is refused for long enough, by then
`filldir` has accepted the short names and nothing else, in order, and no copy is longer than
the dirent it is taken from. -/
structure RoundTrip (own parent : Int) (listing : List FilesystemName) : Prop where
  ends : ∀ calls more : List ReaddirEvent, (∀ e ∈ more, e.Grants) → listing.length < more.length →
    (run (fuseReaddir own parent listing) (calls ++ more) readdirStart).ended = true
  accepts : ∀ calls, (run (fuseReaddir own parent listing) calls readdirStart).ended = true →
    (run (fuseReaddir own parent listing) calls readdirStart).file.accepted.map Filldir.seen =
      (listing.filter fun e => e.Short).map FilesystemName.seen
  copies : ∀ calls, ∀ n ∈ (run (fuseReaddir own parent listing) calls readdirStart).sizes,
    n ≤ sizeofFuseDirent

/-- No name is too long, or the first one that is has a record larger than the buffer and no
short name after it. -/
def Listable (listing : List FilesystemName) : Prop :=
  match listing.dropWhile fun e => e.Short with
  | [] => True
  | first :: rest => dirBufsize < first.size ∧ ∀ e ∈ rest, ¬e.Short

section Runs

variable {own parent : Int} {listing : List FilesystemName}

/-- After every run the directory has been read up to some short names. -/
theorem run_reading (fits : streamSize listing < wordSize) (calls : List ReaddirEvent) :
    ∃ read unread, listing = read ++ unread ∧
      Reading read unread (run (fuseReaddir own parent listing) calls readdirStart) := by
  refine run_keeps (fun s => ∃ read unread, listing = read ++ unread ∧ Reading read unread s)
    (fun s e inv => ?_) ?_
  · obtain ⟨read, unread, rfl, h⟩ := inv
    obtain ⟨more, left, rfl, h', -⟩ := @Reading.call own parent _ _ _ h fits e
    exact ⟨read ++ more, left, by rw [List.append_assoc], h'⟩
  · exact ⟨[], listing, rfl, fun e he => absurd he List.not_mem_nil, rfl, rfl,
      fun ended => by cases ended⟩

/-- The first name that is too long has a record larger than the buffer. -/
def LongIsLarge (entries : List FilesystemName) : Prop :=
  ∀ e, (entries.dropWhile fun e => e.Short).head? = some e → dirBufsize < e.size

theorem LongIsLarge.suffix {read unread : List FilesystemName}
    (h : LongIsLarge (read ++ unread)) (short : ∀ e ∈ read, e.Short) : LongIsLarge unread := by
  intro e head
  refine h e ?_
  rw [List.dropWhile_append_of_pos fun e he => decide_eq_true (short e he)]
  exact head

theorem LongIsLarge.head {unread : List FilesystemName} (h : LongIsLarge unread)
    {e : FilesystemName} (head : unread.head? = some e) : e.Short ∨ dirBufsize < e.size := by
  refine Decidable.or_iff_not_imp_left.mpr fun long => h e ?_
  cases unread with
  | nil => cases head
  | cons first rest =>
    obtain rfl := Option.some.inj head
    rw [List.dropWhile_cons_of_neg (by simpa using long)]
    rfl

theorem LongIsLarge.copied {unread : List FilesystemName} (h : LongIsLarge unread) :
    ∀ e ∈ unread.takeWhile fun e => e.size ≤ dirBufsize, e.Short := by
  induction unread with
  | nil => exact fun e he => absurd he List.not_mem_nil
  | cons first rest ih =>
    intro e he
    by_cases small : first.size ≤ dirBufsize
    · have short : first.Short := (h.head rfl).resolve_right (Nat.not_lt.mpr small)
      rw [List.takeWhile_cons_of_pos (by simpa using small)] at he
      rcases List.mem_cons.mp he with rfl | he
      · exact short
      · have later : LongIsLarge ([first] ++ rest) := h
        exact ih (later.suffix fun x hx => List.mem_singleton.mp hx ▸ short) e he
    · rw [List.takeWhile_cons_of_neg (by simpa using small)] at he
      exact absurd he List.not_mem_nil

theorem ended_stays {s : ReaddirState} (calls : List ReaddirEvent) (ended : s.ended = true) :
    (run (fuseReaddir own parent listing) calls s).ended = true := by
  refine run_keeps (fun s : ReaddirState => s.ended = true) (fun s e ended => ?_) ended
  unfold fuseReaddir
  split
  · exact Bool.or_eq_true_iff.mpr (.inl ended)
  · exact ended

theorem Reading.ends {read unread : List FilesystemName} {s : ReaddirState}
    {more : List ReaddirEvent} (h : Reading read unread s) (equal : listing = read ++ unread)
    (fits : streamSize listing < wordSize) (large : LongIsLarge unread)
    (grants : ∀ e ∈ more, e.Grants) (enough : unread.length < more.length) :
    (run (fuseReaddir own parent listing) more s).ended = true := by
  induction more generalizing read unread s with
  | nil => exact absurd enough (Nat.not_lt_zero _)
  | cons e more ih =>
    subst equal
    obtain ⟨some, left, rfl, h', gets_on⟩ := @Reading.call own parent _ _ _ h fits e
    rw [run_cons]
    rcases gets_on (grants e List.mem_cons_self) fun _ head => large.head head with ended | further
    · exact ended_stays more ended
    · have short (x : FilesystemName) (hx : x ∈ some) : x.Short :=
        h'.short x (List.mem_append_right _ hx)
      refine ih h' (List.append_assoc ..).symm (large.suffix short)
        (fun x hx => grants x (List.mem_cons_of_mem _ hx)) ?_
      have := List.length_pos_of_ne_nil further
      rw [List.length_append, List.length_cons] at enough
      omega

theorem run_sizes (fits : streamSize listing < wordSize) (large : LongIsLarge listing)
    (calls : List ReaddirEvent) :
    ∀ n ∈ (run (fuseReaddir own parent listing) calls readdirStart).sizes,
      n ≤ sizeofFuseDirent := by
  have both : (∃ read unread, listing = read ++ unread ∧
        Reading read unread (run (fuseReaddir own parent listing) calls readdirStart)) ∧
      ∀ n ∈ (run (fuseReaddir own parent listing) calls readdirStart).sizes,
        n ≤ sizeofFuseDirent := by
    refine run_keeps (fun s => (∃ read unread, listing = read ++ unread ∧ Reading read unread s) ∧
      ∀ n ∈ s.sizes, n ≤ sizeofFuseDirent) (fun s e inv => ?_) ?_
    · obtain ⟨⟨read, unread, rfl, h⟩, sizes⟩ := inv
      refine ⟨?_, fun n hn => ?_⟩
      · obtain ⟨more, left, rfl, h', -⟩ := @Reading.call own parent _ _ _ h fits e
        exact ⟨read ++ more, left, by rw [List.append_assoc], h'⟩
      unfold fuseReaddir at hn
      split at hn
      · dsimp only at hn
        rw [h.fPos, dirRead_unread e fits] at hn
        rcases List.mem_append.mp hn with new | old
        · rw [streamSize_append] at fits
          have past : streamSize read ≤ (DirReadState.mk (streamSize read) 0 e.buf e.stack
            (GuestCopies.mk e.mem [])).filePosSeek := Nat.le_refl _
          rcases inodeDirReadLoop_sizes past fits new with none | ⟨entry, mem, rfl⟩
          · exact absurd none List.not_mem_nil
          · exact size_of_short ((large.suffix h.short).copied entry mem)
        · exact sizes n old
      · exact sizes n hn
    · exact ⟨⟨[], listing, rfl, fun e he => absurd he List.not_mem_nil, rfl, rfl,
        fun ended => by cases ended⟩, fun n hn => absurd hn List.not_mem_nil⟩
  exact both.2

theorem Listable.longIsLarge (h : Listable listing) : LongIsLarge listing := by
  intro e head
  unfold Listable at h
  split at h
  · rename_i none
    rw [none] at head
    cases head
  · rename_i first rest cons
    rw [cons] at head
    exact Option.some.inj head ▸ h.1

theorem not_short_of_large {e : FilesystemName} (large : dirBufsize < e.size) : ¬e.Short :=
  fun short => by
    have := size_of_short short
    have : sizeofFuseDirent ≤ dirBufsize := by decide
    omega

theorem dropWhile_read {read rest : List FilesystemName} {first : FilesystemName}
    (equal : listing = read ++ first :: rest) (short : ∀ e ∈ read, e.Short)
    (long : ¬first.Short) : listing.dropWhile (fun e => e.Short) = first :: rest := by
  rw [equal, List.dropWhile_append_of_pos fun e he => decide_eq_true (short e he),
    List.dropWhile_cons_of_neg (by simpa using long)]

/-- A call in which nothing fails. -/
def grantingCall : ReaddirEvent where
  granted := true
  buf := 0
  mem _ := 0
  stack _ := 0
  copy _ := .ok
  accept _ := true

theorem grantingCall_grants : grantingCall.Grants := ⟨rfl, fun _ => rfl, fun _ => rfl⟩

theorem listable_roundTrip (fits : streamSize listing < wordSize) (h : Listable listing) :
    RoundTrip own parent listing where
  ends calls more grants enough := by
    obtain ⟨read, unread, equal, reading⟩ := @run_reading own parent _ fits calls
    rw [run_append]
    have large : LongIsLarge (read ++ unread) := equal ▸ h.longIsLarge
    refine reading.ends equal fits (large.suffix reading.short) grants ?_
    rw [equal, List.length_append] at enough
    omega
  accepts calls ended := by
    obtain ⟨read, unread, equal, reading⟩ := @run_reading own parent _ fits calls
    refine reading.accepted.trans ?_
    have none : unread.filter (fun e => e.Short) = [] := by
      refine List.filter_eq_nil_iff.mpr fun e he short => ?_
      cases unread with
      | nil => exact List.not_mem_nil he
      | cons first rest =>
        have long := not_short_of_large (reading.ended ended first rfl)
        have drop := dropWhile_read equal reading.short long
        unfold Listable at h
        rw [drop] at h
        rcases List.mem_cons.mp he with rfl | he
        · exact long (of_decide_eq_true short)
        · exact h.2 e he (of_decide_eq_true short)
    rw [equal, List.filter_append, none, List.append_nil,
      List.filter_eq_self.mpr fun e he => decide_eq_true (reading.short e he)]
  copies := run_sizes fits h.longIsLarge

theorem roundTrip_listable (fits : streamSize listing < wordSize)
    (h : RoundTrip own parent listing) : Listable listing := by
  -- a run in which nothing is refused ends
  let more := List.replicate (listing.length + 1) grantingCall
  have ended := h.ends [] more (fun e he => List.eq_of_mem_replicate he ▸ grantingCall_grants)
    (by simp [more])
  rw [List.nil_append] at ended
  obtain ⟨read, unread, equal, reading⟩ := @run_reading own parent _ fits more
  have accepted := reading.accepted.symm.trans (h.accepts more ended)
  unfold Listable
  cases unread with
  | nil =>
    rw [List.append_nil] at equal
    rw [List.dropWhile_eq_nil_iff.mpr fun e he => decide_eq_true (reading.short e (equal ▸ he))]
    trivial
  | cons first rest =>
    have large := reading.ended ended first rfl
    have long := not_short_of_large large
    rw [dropWhile_read equal reading.short long]
    refine ⟨large, fun e he short => ?_⟩
    rw [equal, List.filter_append,
      List.filter_eq_self.mpr fun e he => decide_eq_true (reading.short e he),
      List.filter_cons_of_neg (by simpa using long), List.map_append] at accepted
    have none : rest.filter (fun e => e.Short) = [] :=
      List.map_eq_nil_iff.mp (List.self_eq_append_right.mp accepted)
    exact List.filter_eq_nil_iff.mp none e he (decide_eq_true short)

theorem not_roundTrip_of_length {name : FileName} (length : name.length = 256)
    (type : UInt8) (e : FilesystemName) (short : e.Short) :
    ¬RoundTrip own parent [⟨type, name⟩, e] := by
  intro h
  have size : FilesystemName.size ⟨type, name⟩ = 264 := by
    show direntSize name.length = 264
    rw [length]
    rfl
  have long : ¬FilesystemName.Short ⟨type, name⟩ := fun short => by
    have : name.length ≤ 255 := short
    omega
  have fits : streamSize [⟨type, name⟩, e] < wordSize := by
    have := size_of_short short
    have : sizeofFuseDirent = 264 := rfl
    have : wordSize = 4294967296 := rfl
    rw [streamSize_cons, streamSize_cons, size, streamSize_nil]
    omega
  have listable := roundTrip_listable fits h
  unfold Listable at listable
  rw [List.dropWhile_cons_of_neg (by simpa using long)] at listable
  have large := listable.1
  rw [size] at large
  exact absurd large (by decide)

end Runs

/-- A listing makes the round trip exactly when it is listable. -/
theorem readdir_iff (own parent : Int) (l : DirListing) :
    RoundTrip own parent l.entries ↔ Listable l.entries :=
  ⟨roundTrip_listable l.streamSize_lt, listable_roundTrip l.streamSize_lt⟩

/-- A directory with a short name and, at its end, one whose record is larger than the buffer. -/
def hugeLast : DirListing where
  entries := [⟨4, [0x2e]⟩, ⟨8, [0x61]⟩, ⟨8, List.replicate 4090 0x62⟩]
  fits := by
    simp only [List.map_cons, List.map_nil, List.length_replicate]
    decide

theorem readdir_iff_hugeLast : RoundTrip 2 1 hugeLast.entries := by
  refine (readdir_iff 2 1 hugeLast).mpr ?_
  have long : ¬FilesystemName.Short ⟨8, List.replicate 4090 0x62⟩ := fun short => by
    rw [FilesystemName.Short, List.length_replicate] at short
    exact absurd short (by decide)
  have size : FilesystemName.size ⟨8, List.replicate 4090 0x62⟩ = direntSize 4090 := by
    rw [FilesystemName.size, List.length_replicate]
  unfold Listable hugeLast
  rw [List.dropWhile_cons_of_pos (by decide), List.dropWhile_cons_of_pos (by decide),
    List.dropWhile_cons_of_neg (by rwa [decide_eq_true_eq])]
  exact ⟨size ▸ by decide, fun e he => absurd he List.not_mem_nil⟩

/-- A name of 256 bytes hides the names after it. -/
theorem longName_not_roundTrip :
    ¬RoundTrip 2 1 [⟨8, List.replicate 256 0x61⟩, ⟨8, [0x62]⟩] :=
  not_roundTrip_of_length List.length_replicate 8 ⟨8, [0x62]⟩ (by decide)

end CoLinux
