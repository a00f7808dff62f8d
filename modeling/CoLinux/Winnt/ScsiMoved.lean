import CoLinux.Winnt.ScsiTransfer

/-!
# What a SCSI transfer has moved

The calls of a request are those for the pieces of its list, in order, and the running offset counts
the pieces that were answered with success. Which bytes have moved is then a question about the
list of pieces with their answers.
-/

namespace CoLinux

open Lib

/-- The running offset moves on for success only. -/
abbrev onSuccess : NtStatus → Bool := fun status => status = .success

theorem scsiTransferFileBlock_eq (host : Nat → IoAnswer) (dir : TransferDir) :
    scsiTransferFileBlock host dir = transferFile onSuccess host dir := by
  funext linuxvm size m
  unfold scsiTransferFileBlock transferFile
  dsimp only
  by_cases success : (zwTransferFile host dir linuxvm size m).1.status = .success
  · rw [if_neg (not_not.mpr success), if_pos (decide_eq_true success), success]
    rfl
  · rw [if_pos success, if_neg (by simpa using success)]

/-! ## Lists of pieces -/

/-- The bytes a piece has moved. -/
def FilePiece.count (p : FilePiece) : Nat := min p.answer.information p.size

/-- The bytes that the running offset counts. -/
def claimed : List FilePiece → Nat
  | [] => 0
  | p :: ps => (if p.answer.status = .success then p.size else 0) + claimed ps

def totalSize : List FilePiece → Nat
  | [] => 0
  | p :: ps => p.size + totalSize ps

/-- The running offset counts what was moved: pieces answered with success are whole, and once a
piece was not, nothing more moves and the offset does not move on by more than that piece moved. -/
def Residual : List FilePiece → Prop
  | [] => True
  | p :: ps =>
    if p.answer.status = .success then p.count = p.size ∧ Residual ps
    else p.count = claimed ps ∧ ∀ q ∈ ps, q.count = 0

/-- The first `n` bytes of some pieces have moved, and no others. -/
def Exact : List FilePiece → Nat → Prop
  | [], n => n = 0
  | p :: ps, n =>
    if p.answer.status = .success ∧ p.count = p.size then p.size ≤ n ∧ Exact ps (n - p.size)
    else n = p.count ∧ ∀ q ∈ ps, q.count = 0

/-- The bytes of the pieces are kept where `slots` says. -/
def Slotted (slots : Nat → Nat) : Nat → List FilePiece → Prop
  | _, [] => True
  | k, p :: ps => (∀ i < p.size, slots (k + i) = p.slot + i) ∧ Slotted slots (k + p.size) ps

theorem slotted_cons {slots : Nat → Nat} {k : Nat} {p : FilePiece} {ps : List FilePiece} :
    Slotted slots k (p :: ps) ↔
      (∀ i < p.size, slots (k + i) = p.slot + i) ∧ Slotted slots (k + p.size) ps := Iff.rfl

theorem claimed_le (ps : List FilePiece) : claimed ps ≤ totalSize ps := by
  induction ps with
  | nil => exact Nat.le_refl 0
  | cons p ps ih =>
    unfold claimed totalSize
    split <;> omega

/-- Pieces that are whole leave nothing. -/
theorem residual_of_whole {ps : List FilePiece}
    (whole : ∀ p ∈ ps, p.answer.status = .success ∧ p.count = p.size) : Residual ps := by
  induction ps with
  | nil => trivial
  | cons p ps ih =>
    obtain ⟨⟨success, count⟩, rest⟩ := List.forall_mem_cons.mp whole
    rw [Residual, if_pos success]
    exact ⟨count, ih rest⟩

theorem claimed_eq_totalSize {ps : List FilePiece}
    (success : ∀ p ∈ ps, p.answer.status = .success) : claimed ps = totalSize ps := by
  induction ps with
  | nil => rfl
  | cons p ps ih =>
    obtain ⟨first, rest⟩ := List.forall_mem_cons.mp success
    rw [claimed, totalSize, if_pos first, ih rest]

/-- What the running offset counts is what has moved when the pieces are no larger than a page. -/
theorem exact_claimed {ps : List FilePiece} (small : ∀ p ∈ ps, p.size ≤ 4096) (m : Nat) :
    Exact ps (claimed ps + m * wordSize) ↔ Residual ps ∧ m = 0 := by
  induction ps with
  | nil =>
    simp only [Exact, claimed, Residual, wordSize, true_and]
    omega
  | cons p ps ih =>
    obtain ⟨page, small⟩ := List.forall_mem_cons.mp small
    have bound : p.count ≤ p.size := Nat.min_le_right _ _
    unfold Exact claimed Residual
    by_cases success : p.answer.status = .success
    · rw [if_pos success, if_pos success]
      by_cases whole : p.count = p.size
      · rw [if_pos ⟨success, whole⟩, show p.size + claimed ps + m * wordSize - p.size =
          claimed ps + m * wordSize by omega, ih small]
        exact ⟨fun h => ⟨⟨whole, h.2.1⟩, h.2.2⟩, fun h => ⟨by omega, h.1.2, h.2⟩⟩
      · rw [if_neg fun h => whole h.2]
        exact ⟨fun h => absurd h.1 (by omega), fun h => absurd h.1.1 whole⟩
    · rw [if_neg success, if_neg success, if_neg fun h => success h.1]
      simp only [wordSize]
      constructor
      · rintro ⟨same, nothing⟩
        have : m = 0 := by omega
        exact ⟨⟨by omega, nothing⟩, this⟩
      · rintro ⟨⟨same, nothing⟩, rfl⟩
        exact ⟨by omega, nothing⟩

theorem index_le {index : Nat} {calls : List IoCall} {b : MovedByte}
    (h : b ∈ movedBytes index calls) : index ≤ b.index := by
  induction calls generalizing index with
  | nil => exact absurd h List.not_mem_nil
  | cons call calls ih =>
    rcases List.mem_append.mp h with first | later
    · obtain ⟨i, -, rfl⟩ := List.mem_map.mp first
      exact Nat.le_add_right _ _
    · have := ih later
      omega

/-- Behind a piece that the offset did not count, no byte goes to its place. -/
theorem lagging {advances : NtStatus → Bool} {base offset index : Nat} {ps : List FilePiece}
    (behind : offset < base + index) {b : MovedByte}
    (h : b ∈ movedBytes index (callsFrom advances offset ps))
    (inFile : base + b.index < maxFileOffset) : b.position ≠ base + b.index := by
  induction ps generalizing offset index with
  | nil => exact absurd h List.not_mem_nil
  | cons p ps ih =>
    rw [callsFrom] at h
    rcases List.mem_append.mp h with first | later
    · obtain ⟨i, -, rfl⟩ := List.mem_map.mp first
      have before : offset < maxFileOffset := by
        simp only at inFile
        omega
      simp only [if_pos before]
      omega
    · refine ih ?_ later
      simp only
      split
      · have := Nat.mod_le (offset + p.size) quadSize
        omega
      · omega

theorem movedBytes_nil {advances : NtStatus → Bool} {offset index : Nat} {ps : List FilePiece} :
    movedBytes index (callsFrom advances offset ps) = [] ↔ ∀ p ∈ ps, p.count = 0 := by
  induction ps generalizing offset index with
  | nil => simp [callsFrom, movedBytes]
  | cons p ps ih =>
    rw [callsFrom, movedBytes, List.append_eq_nil_iff, ih, List.forall_mem_cons, List.map_eq_nil_iff,
      List.range_eq_nil]
    rfl

/-- `n` bytes from the index `index` on, each moved to its place. -/
def inPlace (slots : Nat → Nat) (base index n : Nat) : List MovedByte :=
  (List.range n).map fun k => ⟨index + k, slots (index + k), base + (index + k)⟩

theorem inPlace_add (slots : Nat → Nat) (base index n k : Nat) :
    inPlace slots base index (n + k) =
      inPlace slots base index n ++ inPlace slots base (index + n) k := by
  simp only [inPlace, List.range_add, List.map_append, List.map_map]
  congr 1
  exact List.map_congr_left fun i _ => by simp [Nat.add_assoc]

theorem mem_inPlace {slots : Nat → Nat} {base index n : Nat} {b : MovedByte} :
    b ∈ inPlace slots base index n ↔
      ∃ k < n, b = ⟨index + k, slots (index + k), base + (index + k)⟩ := by
  simp [inPlace, eq_comm]

@[simp] theorem inPlace_length (slots : Nat → Nat) (base index n : Nat) :
    (inPlace slots base index n).length = n := by
  simp [inPlace]

/-- A piece that is issued at the right offset moves its bytes to their places. -/
theorem piece_inPlace {slots : Nat → Nat} {base index c : Nat} {p : FilePiece}
    (slot : ∀ i < p.size, slots (index + i) = p.slot + i) (le : c ≤ p.size)
    (inFile : ∀ k < c, base + (index + k) < maxFileOffset) :
    ((List.range c).map fun i => (⟨index + i, p.slot + i,
      (if (base + index) % quadSize < maxFileOffset then (base + index) % quadSize
        else p.answer.position) + i⟩ : MovedByte)) = inPlace slots base index c := by
  refine List.map_congr_left fun i hi => ?_
  have hi := List.mem_range.mp hi
  have here : base + index < maxFileOffset := Nat.lt_of_le_of_lt (by omega) (inFile i hi)
  rw [Nat.mod_eq_of_lt (Nat.lt_trans here (by decide)), if_pos here, slot i (by omega),
    Nat.add_assoc]

/-- The calls for some pieces move the first `n` bytes to their places and no others if and only
if the answers say so. -/
theorem movedBytes_exact {slots : Nat → Nat} {base index n : Nat} {ps : List FilePiece}
    (slotted : Slotted slots index ps) (nonempty : ∀ p ∈ ps, 0 < p.size)
    (inFile : ∀ k < n, base + (index + k) < maxFileOffset) :
    movedBytes index (callsFrom onSuccess ((base + index) % quadSize) ps) =
      inPlace slots base index n ↔ Exact ps n := by
  induction ps generalizing index n with
  | nil =>
    have : ([] : List MovedByte) = inPlace slots base index n ↔ n = 0 := by
      rw [eq_comm, ← List.length_eq_zero_iff, inPlace_length]
    exact this
  | cons p ps ih =>
    obtain ⟨slot, slotted⟩ := slotted
    obtain ⟨pos, nonempty⟩ := List.forall_mem_cons.mp nonempty
    have bound : p.count ≤ p.size := Nat.min_le_right _ _
    rw [callsFrom, movedBytes]
    unfold Exact
    by_cases whole : p.answer.status = .success ∧ p.count = p.size
    · rw [if_pos whole, if_pos (decide_eq_true whole.1), Nat.mod_add_mod, Nat.add_assoc]
      have count : min p.answer.information p.size = p.size := whole.2
      simp only [count]
      by_cases enough : p.size ≤ n
      · obtain ⟨m, rfl⟩ := Nat.exists_eq_add_of_le enough
        rw [piece_inPlace slot (Nat.le_refl _) fun k hk => inFile k (by omega), inPlace_add,
          List.append_cancel_left_eq, Nat.add_sub_cancel_left,
          ih slotted nonempty fun k hk => by
            have := inFile (p.size + k) (by omega)
            rwa [← Nat.add_assoc index] at this]
        exact ⟨fun h => ⟨enough, h⟩, fun h => h.2⟩
      · refine ⟨fun same => ?_, fun h => absurd h.1 enough⟩
        have := congrArg List.length same
        rw [List.length_append, List.length_map, List.length_range, inPlace_length] at this
        omega
    · rw [if_neg whole]
      have count : min p.answer.information p.size = p.count := rfl
      simp only [count]
      constructor
      · intro same
        -- a byte of a later piece would have to stand right behind the bytes of this one
        have nothing : movedBytes (index + p.size) (callsFrom onSuccess
            (if onSuccess p.answer.status then ((base + index) % quadSize + p.size) % quadSize
              else (base + index) % quadSize) ps) = [] := by
          refine List.eq_nil_iff_forall_not_mem.mpr fun b hb => ?_
          have later := index_le hb
          have there := List.mem_append_right ((List.range p.count).map fun i =>
            (⟨index + i, p.slot + i, (if (base + index) % quadSize < maxFileOffset then
              (base + index) % quadSize else p.answer.position) + i⟩ : MovedByte)) hb
          rw [same] at there
          obtain ⟨k, hk, rfl⟩ := mem_inPlace.mp there
          simp only at later
          by_cases success : p.answer.status = .success
          · have short : p.count < p.size := Nat.lt_of_le_of_ne bound fun h => whole ⟨success, h⟩
            have gap : (⟨index + p.count, slots (index + p.count), base + (index + p.count)⟩ :
                MovedByte) ∈ inPlace slots base index n := mem_inPlace.mpr ⟨_, by omega, rfl⟩
            rw [← same] at gap
            rcases List.mem_append.mp gap with first | rest
            · obtain ⟨i, hi, eq⟩ := List.mem_map.mp first
              have := congrArg MovedByte.index eq
              have := List.mem_range.mp hi
              simp only at *
              omega
            · have := index_le rest
              simp only at this
              omega
          · rw [if_neg (by simpa using success)] at hb
            have := Nat.mod_le (base + index) quadSize
            exact lagging (by omega) hb (inFile k hk) rfl
        have length := congrArg List.length same
        rw [nothing, List.append_nil, List.length_map, List.length_range, inPlace_length] at length
        exact ⟨length.symm, movedBytes_nil.mp nothing⟩
      · rintro ⟨rfl, none⟩
        rw [movedBytes_nil.mpr none, List.append_nil]
        exact piece_inPlace slot bound inFile

/-! ## The pieces of a list -/

/-- The pieces of the entries of a list, for a host whose next call has the number `k`. -/
def sgPieces (w : World) (host : Nat → IoAnswer) : Nat → List SgEntry → List FilePiece
  | _, [] => []
  | k, e :: entries =>
    filePieces w host k e.address e.length ++
      sgPieces w host (k + (filePieces w host k e.address e.length).length) entries

/-- The pieces have the answers of the host. -/
theorem sgPieces_answer {w : World} {host : Nat → IoAnswer} {k : Nat} {entries : List SgEntry}
    {p : FilePiece} (h : p ∈ sgPieces w host k entries) : ∃ j, p.answer = host j := by
  induction entries generalizing k with
  | nil => exact absurd h List.not_mem_nil
  | cons e entries ih =>
    rcases List.mem_append.mp h with first | later
    · obtain ⟨i, _, rfl⟩ := List.mem_mapIdx.mp first
      exact ⟨k + i, rfl⟩
    · exact ih later

theorem slotted_append {slots : Nat → Nat} {k : Nat} {ps qs : List FilePiece} :
    Slotted slots k (ps ++ qs) ↔ Slotted slots k ps ∧ Slotted slots (k + totalSize ps) qs := by
  induction ps generalizing k with
  | nil => exact ⟨fun h => ⟨trivial, h⟩, fun h => h.2⟩
  | cons p ps ih =>
    simp only [List.cons_append, Slotted, totalSize, ih, Nat.add_assoc, and_assoc]

theorem totalSize_append (ps qs : List FilePiece) :
    totalSize (ps ++ qs) = totalSize ps + totalSize qs := by
  induction ps with
  | nil => exact (Nat.zero_add _).symm
  | cons p ps ih => rw [List.cons_append, totalSize, ih, totalSize, Nat.add_assoc]

/-- What is known of the pieces of a range. -/
theorem filePieces_spec (w : World) (host : Nat → IoAnswer) {slots : Nat → Nat} {j k vaddr size : Nat}
    (hv : vaddr < wordSize) (h : ∀ i < size, slots (k + i) = w.byteSlot (vaddr + i)) :
    Slotted slots k (filePieces w host j vaddr size) ∧
      totalSize (filePieces w host j vaddr size) = size ∧
      ∀ p ∈ filePieces w host j vaddr size, 0 < p.size ∧ p.size ≤ 4096 := by
  induction size using Nat.strongRecOn generalizing vaddr j k with
  | ind size ih =>
    by_cases hs : size = 0
    · subst hs
      exact ⟨trivial, rfl, fun p hp => absurd hp List.not_mem_nil⟩
    obtain ⟨pos, le, inPage⟩ := partSize_bounds hv hs
    rw [filePieces_cons w host j hv hs]
    generalize min (pagePart vaddr) size = n at pos le inPage
    have rest (i : Nat) (hi : i < size - n) :
        slots (k + n + i) = w.byteSlot ((vaddr + n) % wordSize + i) := by
      rw [byteSlot_next, Nat.add_assoc]
      exact h (n + i) (by omega)
    obtain ⟨slotted, total, sizes⟩ :=
      @ih (size - n) (by omega) (j + 1) (k + n) ((vaddr + n) % wordSize) (Nat.mod_lt _ (by decide))
        rest
    have first (i : Nat) (hi : i < n) : slots (k + i) = w.guestAddress vaddr + i := by
      rw [h i (by omega), byteSlot_piece w hv inPage hi]
    have page : n ≤ 4096 := by omega
    refine ⟨slotted_cons.mpr ⟨first, slotted⟩, ?_, ?_⟩
    · rw [totalSize, total, Nat.add_sub_cancel' le]
    · intro p hp
      rcases List.mem_cons.mp hp with rfl | hp
      · exact ⟨pos, page⟩
      · exact sizes p hp

theorem SgEntry.address_lt (e : SgEntry) : e.address < wordSize := Nat.mod_lt _ (by decide)

theorem sgBytes_cons (e : SgEntry) (entries : List SgEntry) :
    sgBytes (e :: entries) =
      ((List.range e.length).map fun i => (e.address + i) % wordSize) ++ sgBytes entries := rfl

theorem sgBytes_first (e : SgEntry) (entries : List SgEntry) {i : Nat} (hi : i < e.length) :
    (sgBytes (e :: entries)).getD i 0 = (e.address + i) % wordSize := by
  have inFirst : i < ((List.range e.length).map fun i => (e.address + i) % wordSize).length := by
    rwa [List.length_map, List.length_range]
  rw [sgBytes_cons, List.getD_eq_getElem?_getD, List.getElem?_append_left inFirst,
    List.getElem?_map, List.getElem?_range hi, Option.map_some, Option.getD_some]

theorem sgBytes_later (e : SgEntry) (entries : List SgEntry) (i : Nat) :
    (sgBytes (e :: entries)).getD (e.length + i) 0 = (sgBytes entries).getD i 0 := by
  have length : ((List.range e.length).map fun i => (e.address + i) % wordSize).length =
      e.length := by
    rw [List.length_map, List.length_range]
  rw [sgBytes_cons, List.getD_eq_getElem?_getD, List.getElem?_append_right (by omega), length,
    Nat.add_sub_cancel_left, List.getD_eq_getElem?_getD]

/-- What is known of the pieces of a list. -/
theorem sgPieces_spec (w : World) (host : Nat → IoAnswer) {slots : Nat → Nat} {j k : Nat}
    (entries : List SgEntry)
    (h : ∀ i < (sgBytes entries).length,
      slots (k + i) = w.guestAddress ((sgBytes entries).getD i 0)) :
    Slotted slots k (sgPieces w host j entries) ∧
      totalSize (sgPieces w host j entries) = (sgBytes entries).length ∧
      ∀ p ∈ sgPieces w host j entries, 0 < p.size ∧ p.size ≤ 4096 := by
  induction entries generalizing j k with
  | nil => exact ⟨trivial, rfl, fun p hp => absurd hp List.not_mem_nil⟩
  | cons e entries ih =>
    have length : (sgBytes (e :: entries)).length = e.length + (sgBytes entries).length := by
      simp [sgBytes_cons]
    rw [length] at h
    have first (i : Nat) (hi : i < e.length) : slots (k + i) = w.byteSlot (e.address + i) := by
      rw [h i (by omega), sgBytes_first e entries hi, World.byteSlot]
    have later (i : Nat) (hi : i < (sgBytes entries).length) :
        slots (k + e.length + i) = w.guestAddress ((sgBytes entries).getD i 0) := by
      rw [Nat.add_assoc, h (e.length + i) (by omega), sgBytes_later]
    obtain ⟨slotted, total, sizes⟩ := @filePieces_spec w host slots j k _ _ e.address_lt first
    obtain ⟨slotted', total', sizes'⟩ :=
      @ih (j + (filePieces w host j e.address e.length).length) (k + e.length) later
    refine ⟨slotted_append.mpr ⟨slotted, total.symm ▸ slotted'⟩, ?_, ?_⟩
    · rw [sgPieces, totalSize_append, total, total', length]
    · rw [sgPieces]
      exact List.forall_mem_append.mpr ⟨sizes, sizes'⟩

end CoLinux
