import CoLinux.Kernel.ManagerLife

/-!
# The pages of the reversed map

Which answers of the host the two loops of `co_manager_alloc_reversed_pfns` take, what they leave,
and that the loops of `co_manager_free_reversed_pfns` put back just that.
-/

namespace CoLinux

open Lib

variable {w w' : World} {n : Nat}

/-! ## Pages that are granted -/

/-- The next pages are `pfns`: new ones below the limit, each of them once. -/
structure PagesGranted (limit : Nat) (host : Host) (pfns : List Nat) (rest : List (Option Nat)) :
    Prop where
  answers : host.answers = pfns.map some ++ rest
  nodup : pfns.Nodup
  fine : ∀ p ∈ pfns, p ≠ 0 ∧ p ∉ host.out ∧ p < limit

/-- The host when pages have been handed out. -/
def Host.granted (host : Host) (pfns : List Nat) (rest : List (Option Nat)) : Host :=
  { host with answers := rest, out := pfns.reverse ++ host.out }

theorem coManagerGetPage_next {pfn : Nat} {rest : List (Option Nat)}
    (answers : w.host.answers = some pfn :: rest) (ne : pfn ≠ 0) (new : pfn ∉ w.host.out)
    (low : pfn < w.manager.hostmemPages) :
    coManagerGetPage w = (.ok pfn, w.setHost (w.host.granted [pfn] rest)) := by
  unfold coManagerGetPage coOsGetPage
  rw [answers]
  dsimp only
  rw [if_neg (not_or.mpr ⟨ne, new⟩)]
  exact if_neg (Nat.not_le.mpr low)

/-- The last page of those that are granted. -/
theorem PagesGranted.last {limit pfn : Nat} {host : Host} {pfns : List Nat}
    {rest : List (Option Nat)} (h : PagesGranted limit host (pfns ++ [pfn]) rest) :
    PagesGranted limit host pfns (some pfn :: rest) ∧ pfn ≠ 0 ∧
      pfn ∉ (host.granted pfns (some pfn :: rest)).out ∧ pfn < limit := by
  obtain ⟨answers, nodup, fine⟩ := h
  have here := fine pfn (List.mem_append_right _ List.mem_cons_self)
  have fresh : pfn ∉ pfns := by
    rw [List.nodup_append] at nodup
    exact fun mem => nodup.2.2 pfn mem pfn List.mem_cons_self rfl
  refine ⟨⟨?_, (List.nodup_append.mp nodup).1, fun p mem => fine p (List.mem_append_left _ mem)⟩,
    here.1, ?_, here.2.2⟩
  · rw [answers, List.map_append, List.append_assoc]
    rfl
  · intro mem
    rcases List.mem_append.mp mem with mem | mem
    · exact fresh (List.mem_reverse.mp mem)
    · exact here.2.1 mem

theorem PagesGranted.concat {limit pfn : Nat} {host : Host} {pfns : List Nat}
    {rest : List (Option Nat)} (h : PagesGranted limit host pfns (some pfn :: rest)) (ne : pfn ≠ 0)
    (new : pfn ∉ (host.granted pfns (some pfn :: rest)).out) (low : pfn < limit) :
    PagesGranted limit host (pfns ++ [pfn]) rest := by
  obtain ⟨answers, nodup, fine⟩ := h
  obtain ⟨fresh, notOut⟩ : pfn ∉ pfns ∧ pfn ∉ host.out := by
    rw [Host.granted, List.mem_append, List.mem_reverse] at new
    exact not_or.mp new
  refine ⟨?_, ?_, ?_⟩
  · rw [answers, List.map_append, List.append_assoc]
    rfl
  · rw [List.nodup_append]
    refine ⟨nodup, List.nodup_singleton pfn, fun x mem y mem' same => fresh ?_⟩
    rwa [← List.mem_singleton.mp mem', ← same]
  · intro p mem
    rcases List.mem_append.mp mem with mem | mem
    · exact fine p mem
    · rw [List.mem_singleton.mp mem]
      exact ⟨ne, notOut, low⟩

/-! ## The pages of the reversed map -/

/-- The world with other top level pages and another host. -/
def World.withTop (w : World) (map : Nat → Nat) (host : Host) : World :=
  (w.setManager { w.manager with reversedMapPfns := map }).setHost host

/-- The loop over the top level pages, where they are granted. -/
theorem allocTopLevelPages_granted {pfns : List Nat} {rest : List (Option Nat)}
    (granted : PagesGranted w.manager.hostmemPages w.host pfns rest) (length : pfns.length = n) :
    ∃ map, allocTopLevelPages n w = (.ok, w.withTop map (w.host.granted pfns rest)) ∧
      ∀ i < n, pfns[i]? = some (map i) := by
  induction n generalizing pfns rest with
  | zero =>
    obtain rfl := List.length_eq_zero_iff.mp length
    refine ⟨w.manager.reversedMapPfns, ?_, fun i hi => absurd hi (Nat.not_lt_zero i)⟩
    have answers := granted.answers
    rw [List.map_nil, List.nil_append] at answers
    rw [allocTopLevelPages, Host.granted, ← answers]
    rfl
  | succ n ih =>
    obtain ⟨pfns, pfn, rfl⟩ : ∃ init last, pfns = init ++ [last] := by
      rcases List.eq_nil_or_concat pfns with rfl | ⟨init, last, rfl⟩
      · cases length
      · exact ⟨init, last, List.concat_eq_append⟩
    rw [List.length_append, List.length_singleton] at length
    obtain ⟨first, ne, new, low⟩ := granted.last
    have count := Nat.succ.inj length
    obtain ⟨map, run, entries⟩ := ih first count
    refine ⟨fun i => if i = n then pfn else map i, ?_, fun i hi => ?_⟩
    · have page := @coManagerGetPage_next (w.withTop map (w.host.granted pfns (some pfn :: rest)))
        pfn rest rfl ne new low
      rw [allocTopLevelPages, run, Step.andThen_ok, page]
      refine Prod.ext rfl ?_
      simp [World.withTop, World.setManager, World.setHost, Host.granted]
    · dsimp only
      by_cases last : i = n
      · rw [if_pos last, last, ← count]
        exact List.getElem?_concat_length
      · rw [if_neg last, List.getElem?_append_left (by omega)]
        exact entries i (by omega)

/-- If the loop comes to its end, the pages are granted. -/
theorem exists_granted (ok : (allocTopLevelPages n w).1 = .ok) :
    ∃ pfns rest, PagesGranted w.manager.hostmemPages w.host pfns rest ∧ pfns.length = n := by
  induction n with
  | zero =>
    exact ⟨[], w.host.answers, ⟨rfl, List.nodup_nil, fun p mem => absurd mem List.not_mem_nil⟩, rfl⟩
  | succ n ih =>
    rw [allocTopLevelPages] at ok
    by_cases before : (allocTopLevelPages n w).1 = .ok
    · obtain ⟨pfns, rest, granted, count⟩ := ih before
      obtain ⟨map, run, -⟩ := allocTopLevelPages_granted granted count
      rw [run, Step.andThen_ok] at ok
      cases page : coManagerGetPage (w.withTop map (w.host.granted pfns rest)) with
      | mk result w' =>
        cases result with
        | error rc =>
          rw [page] at ok
          exact absurd ok (coManagerGetPage_error page).1
        | ok pfn =>
          obtain ⟨rest', answers, ne, new, low, -⟩ := coManagerGetPage_ok page
          obtain rfl : rest = some pfn :: rest' := answers
          exact ⟨pfns ++ [pfn], rest', granted.concat ne new low,
            by rw [List.length_append, count, List.length_singleton]⟩
    · rw [Step.andThen_of_ne before] at ok
      exact absurd ok before

/-! ## The page directory entries -/

def World.withPgd (w : World) (n pgd : Nat) : World :=
  w.setManager { w.manager with
    reversedMapPgds := fun i => if i = n then pgd else w.manager.reversedMapPgds i }

/-- An entry beyond the host's memory. -/
theorem allocReversedPgds_beyond {s : World × Nat} {used : Nat}
    (before : allocReversedPgds n s = (.ok, w, used))
    (beyond : w.manager.hostmemPages ≤ n * (ptrsPerPte * ptrsPerPgd)) :
    allocReversedPgds (n + 1) s = (.ok, w.withPgd n 0, used) := by
  rw [allocReversedPgds, before, Step.andThen_ok]
  exact if_pos beyond

/-- With no more than 4 GB there is at most one page of page tables, for the first entry. -/
theorem allocReversedPgds_ok {s : World × Nat} {used : Nat}
    (first : allocReversedPgds 1 s = (.ok, w, used)) (small : w.manager.hostmemPages ≤ 0x100000) :
    allocReversedPgds reversedMapPgdsCount s =
      (.ok, ((w.withPgd 1 0).withPgd 2 0).withPgd 3 0, used) := by
  have second := allocReversedPgds_beyond first (Nat.le_trans small (by decide))
  have third := allocReversedPgds_beyond second (Nat.le_trans small (by decide))
  exact allocReversedPgds_beyond third (Nat.le_trans small (by decide))

theorem allocReversedPgds_failed {s : World × Nat} (first : (allocReversedPgds 1 s).1 ≠ .ok) :
    allocReversedPgds reversedMapPgdsCount s = allocReversedPgds 1 s := by
  have next : ∀ k, allocReversedPgds k s = allocReversedPgds 1 s →
      allocReversedPgds (k + 1) s = allocReversedPgds 1 s := by
    intro k same
    rw [allocReversedPgds, same, Step.andThen_of_ne first]
  exact next 3 (next 2 (next 1 rfl))

theorem allocReversedPgds_none (none : w.manager.hostmemPages = 0) :
    allocReversedPgds 1 (w, 0) = (.ok, w.withPgd 0 0, 0) :=
  allocReversedPgds_beyond rfl (Nat.le_of_eq none)

/-- The world with the page table of the reversed map's pages. -/
def World.withPageTable (w : World) (pfn : Nat) : World :=
  (w.setMem (w.mem.writeWords (pfn * coArchPageSize) ptrsPerPte
    (reversedPageTable w.manager 0))).withPgd 0
      (pfn <<< coArchPageShift % wordSize ||| kernpgTable)

theorem allocReversedPgds_page {pfn : Nat} (page : coManagerGetPage w = (.ok pfn, w'))
    (some : 0 < w.manager.hostmemPages) : ∃ used,
      allocReversedPgds 1 (w, 0) = (.ok, w'.withPageTable pfn, used) := by
  have less : ¬ w.manager.hostmemPages ≤ 0 * (ptrsPerPte * ptrsPerPgd) := by
    rw [Nat.zero_mul]
    exact Nat.not_le.mpr some
  refine ⟨min (0 + ptrsPerPte) w'.manager.reversedPageCount, ?_⟩
  rw [allocReversedPgds, allocReversedPgds, Step.andThen_ok]
  dsimp only
  rw [if_neg less, page]
  rfl

theorem allocReversedPgds_refused {rc : CoRc} (page : coManagerGetPage w = (.error rc, w'))
    (some : 0 < w.manager.hostmemPages) : (allocReversedPgds 1 (w, 0)).1 ≠ .ok := by
  have less : ¬ w.manager.hostmemPages ≤ 0 * (ptrsPerPte * ptrsPerPgd) := by
    rw [Nat.zero_mul]
    exact Nat.not_le.mpr some
  rw [allocReversedPgds, allocReversedPgds, Step.andThen_ok]
  dsimp only
  rw [if_neg less, page]
  exact (coManagerGetPage_error page).1

/-! ## What is put back -/

namespace ManagerRun

variable {s : ManagerRun}

/-- The run with other pages out. -/
def withOut (s : ManagerRun) (out : List Nat) : ManagerRun :=
  s.setWorld (s.world.setHost { s.world.host with out := out })

theorem putPage_out {pfn : Nat} (isOut : pfn ∈ s.world.host.out) :
    s.putPage pfn = s.withOut (s.world.host.out.filter (· ≠ pfn)) := if_pos isOut

/-- Pages that are out, each of them once, are put back. -/
theorem putTopLevelPages_out
    (isOut : ∀ i < n, s.world.manager.reversedMapPfns i ∈ s.world.host.out)
    (distinct : ∀ i < n, ∀ j < i,
      s.world.manager.reversedMapPfns i ≠ s.world.manager.reversedMapPfns j) :
    ∃ out, putTopLevelPages n s = s.withOut out ∧
      ∀ p, p ∈ out ↔ p ∈ s.world.host.out ∧ ∀ i < n, p ≠ s.world.manager.reversedMapPfns i := by
  induction n with
  | zero => exact ⟨s.world.host.out, rfl, fun p => by simp⟩
  | succ n ih =>
    obtain ⟨out, run, left⟩ := ih (fun i hi => isOut i (Nat.lt_succ_of_lt hi))
      fun i hi => distinct i (Nat.lt_succ_of_lt hi)
    have here : s.world.manager.reversedMapPfns n ∈ (s.withOut out).world.host.out :=
      (left _).mpr ⟨isOut n (Nat.lt_succ_self n), distinct n (Nat.lt_succ_self n)⟩
    refine ⟨out.filter (· ≠ s.world.manager.reversedMapPfns n), ?_, fun p => ?_⟩
    · rw [putTopLevelPages, run]
      exact putPage_out here
    · rw [List.mem_filter, left, decide_eq_true_eq, and_assoc]
      refine and_congr_right fun _ => ⟨fun ⟨before, last⟩ i hi => ?_, fun all =>
        ⟨fun i hi => all i (Nat.lt_succ_of_lt hi), all n (Nat.lt_succ_self n)⟩⟩
      rcases Nat.lt_succ_iff_lt_or_eq.mp hi with hi | rfl
      · exact before i hi
      · exact last

@[simp] theorem putPage_manager (pfn : Nat) (s : ManagerRun) :
    (s.putPage pfn).world.manager = s.world.manager := by
  unfold putPage
  split <;> rfl

theorem putReversedPgds_manager (n : Nat) (s : ManagerRun) :
    (putReversedPgds n s).world.manager = s.world.manager := by
  induction n with
  | zero => rfl
  | succ n ih =>
    rw [putReversedPgds]
    split
    · exact (putPage_manager _ _).trans ih
    · exact ih

/-- Only the first entry has a page. -/
theorem putReversedPgds_first (others : ∀ i, 0 < i → s.world.manager.reversedMapPgds i = 0)
    (k : Nat) : putReversedPgds (k + 1) s = putReversedPgds 1 s := by
  induction k with
  | zero => rfl
  | succ k ih =>
    have none : (putReversedPgds (k + 1) s).world.manager.reversedMapPgds (k + 1) = 0 := by
      rw [putReversedPgds_manager, others (k + 1) (Nat.succ_pos k)]
    rw [putReversedPgds, none, ih]
    rfl

/-! ## The tables of a manager that is loaded -/

/-- The pages that are out are those of the tables, each of them once. -/
structure TablesHeld (s : ManagerRun) : Prop where
  mapPfns : s.mapPfns = true
  mapPgds : s.mapPgds = true
  isOut : ∀ i < s.world.manager.reversedPageCount,
    s.world.manager.reversedMapPfns i ∈ s.world.host.out
  distinct : ∀ i < s.world.manager.reversedPageCount, ∀ j < i,
    s.world.manager.reversedMapPfns i ≠ s.world.manager.reversedMapPfns j
  pgdsCount : s.world.manager.reversedMapPgdsCount = reversedMapPgdsCount
  others : ∀ i, 0 < i → s.world.manager.reversedMapPgds i = 0
  first : s.world.manager.reversedMapPgds 0 ≠ 0 →
    s.world.manager.reversedMapPgds 0 >>> coArchPageShift ∈ s.world.host.out ∧
      ∀ i < s.world.manager.reversedPageCount,
        s.world.manager.reversedMapPgds 0 >>> coArchPageShift ≠ s.world.manager.reversedMapPfns i
  all : ∀ p ∈ s.world.host.out,
    (∃ i < s.world.manager.reversedPageCount, p = s.world.manager.reversedMapPfns i) ∨
      s.world.manager.reversedMapPgds 0 ≠ 0 ∧
        p = s.world.manager.reversedMapPgds 0 >>> coArchPageShift

/-- `co_manager_free_reversed_pfns` puts back all pages and frees both arrays. -/
theorem TablesHeld.free (h : s.TablesHeld) : s.coManagerFreeReversedPfns =
    ((s.withOut []).release .reversedMapPfns).release .reversedMapPgds := by
  obtain ⟨out, run, left⟩ := putTopLevelPages_out h.isOut h.distinct
  have pgds : putReversedPgds reversedMapPgdsCount ((s.withOut out).release .reversedMapPfns) =
      (s.withOut []).release .reversedMapPfns := by
    have one : putReversedPgds reversedMapPgdsCount ((s.withOut out).release .reversedMapPfns) =
        putReversedPgds 1 ((s.withOut out).release .reversedMapPfns) :=
      @putReversedPgds_first ((s.withOut out).release .reversedMapPfns) h.others 3
    rw [one, putReversedPgds, putReversedPgds]
    by_cases some : s.world.manager.reversedMapPgds 0 ≠ 0
    · have here : s.world.manager.reversedMapPgds 0 >>> coArchPageShift ∈ out :=
        (left _).mpr (h.first some)
      have rest : out.filter (· ≠ s.world.manager.reversedMapPgds 0 >>> coArchPageShift) = [] := by
        rw [List.filter_eq_nil_iff]
        intro p mem
        rw [decide_eq_true_eq, not_not]
        obtain ⟨isOut, notTop⟩ := (left p).mp mem
        rcases h.all p isOut with ⟨i, hi, same⟩ | ⟨-, same⟩
        · exact absurd same (notTop i hi)
        · exact same
      have put := @putPage_out ((s.withOut out).release .reversedMapPfns) _ here
      refine (if_pos some).trans (put.trans ?_)
      show ((s.withOut out).release .reversedMapPfns).withOut (out.filter _) = _
      rw [rest]
      rfl
    · have none : out = [] := by
        rw [List.eq_nil_iff_forall_not_mem]
        intro p mem
        obtain ⟨isOut, notTop⟩ := (left p).mp mem
        rcases h.all p isOut with ⟨i, hi, same⟩ | ⟨ne, -⟩
        · exact notTop i hi same
        · exact some ne
      rw [none]
      exact if_neg some
  unfold coManagerFreeReversedPfns
  rw [if_pos h.mapPfns, run]
  dsimp only
  rw [if_pos (show ((s.withOut out).release .reversedMapPfns).mapPgds = true from h.mapPgds)]
  rw [show ((s.withOut out).release .reversedMapPfns).world.manager.reversedMapPgdsCount =
    reversedMapPgdsCount from h.pgdsCount, pgds]

end ManagerRun

end CoLinux
