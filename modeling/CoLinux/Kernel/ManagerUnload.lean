import CoLinux.Kernel.ManagerTables

/-!
# What a load that fails leaves behind

A manager that was loaded gives everything back when it is unloaded. A load that fails does so too,
unless it fails at the mutex of the operating system's part or behind the first array of the
reversed map.
-/

namespace CoLinux

open Lib

/-- How many pages the reversed map takes. -/
def tablePages (hostmemPages : Nat) : Nat := hostmemPages / ptrsPerPte + min hostmemPages 1

/-- Both arrays of the reversed map and all of its pages are granted. -/
def TablesGranted (hostmemPages : Nat) (host : Host) : Prop :=
  (∃ mallocs, host.mallocs = true :: true :: mallocs) ∧
    ∃ pfns rest, PagesGranted hostmemPages host pfns rest ∧ pfns.length = tablePages hostmemPages

namespace ManagerRun

variable {s : ManagerRun} {a : LoadAnswers}

@[simp] theorem release_ledger (s : ManagerRun) (r : ManagerResource) :
    (s.release r).ledger = s.ledger.release r := rfl
@[simp] theorem setWorld_ledger (s : ManagerRun) (w : World) : (s.setWorld w).ledger = s.ledger :=
  rfl
@[simp] theorem setState_ledger (s : ManagerRun) (state : ManagerState) :
    (s.setState state).ledger = s.ledger := rfl

/-! ## The tables -/

theorem coOsMalloc_granted {w : World} {mallocs : List Bool}
    (granted : w.host.mallocs = true :: mallocs) :
    coOsMalloc w = (true, w.setHost { w.host with mallocs := mallocs }) := by
  rw [coOsMalloc, granted]

theorem coOsMalloc_refused {w : World} (refused : w.host.mallocs.head? ≠ some true) :
    ∃ w', coOsMalloc w = (false, w') := by
  rw [coOsMalloc]
  cases mallocs : w.host.mallocs with
  | nil => exact ⟨_, rfl⟩
  | cons granted rest =>
    cases granted with
    | true => exact absurd (by rw [mallocs]; rfl) refused
    | false => exact ⟨_, rfl⟩

theorem exists_cons_of_head? {mallocs : List Bool} (granted : mallocs.head? = some true) :
    ∃ rest, mallocs = true :: rest := by
  cases mallocs with
  | nil => cases granted
  | cons answer rest => exact ⟨rest, congrArg (· :: rest) (Option.some.inj granted)⟩

/-- The world with the first array of the reversed map. -/
def topWorld (w : World) (mallocs : List Bool) : World :=
  { w with
    manager := { w.manager with
      reversedPageCount := w.manager.hostmemPages / ptrsPerPte
      reversedMapPfns := fun _ => 0 }
    host := { w.host with mallocs := mallocs } }

/-- The first array is refused. -/
theorem allocReversed_refused (refused : s.world.host.mallocs.head? ≠ some true) :
    ∃ w, s.coManagerAllocReversedPfns = some (.outOfMemory, s.setWorld w) := by
  obtain ⟨w, malloc⟩ := @coOsMalloc_refused (s.world.setManager { s.world.manager with
    reversedPageCount := s.world.manager.hostmemPages / ptrsPerPte }) refused
  refine ⟨w, ?_⟩
  unfold coManagerAllocReversedPfns
  dsimp only
  rw [malloc]

/-- The first array is granted. -/
theorem allocReversed_granted {mallocs : List Bool}
    (granted : s.world.host.mallocs = true :: mallocs) {top : Step World}
    (run : allocTopLevelPages (s.world.manager.hostmemPages / ptrsPerPte)
      (topWorld s.world mallocs) = top) :
    s.coManagerAllocReversedPfns =
      if top.1 ≠ .ok then
        some (top.1, { s.acquire .reversedMapPfns with world := top.2, mapPfns := true })
      else
        allocPgds { s.acquire .reversedMapPfns with world := top.2, mapPfns := true } := by
  have malloc := @coOsMalloc_granted (s.world.setManager { s.world.manager with
    reversedPageCount := s.world.manager.hostmemPages / ptrsPerPte }) mallocs granted
  subst run
  unfold coManagerAllocReversedPfns
  dsimp only
  rw [malloc]
  rfl

/-- The pages that are out are those of the reversed map. -/
structure TopHeld (s : ManagerRun) : Prop where
  mapPfns : s.mapPfns = true
  isOut : ∀ i < s.world.manager.reversedPageCount,
    s.world.manager.reversedMapPfns i ∈ s.world.host.out
  distinct : ∀ i < s.world.manager.reversedPageCount, ∀ j < i,
    s.world.manager.reversedMapPfns i ≠ s.world.manager.reversedMapPfns j
  all : ∀ p ∈ s.world.host.out,
    ∃ i < s.world.manager.reversedPageCount, p = s.world.manager.reversedMapPfns i
  pgds : ∀ i, s.world.manager.reversedMapPgds i = 0

/-- The pages of the first loop. -/
theorem topHeld_granted {w : World} {map : Nat → Nat} {pfns : List Nat} {rest : List (Option Nat)}
    (granted : PagesGranted w.manager.hostmemPages w.host pfns rest) (none : w.host.out = [])
    (count : w.manager.reversedPageCount = pfns.length)
    (pgds : ∀ i, w.manager.reversedMapPgds i = 0)
    (entries : ∀ i < pfns.length, pfns[i]? = some (map i)) :
    TopHeld { s with world := w.withTop map (w.host.granted pfns rest), mapPfns := true } where
  mapPfns := rfl
  isOut := fun i hi => by
    have entry := entries i (count ▸ hi)
    exact List.mem_append_left _ (List.mem_reverse.mpr (List.mem_of_getElem? entry))
  distinct := fun i hi j hj same => by
    have hi : i < pfns.length := count ▸ hi
    have equal : pfns[i]? = pfns[j]? := by
      rw [entries i hi, entries j (Nat.lt_trans hj hi)]
      exact congrArg some same
    exact absurd ((List.getElem?_inj hi granted.nodup).mp equal) (Nat.ne_of_gt hj)
  all := fun p mem => by
    have inside : p ∈ pfns := by
      rcases List.mem_append.mp mem with mem | mem
      · exact List.mem_reverse.mp mem
      · rw [none] at mem
        exact absurd mem List.not_mem_nil
    obtain ⟨i, hi, same⟩ := List.getElem_of_mem inside
    refine ⟨i, count.symm ▸ hi, Option.some.inj ?_⟩
    rw [← same, ← List.getElem?_eq_getElem hi]
    exact entries i hi
  pgds := pgds

/-- The world with both arrays, before the page directory entries. -/
def pgdsWorld (w : World) (mallocs : List Bool) : World :=
  (w.setHost { w.host with mallocs := mallocs }).setManager
    { w.manager with reversedMapPgdsCount := reversedMapPgdsCount }

theorem allocPgds_refused (refused : s.world.host.mallocs.head? ≠ some true) :
    s.allocPgds = none := by
  obtain ⟨w, malloc⟩ := coOsMalloc_refused refused
  rw [allocPgds, malloc]

theorem allocPgds_granted {mallocs : List Bool}
    (granted : s.world.host.mallocs = true :: mallocs) {pgds : Step (World × Nat)}
    (run : allocReversedPgds reversedMapPgdsCount (pgdsWorld s.world mallocs, 0) = pgds) :
    s.allocPgds =
      some (pgds.1, { s.acquire .reversedMapPgds with world := pgds.2.1, mapPgds := true }) := by
  subst run
  rw [allocPgds, coOsMalloc_granted granted]
  rfl

theorem pgd_shift {pfn : Nat} (ne : pfn ≠ 0) (low : pfn < 2 ^ 20) :
    pfn <<< coArchPageShift % wordSize ||| kernpgTable ≠ 0 ∧
      (pfn <<< coArchPageShift % wordSize ||| kernpgTable) >>> coArchPageShift = pfn := by
  have entry := linuxPte_of_ne ne low
  rw [linuxPte, if_neg ne] at entry
  rw [entry, Nat.shiftRight_eq_div_pow]
  simp only [coArchPageShift]
  omega

/-- The second half without a page of page tables. -/
theorem TopHeld.allocPgds_none (h : s.TopHeld) {mallocs : List Bool}
    (granted : s.world.host.mallocs = true :: mallocs) (none : s.world.manager.hostmemPages = 0) :
    ∃ w, s.allocPgds =
        some (.ok, { s.acquire .reversedMapPgds with world := w, mapPgds := true }) ∧
      TablesHeld { s.acquire .reversedMapPgds with world := w, mapPgds := true } := by
  have first := @allocReversedPgds_none (pgdsWorld s.world mallocs) none
  have all := allocReversedPgds_ok first (Nat.le_trans (Nat.le_of_eq none) (Nat.zero_le _))
  refine ⟨_, allocPgds_granted granted all, ?_⟩
  have entries : ∀ i, (((((pgdsWorld s.world mallocs).withPgd 0 0).withPgd 1 0).withPgd 2 0).withPgd
      3 0).manager.reversedMapPgds i = 0 := by
    intro i
    simp [World.withPgd, World.setManager, pgdsWorld, h.pgds i]
  exact {
    mapPfns := h.mapPfns
    mapPgds := rfl
    isOut := h.isOut
    distinct := h.distinct
    pgdsCount := rfl
    others := fun i _ => entries i
    first := fun ne => absurd (entries 0) ne
    all := fun p mem => .inl (h.all p mem) }

/-- The second half with its page. -/
theorem TopHeld.allocPgds_page (h : s.TopHeld) {mallocs : List Bool} {pfn : Nat}
    {rest : List (Option Nat)} (granted : s.world.host.mallocs = true :: mallocs)
    (answers : s.world.host.answers = some pfn :: rest) (ne : pfn ≠ 0)
    (new : pfn ∉ s.world.host.out) (low : pfn < s.world.manager.hostmemPages)
    (small : s.world.manager.hostmemPages ≤ 0x100000) :
    ∃ w, s.allocPgds =
        some (.ok, { s.acquire .reversedMapPgds with world := w, mapPgds := true }) ∧
      TablesHeld { s.acquire .reversedMapPgds with world := w, mapPgds := true } := by
  have page := @coManagerGetPage_next (pgdsWorld s.world mallocs) pfn rest answers ne new low
  have some : 0 < (pgdsWorld s.world mallocs).manager.hostmemPages := Nat.zero_lt_of_lt low
  obtain ⟨used, first⟩ := allocReversedPgds_page page some
  have all := allocReversedPgds_ok first small
  refine ⟨_, allocPgds_granted granted all, ?_⟩
  obtain ⟨nonzero, shift⟩ := pgd_shift ne (Nat.lt_of_lt_of_le low small)
  exact {
    mapPfns := h.mapPfns
    mapPgds := rfl
    isOut := fun i hi => List.mem_cons_of_mem _ (h.isOut i hi)
    distinct := h.distinct
    pgdsCount := rfl
    others := fun i pos => by
      simp [World.withPgd, World.withPageTable, World.setManager, World.setMem, World.setHost,
        pgdsWorld, h.pgds i, Nat.ne_of_gt pos]
    first := fun _ => by
      have entry : ((((((pgdsWorld s.world mallocs).setHost
          ((pgdsWorld s.world mallocs).host.granted [pfn] rest)).withPageTable pfn).withPgd 1
            0).withPgd 2 0).withPgd 3 0).manager.reversedMapPgds 0 >>> coArchPageShift = pfn :=
        shift
      refine ⟨?_, fun i hi same => ?_⟩
      · dsimp only
        rw [entry]
        exact List.mem_cons_self
      · dsimp only at same
        rw [entry] at same
        exact new (same ▸ h.isOut i hi)
    all := fun p mem => by
      rcases List.mem_cons.mp mem with rfl | mem
      · exact .inr ⟨nonzero, shift.symm⟩
      · exact .inl (h.all p mem) }

/-- The manager before its tables are allocated. -/
structure NoTables (s : ManagerRun) : Prop where
  out : s.world.host.out = []
  pgds : ∀ i, s.world.manager.reversedMapPgds i = 0
  small : s.world.manager.hostmemPages ≤ 0x100000

/-- The run with the first array and its pages. -/
def withTop (s : ManagerRun) (w : World) : ManagerRun :=
  { s.acquire .reversedMapPfns with world := w, mapPfns := true }

/-- The run with both arrays. -/
def withPgds (s : ManagerRun) (w : World) : ManagerRun :=
  { (s.acquire .reversedMapPfns).acquire .reversedMapPgds with
    world := w, mapPfns := true, mapPgds := true }

/-- All that follows a first loop that comes to its end. -/
theorem NoTables.top (h : s.NoTables) {mallocs : List Bool}
    (granted : s.world.host.mallocs = true :: mallocs) {pfns : List Nat}
    {rest : List (Option Nat)}
    (pages : PagesGranted s.world.manager.hostmemPages s.world.host pfns rest)
    (length : pfns.length = s.world.manager.hostmemPages / ptrsPerPte) :
    ∃ map, s.coManagerAllocReversedPfns =
        (s.withTop ((topWorld s.world mallocs).withTop map
          ((topWorld s.world mallocs).host.granted pfns rest))).allocPgds ∧
      TopHeld (s.withTop ((topWorld s.world mallocs).withTop map
        ((topWorld s.world mallocs).host.granted pfns rest))) := by
  have pages' : PagesGranted (topWorld s.world mallocs).manager.hostmemPages
      (topWorld s.world mallocs).host pfns rest := ⟨pages.answers, pages.nodup, pages.fine⟩
  obtain ⟨map, run, entries⟩ := allocTopLevelPages_granted pages' length
  refine ⟨map, ?_, ?_⟩
  · rw [allocReversed_granted granted run]
    exact if_neg (not_not.mpr rfl)
  · exact topHeld_granted pages' h.out length.symm h.pgds fun i hi => entries i (length ▸ hi)

/-- Where all is granted the tables are there. -/
theorem NoTables.allocReversed_ok (h : s.NoTables)
    (granted : TablesGranted s.world.manager.hostmemPages s.world.host) :
    ∃ w, s.coManagerAllocReversedPfns = some (.ok, s.withPgds w) ∧
      TablesHeld (s.withPgds w) := by
  obtain ⟨⟨mallocs, arrays⟩, pfns, rest, pages, length⟩ := granted
  by_cases none : s.world.manager.hostmemPages = 0
  · have count : pfns.length = s.world.manager.hostmemPages / ptrsPerPte := by
      rw [length, tablePages, none]
      rfl
    obtain ⟨map, run, top⟩ := h.top arrays pages count
    obtain ⟨w, pgds, held⟩ := top.allocPgds_none rfl none
    exact ⟨w, run.trans pgds, held⟩
  · obtain ⟨pfns, pfn, rfl⟩ : ∃ init last, pfns = init ++ [last] := by
      rcases List.eq_nil_or_concat pfns with rfl | ⟨init, last, rfl⟩
      · have some : 1 ≤ tablePages s.world.manager.hostmemPages :=
          Nat.le_add_left_of_le (Nat.le_min.mpr ⟨Nat.pos_of_ne_zero none, Nat.le_refl 1⟩)
        rw [← length] at some
        exact absurd some (Nat.not_succ_le_zero 0)
      · exact ⟨init, last, List.concat_eq_append⟩
    have count : pfns.length = s.world.manager.hostmemPages / ptrsPerPte := by
      simp only [List.length_append, List.length_singleton, tablePages] at length
      omega
    obtain ⟨first, ne, new, low⟩ := pages.last
    obtain ⟨map, run, top⟩ := h.top arrays first count
    obtain ⟨w, pgds, held⟩ := top.allocPgds_page rfl rfl ne new low h.small
    exact ⟨w, run.trans pgds, held⟩

/-- If only the page of page tables is not granted, the second loop fails. -/
theorem allocReversedPgds_noPage {mallocs : List Bool}
    (granted : s.world.host.mallocs = true :: true :: mallocs) (map : Nat → Nat) {pfns : List Nat}
    {rest : List (Option Nat)}
    (pages : PagesGranted s.world.manager.hostmemPages s.world.host pfns rest)
    (count : pfns.length = s.world.manager.hostmemPages / ptrsPerPte)
    (notAll : ¬ TablesGranted s.world.manager.hostmemPages s.world.host) :
    (allocReversedPgds reversedMapPgdsCount (pgdsWorld ((topWorld s.world
      (true :: mallocs)).withTop map ((topWorld s.world (true :: mallocs)).host.granted pfns
        rest)) mallocs, 0)).1 ≠ .ok := by
  have some : 0 < s.world.manager.hostmemPages := by
    by_contra none
    refine notAll ⟨⟨mallocs, granted⟩, pfns, rest, pages, ?_⟩
    rw [count, tablePages, Nat.eq_zero_of_not_pos none]
    rfl
  cases page : coManagerGetPage (pgdsWorld ((topWorld s.world (true :: mallocs)).withTop map
      ((topWorld s.world (true :: mallocs)).host.granted pfns rest)) mallocs) with
  | mk result w =>
    cases result with
    | error rc =>
      have first := allocReversedPgds_refused page some
      rw [allocReversedPgds_failed first]
      exact first
    | ok pfn =>
      obtain ⟨rest', answers, ne, new, low, -⟩ := coManagerGetPage_ok page
      obtain rfl : rest = .some pfn :: rest' := answers
      refine absurd ⟨⟨mallocs, granted⟩, pfns ++ [pfn], rest', pages.concat ne new low, ?_⟩ notAll
      rw [List.length_append, count, tablePages, Nat.min_eq_right some]
      rfl

/-- Where the first array is granted and something else is not, the manager goes through a null
pointer or is left with the array. -/
theorem NoTables.allocReversed_failed (h : s.NoTables)
    (array : s.world.host.mallocs.head? = some true)
    (notAll : ¬ TablesGranted s.world.manager.hostmemPages s.world.host) :
    s.coManagerAllocReversedPfns = none ∨ ∃ rc t, rc ≠ .ok ∧
      s.coManagerAllocReversedPfns = some (rc, t) ∧
        (t.ledger = s.ledger.acquire .reversedMapPfns ∨
          t.ledger = (s.ledger.acquire .reversedMapPfns).acquire .reversedMapPgds) := by
  obtain ⟨mallocs, granted⟩ := exists_cons_of_head? array
  by_cases top : (allocTopLevelPages (s.world.manager.hostmemPages / ptrsPerPte)
      (topWorld s.world mallocs)).1 = .ok
  · obtain ⟨pfns, rest, pages, count⟩ := exists_granted top
    have first : PagesGranted s.world.manager.hostmemPages s.world.host pfns rest :=
      ⟨pages.answers, pages.nodup, pages.fine⟩
    obtain ⟨map, run, held⟩ := h.top granted first count
    rw [run]
    by_cases second : mallocs.head? = some true
    · obtain ⟨mallocs, rfl⟩ := exists_cons_of_head? second
      have failed := allocReversedPgds_noPage granted map first count notAll
      exact .inr ⟨_, _, failed, allocPgds_granted rfl rfl, .inr rfl⟩
    · exact .inl (allocPgds_refused second)
  · refine .inr ⟨_, s.withTop (allocTopLevelPages (s.world.manager.hostmemPages / ptrsPerPte)
      (topWorld s.world mallocs)).2, top, ?_, .inl rfl⟩
    rw [allocReversed_granted granted rfl]
    exact if_pos top

/-! ## Load and unload -/

/-- Everything has been given back once. -/
structure Released (s : ManagerRun) : Prop where
  ledger : s.ledger = .empty
  out : s.world.host.out = []

def lockLedger : Ledger ManagerResource := Ledger.empty.acquire .lock

def debugLedger : Ledger ManagerResource := (lockLedger.acquire .debugMutex).acquire .debugWait

def archLedger : Ledger ManagerResource := debugLedger.acquire .archdep

def osLedger : Ledger ManagerResource := (archLedger.acquire .osdep).acquire .osMutex

/-- What the error path below the operating system's part releases. -/
theorem outErrArch_ledger (s : ManagerRun) :
    s.outErrArch.ledger = s.ledger.releaseAll [.archdep, .debugWait, .debugMutex, .lock] := by
  simp only [outErrArch, coManagerArchFree, outErrDebug, coDebugFree, outErrMutex, setState_ledger,
    release_ledger]
  rfl

theorem outErrOs_ledger (s : ManagerRun) : s.outErrOs.ledger =
    s.ledger.releaseAll [.osMutex, .osdep, .archdep, .debugWait, .debugMutex, .lock] := by
  rw [outErrOs, outErrArch_ledger]
  simp only [coOsManagerFree, clearPages, setWorld_ledger, release_ledger, Ledger.releaseAll,
    List.foldl_cons]

theorem outErrMutex_released (held : s.ledger = lockLedger) (none : s.world.host.out = []) :
    s.outErrMutex.Released where
  ledger := by
    show s.ledger.release .lock = .empty
    rw [held]
    exact Ledger.release_acquire _ _
  out := none

theorem coDebugFree_ledger (held : s.ledger = debugLedger) : s.coDebugFree.ledger = lockLedger := by
  show (s.ledger.release .debugWait).release .debugMutex = lockLedger
  rw [held, debugLedger, Ledger.release_acquire, Ledger.release_acquire]

theorem outErrDebug_released (held : s.ledger = debugLedger) (none : s.world.host.out = []) :
    s.outErrDebug.Released :=
  outErrMutex_released (coDebugFree_ledger held) none

theorem coManagerArchFree_ledger (held : s.ledger = archLedger) :
    s.coManagerArchFree.ledger = debugLedger := by
  show s.ledger.release .archdep = debugLedger
  rw [held, archLedger, Ledger.release_acquire]

theorem outErrArch_released (held : s.ledger = archLedger) (none : s.world.host.out = []) :
    s.outErrArch.Released :=
  outErrDebug_released (coManagerArchFree_ledger held) none

theorem coOsManagerFree_ledger (held : s.ledger = osLedger) :
    s.coOsManagerFree.ledger = archLedger := by
  show (s.ledger.release .osMutex).release .osdep = archLedger
  rw [held, osLedger, Ledger.release_acquire, Ledger.release_acquire]

theorem outErrOs_released (held : s.ledger = osLedger) : s.outErrOs.Released :=
  outErrArch_released (coOsManagerFree_ledger held) rfl

end ManagerRun

/-- The blocks and the processor's features that are looked at before the mutex of the operating
system's part. -/
def LoadAnswers.ReachesOs (a : LoadAnswers) : Prop :=
  a.lock = true ∧ a.debugMutex = true ∧ a.debugWait = true ∧ a.archdep = true ∧
    a.hasCpuid = true ∧ a.capabilities = true ∧ a.apic = true ∧ a.osdep = true

/-- Every step of a load succeeds. -/
def LoadAnswers.Granted (a : LoadAnswers) (host : Host) : Prop :=
  a.ReachesOs ∧ a.osMutex = true ∧
    ∃ n, a.hostmemPages = some n ∧ n ≤ 0x100000 ∧ TablesGranted n host

namespace ManagerRun

variable {s : ManagerRun} {a : LoadAnswers} {w : World} {n : Nat}

/-- A load does not go through a null pointer and returns an error if a step fails; if it fails
everything has been given back once, and otherwise it is by an unload. -/
structure LoadSound (a : LoadAnswers) (s : ManagerRun) : Prop where
  noNull : coManagerLoad a s ≠ none
  error : ¬ a.Granted s.world.host → ∀ rc t, coManagerLoad a s = some (rc, t) → rc ≠ .ok
  failed : ∀ rc t, coManagerLoad a s = some (rc, t) → rc ≠ .ok → t.Released
  loaded : ∀ t, coManagerLoad a s = some (.ok, t) → t.coManagerUnload.Released

theorem LoadSound.of_error {rc : CoRc} {t : ManagerRun} (run : coManagerLoad a s = some (rc, t))
    (ne : rc ≠ .ok) (released : t.Released) : LoadSound a s where
  noNull := by rw [run]; exact Option.some_ne_none _
  error := fun _ rc' t' run' => by
    rw [run] at run'
    cases run'
    exact ne
  failed := fun rc' t' run' _ => by
    rw [run] at run'
    cases run'
    exact released
  loaded := fun t' run' => by
    rw [run] at run'
    cases run'
    exact absurd rfl ne

theorem LoadSound.of_ok {t : ManagerRun} (run : coManagerLoad a s = some (.ok, t))
    (granted : a.Granted s.world.host) (released : t.coManagerUnload.Released) :
    LoadSound a s where
  noNull := by rw [run]; exact Option.some_ne_none _
  error := fun not => absurd granted not
  failed := fun rc' t' run' ne => by
    rw [run] at run'
    cases run'
    exact absurd rfl ne
  loaded := fun t' run' => by
    rw [run] at run'
    cases run'
    exact released

/-- An error with something still held. -/
theorem LoadSound.not_of_error {rc : CoRc} {t : ManagerRun}
    (run : coManagerLoad a s = some (rc, t)) (ne : rc ≠ .ok) (held : t.ledger ≠ .empty) :
    ¬ LoadSound a s :=
  fun sound => held (sound.failed rc t run ne).ledger

/-! ### Up to the part of the operating system -/

/-- The manager when it comes to the part of the operating system. -/
def atOs (w : World) (pages : Nat) : ManagerRun :=
  { ((unloaded w).zero.setHostmemPages pages).setState .initializedArch with ledger := archLedger }

/-- The memory of the host is known and no more than 4 GB. -/
def LoadAnswers.MemoryFits (a : LoadAnswers) (pages : Nat) : Prop :=
  a.lock = true ∧ a.hostmemPages = some pages ∧ pages ≤ 0x100000

theorem coManagerLoad_unfit (unfit : ∀ pages, ¬ LoadAnswers.MemoryFits a pages) :
    ∃ rc t, coManagerLoad a (unloaded w) = some (rc, t) ∧ rc ≠ .ok ∧ t.Released := by
  unfold coManagerLoad
  dsimp only
  by_cases lock : a.lock = true
  · rw [if_neg (not_not.mpr lock)]
    cases query : a.hostmemPages with
    | none => exact ⟨_, _, rfl, by decide, outErrMutex_released rfl rfl⟩
    | some pages =>
      have large : 0x100000 < pages := Nat.not_le.mp fun fits => unfit pages ⟨lock, query, fits⟩
      dsimp only
      rw [if_pos large]
      exact ⟨_, _, rfl, by decide, outErrMutex_released rfl rfl⟩
  · rw [if_pos lock]
    exact ⟨_, _, rfl, by decide, rfl, rfl⟩

theorem coManagerLoad_fits {pages : Nat} (fits : LoadAnswers.MemoryFits a pages) :
    coManagerLoad a (unloaded w) =
      loadDebug a (((unloaded w).zero.acquire .lock).setHostmemPages pages) := by
  obtain ⟨lock, query, small⟩ := fits
  unfold coManagerLoad
  dsimp only
  rw [if_neg (not_not.mpr lock), query]
  exact if_neg (Nat.not_lt.mpr small)

@[simp] theorem release_acquire (s : ManagerRun) (r : ManagerResource) :
    (s.acquire r).release r = s := by
  show { s with ledger := (s.ledger.acquire r).release r } = s
  rw [Ledger.release_acquire]

/-- The debug state is all there or nothing of it is held. -/
theorem coDebugInit_refused (refused : ¬ (a.debugMutex = true ∧ a.debugWait = true)) :
    coDebugInit a s = (.outOfMemory, s) := by
  unfold coDebugInit
  by_cases mutex : a.debugMutex = true
  · have wait : ¬ a.debugWait = true := fun wait => refused ⟨mutex, wait⟩
    rw [if_neg (not_not.mpr mutex), if_pos wait, release_acquire]
  · exact if_pos mutex

theorem coDebugInit_granted (mutex : a.debugMutex = true) (wait : a.debugWait = true) :
    coDebugInit a s = (.ok, (s.acquire .debugMutex).acquire .debugWait) := by
  unfold coDebugInit
  rw [if_neg (not_not.mpr mutex)]
  exact if_neg (not_not.mpr wait)

/-- The block and the features that the part of the architecture asks for. -/
def LoadAnswers.ArchFits (a : LoadAnswers) : Prop :=
  a.archdep = true ∧ a.hasCpuid = true ∧ a.capabilities = true ∧ a.apic = true

theorem coManagerArchInit_refused (refused : ¬ LoadAnswers.ArchFits a) :
    ∃ rc, rc ≠ .ok ∧ coManagerArchInit a s = (rc, s) := by
  unfold coManagerArchInit
  by_cases archdep : a.archdep = true
  · rw [if_neg (not_not.mpr archdep), release_acquire]
    refine ⟨.error, nofun, ?_⟩
    by_cases cpuid : a.hasCpuid = true
    · rw [if_neg (not_not.mpr cpuid)]
      by_cases caps : a.capabilities = true
      · have apic : ¬ a.apic = true := fun apic => refused ⟨archdep, cpuid, caps, apic⟩
        rw [if_neg (not_not.mpr caps)]
        exact if_pos apic
      · exact if_pos caps
    · exact if_pos cpuid
  · exact ⟨.outOfMemory, nofun, if_pos archdep⟩

theorem coManagerArchInit_granted (fits : LoadAnswers.ArchFits a) :
    coManagerArchInit a s = (.ok, s.acquire .archdep) := by
  obtain ⟨archdep, cpuid, caps, apic⟩ := fits
  unfold coManagerArchInit
  rw [if_neg (not_not.mpr archdep), if_neg (not_not.mpr cpuid), if_neg (not_not.mpr caps)]
  exact if_neg (not_not.mpr apic)

/-- A load that does not come to the mutex of the operating system's part gives all back. -/
theorem coManagerLoad_before {pages : Nat} (fits : LoadAnswers.MemoryFits a pages)
    (before : ¬ LoadAnswers.ReachesOs a) :
    ∃ rc t, coManagerLoad a (unloaded w) = some (rc, t) ∧ rc ≠ .ok ∧ t.Released := by
  rw [coManagerLoad_fits fits, loadDebug]
  by_cases debug : a.debugMutex = true ∧ a.debugWait = true
  · rw [coDebugInit_granted debug.1 debug.2]
    dsimp only
    rw [if_neg (not_not.mpr rfl), loadArch]
    by_cases arch : LoadAnswers.ArchFits a
    · have osdep : ¬ a.osdep = true := fun osdep =>
        before ⟨fits.1, debug.1, debug.2, arch.1, arch.2.1, arch.2.2.1, arch.2.2.2, osdep⟩
      rw [coManagerArchInit_granted arch]
      dsimp only
      rw [if_neg (not_not.mpr rfl), loadOs, coOsManagerInit, if_pos osdep]
      exact ⟨_, _, rfl, nofun, outErrArch_released rfl rfl⟩
    · obtain ⟨rc, ne, init⟩ := coManagerArchInit_refused arch
      rw [init]
      exact ⟨rc, _, if_pos ne, ne, outErrDebug_released rfl rfl⟩
  · rw [coDebugInit_refused debug]
    exact ⟨.outOfMemory, _, if_pos nofun, nofun, outErrMutex_released rfl rfl⟩

theorem coManagerLoad_reaches {pages : Nat} (fits : LoadAnswers.MemoryFits a pages)
    (reaches : LoadAnswers.ReachesOs a) :
    coManagerLoad a (unloaded w) = loadOs a (atOs w pages) := by
  obtain ⟨-, mutex, wait, archdep, cpuid, caps, apic, -⟩ := reaches
  rw [coManagerLoad_fits fits, loadDebug, coDebugInit_granted mutex wait]
  dsimp only
  rw [if_neg (not_not.mpr rfl), loadArch, coManagerArchInit_granted ⟨archdep, cpuid, caps, apic⟩]
  exact if_neg (not_not.mpr rfl)

/-! ### From the part of the operating system on -/

theorem ne_empty_of_mem {l : Ledger ManagerResource} {r : ManagerResource} (held : r ∈ l.live) :
    l ≠ .empty := by
  rintro rfl
  exact List.not_mem_nil held

/-- The part of the operating system fails at its mutex. -/
theorem loadOs_noMutex (osdep : a.osdep = true) (mutex : a.osMutex = false) :
    ∃ t, loadOs a (atOs w n) = some (.outOfMemory, t) ∧ t.ledger ≠ .empty := by
  refine ⟨((atOs w n).acquire .osdep).clearPages.outErrArch, ?_, ?_⟩
  · rw [loadOs, coOsManagerInit, if_neg (not_not.mpr osdep), mutex]
    rfl
  · have order : ManagerResource.osdep ∉ [.archdep, .debugWait, .debugMutex, .lock] := by decide
    rw [outErrArch_ledger]
    exact ne_empty_of_mem
      ((@Ledger.mem_releaseAll _ _ (archLedger.acquire .osdep) _ _ order).mpr List.mem_cons_self)

/-- The manager when it comes to its tables. -/
def atTables (w : World) (pages : Nat) : ManagerRun :=
  { (atOs w pages).setState .initializedOsdep with ledger := osLedger }

theorem loadOs_granted (osdep : a.osdep = true) (mutex : a.osMutex = true) :
    loadOs a (atOs w n) = (atTables w n).loadTables := by
  rw [loadOs, coOsManagerInit, if_neg (not_not.mpr osdep), if_neg (not_not.mpr mutex)]
  exact if_neg (not_not.mpr rfl)

theorem atTables_noTables (small : n ≤ 0x100000) : (atTables w n).NoTables where
  out := rfl
  pgds := fun _ => rfl
  small := small

theorem TablesHeld.setState (h : s.TablesHeld) (state : ManagerState) :
    (s.setState state).TablesHeld :=
  ⟨h.mapPfns, h.mapPgds, h.isOut, h.distinct, h.pgdsCount, h.others, h.first, h.all⟩

/-- The order in which `co_manager_unload` releases what the manager holds. -/
def unloadOrder : List ManagerResource :=
  [.reversedMapPfns, .reversedMapPgds, .lock, .osMutex, .osdep, .archdep, .debugWait, .debugMutex]

theorem coManagerUnload_initialized (state : s.state = .initialized) : s.coManagerUnload =
    (((s.coManagerFreeReversedPfns.release .lock).coOsManagerFree).coManagerArchFree.coDebugFree
      ).setState .notInitialized := by
  simp [coManagerUnload, state]

/-- An unload of a manager that is loaded. -/
theorem coManagerUnload_released (h : s.TablesHeld) (state : s.state = .initialized)
    (held : s.ledger = (osLedger.acquire .reversedMapPfns).acquire .reversedMapPgds) :
    s.coManagerUnload.Released := by
  rw [coManagerUnload_initialized state, h.free]
  refine ⟨?_, rfl⟩
  simp only [setState_ledger, coDebugFree, coManagerArchFree, coOsManagerFree, release_ledger,
    clearPages, setWorld_ledger, withOut, held]
  show ((osLedger.acquire .reversedMapPfns).acquire .reversedMapPgds).releaseAll unloadOrder =
    .empty
  rw [Ledger.releaseAll_nodup (by decide) (by decide) (by decide)]
  rfl

/-- What the error path leaves of an array. -/
theorem outErrOs_held
    (held : s.ledger = osLedger.acquire .reversedMapPfns ∨
      s.ledger = (osLedger.acquire .reversedMapPfns).acquire .reversedMapPgds) :
    s.outErrOs.ledger ≠ .empty := by
  have array : ManagerResource.reversedMapPfns ∈ s.ledger.live := by
    rcases held with held | held
    · rw [held]
      exact List.mem_cons_self
    · rw [held]
      exact List.mem_cons_of_mem _ List.mem_cons_self
  have order : ManagerResource.reversedMapPfns ∉
      [.osMutex, .osdep, .archdep, .debugWait, .debugMutex, .lock] := by decide
  rw [outErrOs_ledger]
  exact ne_empty_of_mem ((Ledger.mem_releaseAll order).mpr array)

theorem loadTables_refused (refused : s.world.host.mallocs.head? ≠ some true)
    (held : s.ledger = osLedger) :
    ∃ t, s.loadTables = some (.outOfMemory, t) ∧ t.Released := by
  obtain ⟨w, run⟩ := allocReversed_refused refused
  refine ⟨(s.setWorld w).outErrOs, ?_, outErrOs_released held⟩
  rw [loadTables, run]
  exact if_pos nofun

theorem loadTables_ok {w : World} (run : s.coManagerAllocReversedPfns = some (.ok, s.withPgds w)) :
    s.loadTables = some (.ok, (s.withPgds w).setState .initialized) := by
  rw [loadTables, run]
  exact if_neg (not_not.mpr rfl)

theorem loadTables_failed {rc : CoRc} {t : ManagerRun} (ne : rc ≠ .ok)
    (run : s.coManagerAllocReversedPfns = some (rc, t)) :
    s.loadTables = some (rc, t.outErrOs) := by
  rw [loadTables, run]
  exact if_pos ne

/-- A load is sound on just these conditions: where it comes to the mutex of the operating system's
part, that is granted, and where it has the first array of the reversed map, the rest of the map is
granted too. -/
theorem loadSound_iff (a : LoadAnswers) (w : World) :
    LoadSound a (unloaded w) ↔ ∀ pages, a.hostmemPages = some pages → pages ≤ 0x100000 →
      a.ReachesOs → a.osMutex = true ∧
        (w.host.mallocs.head? = some true → TablesGranted pages { w.host with out := [] }) := by
  by_cases unfit : ∀ pages, ¬ LoadAnswers.MemoryFits a pages
  · obtain ⟨rc, t, run, ne, released⟩ := @coManagerLoad_unfit a w unfit
    refine iff_of_true (LoadSound.of_error run ne released) fun pages query small reaches => ?_
    exact absurd ⟨reaches.1, query, small⟩ (unfit pages)
  obtain ⟨pages, fits⟩ := not_forall_not.mp unfit
  by_cases before : ¬ a.ReachesOs
  · obtain ⟨rc, t, run, ne, released⟩ := @coManagerLoad_before a w pages fits before
    refine iff_of_true (LoadSound.of_error run ne released) fun _ _ _ reaches => ?_
    exact absurd reaches before
  have reaches := not_not.mp before
  have only : (∀ n, a.hostmemPages = some n → n ≤ 0x100000 → a.ReachesOs → a.osMutex = true ∧
      (w.host.mallocs.head? = some true → TablesGranted n { w.host with out := [] })) ↔
        a.osMutex = true ∧
          (w.host.mallocs.head? = some true → TablesGranted pages { w.host with out := [] }) := by
    refine ⟨fun all => all pages fits.2.1 fits.2.2 reaches, fun this n query _ _ => ?_⟩
    obtain rfl := Option.some.inj (fits.2.1.symm.trans query)
    exact this
  rw [only]
  have atOs := @coManagerLoad_reaches a w pages fits reaches
  have osdep := reaches.2.2.2.2.2.2.2
  cases mutex : a.osMutex with
  | false =>
    obtain ⟨t, run, held⟩ := @loadOs_noMutex a w pages osdep mutex
    exact iff_of_false (LoadSound.not_of_error (atOs.trans run) nofun held)
      fun this => nomatch this.1
  | true =>
    have atTables := atOs.trans (@loadOs_granted a w pages osdep mutex)
    have start := @atTables_noTables w pages fits.2.2
    by_cases array : w.host.mallocs.head? = some true
    · by_cases granted : TablesGranted pages { w.host with out := [] }
      · obtain ⟨t, run, held⟩ := start.allocReversed_ok granted
        refine iff_of_true (LoadSound.of_ok (atTables.trans (loadTables_ok run))
          ⟨reaches, mutex, pages, fits.2.1, fits.2.2, granted⟩ ?_) ⟨rfl, fun _ => granted⟩
        exact coManagerUnload_released (held.setState _) rfl rfl
      · refine iff_of_false (fun sound => ?_) fun this => granted (this.2 array)
        rcases start.allocReversed_failed array granted with none | ⟨rc, t, ne, run, held⟩
        · refine sound.noNull (atTables.trans ?_)
          rw [loadTables, none]
        · exact LoadSound.not_of_error (atTables.trans (loadTables_failed ne run)) ne
            (outErrOs_held held) sound
    · obtain ⟨t, run, released⟩ := @loadTables_refused (ManagerRun.atTables w pages) array rfl
      exact iff_of_true (LoadSound.of_error (atTables.trans run) nofun released)
        ⟨rfl, fun granted => absurd granted array⟩

/-- A processor and a host of 256 MB where each block is granted. -/
def grantedAnswers : LoadAnswers :=
  ⟨true, some 65536, true, true, true, true, true, true, true, true⟩

/-- The host has room for both arrays of the reversed map and no pages. -/
def noPagesWorld : World where
  mem := fun _ => 0
  host := ⟨[], [], [true, true]⟩
  manager := ⟨0, fun _ => 0, 0, fun _ => 0, 0⟩
  monitor := ⟨0, 0, false, fun _ => none, 0, 0, 0, 0, 0⟩

/-- The load stops at the first page and leaves the array of the reversed map behind. -/
theorem loadSound_noPages : ¬ LoadSound grantedAnswers (unloaded noPagesWorld) := by
  have load : coManagerLoad grantedAnswers (unloaded noPagesWorld) =
      (atTables noPagesWorld 65536).loadTables :=
    (coManagerLoad_reaches ⟨rfl, rfl, by decide⟩ ⟨rfl, rfl, rfl, rfl, rfl, rfl, rfl, rfl⟩).trans
      (loadOs_granted rfl rfl)
  have start := @atTables_noTables noPagesWorld 65536 (by decide)
  have refused : ¬ TablesGranted 65536 noPagesWorld.host := by
    rintro ⟨-, pfns, rest, pages, length⟩
    have none : pfns = [] :=
      List.map_eq_nil_iff.mp (List.append_eq_nil_iff.mp pages.answers.symm).1
    rw [none] at length
    exact absurd length (by decide)
  rcases start.allocReversed_failed rfl refused with null | ⟨rc, t, ne, run, held⟩
  · intro sound
    refine sound.noNull (load.trans ?_)
    rw [loadTables, null]
  · exact LoadSound.not_of_error (load.trans (loadTables_failed ne run)) ne (outErrOs_held held)

end ManagerRun

end CoLinux
