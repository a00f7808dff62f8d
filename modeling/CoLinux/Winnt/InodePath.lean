import CoLinux.Kernel.FilesystemRequests
import CoLinux.Kernel.Proofs.FilesystemTree
import CoLinux.Lib.PathText

/-!
# Paths of inodes (`os/winnt/kernel/filesystem.c`)

The host's path of an inode is made of the names on the way up to the root, which are collected in
an array of 256 and written from its end. The names are those that the guest gave.
-/

namespace CoLinux

open Lib PathText

namespace Filesystem

/-- The bytes that `co_os_fs_inode_to_path` allocates. -/
def pathRoom (fs : Filesystem) (dir : Option InodeId) (add : Nat) : Nat :=
  fs.basePath.length + (add + ((fs.scanNames 256 dir).map fun name => name.length + 1).sum) + 2

/-- The names on the way from the root down to an inode. -/
inductive Chain (fs : Filesystem) (root : InodeId) : InodeId → List FileName → Prop
  | root : Chain fs root root []
  | child {a p : InodeId} {s : FileName} {cs : List FileName} (up : fs.parentOf a = some p)
    (name : (fs.inode a).name = some s) (chain : Chain fs root p cs) : Chain fs root a (cs ++ [s])

/-- A tree of inodes: the root alone has no name, and every other inode has a parent. -/
structure InodeTree (fs : Filesystem) (root : InodeId) : Prop where
  live : root ∈ fs.listInodes
  unnamed : (fs.inode root).name = none
  others : ∀ a ∈ fs.listInodes, a ≠ root →
    ∃ s p, (fs.inode a).name = some s ∧ fs.parentOf a = some p ∧ p ∈ fs.listInodes
  rooted : ∀ a ∈ fs.listInodes, Rooted fs.parentOf a

/-- `".."` and `"."`. -/
def dotDot : FileName := [46, 46]
def dot : FileName := [46]

/-- The path is below the base path. -/
def BelowBase (base path : FileName) : Prop :=
  ∃ rest, path = base ++ rest ∧ StaysBelow dotDot dot 0 (cut backslash rest)

/-- What the paths have to be, with a name in a directory for the second function. -/
structure PathsSound (fs : Filesystem) (root : InodeId) (name : FileName) : Prop where
  path : ∀ a cs, fs.Chain root a cs → a ∈ fs.listInodes →
    fs.inodeToPath (some a) 0 = fs.basePath ++ join backslash cs
  dirPath : ∀ a cs, fs.Chain root a cs → a ∈ fs.listInodes →
    fs.dirInodeToPath (some a) name = if name = [] then fs.basePath ++ join backslash cs
      else addComponent backslash (fs.basePath ++ join backslash cs) name
  room : ∀ a ∈ fs.listInodes, ∀ add,
    (fs.inodeToPath (some a) add).length + 1 ≤ fs.pathRoom (some a) add
  dirRoom : ∀ a ∈ fs.listInodes, (fs.dirInodeToPath (some a) name).length + 1 ≤
    fs.pathRoom (some a) (if name = [] then 0 else 1 + name.length)
  distinct : ∀ a ∈ fs.listInodes, ∀ b ∈ fs.listInodes, a ≠ b →
    fs.inodeToPath (some a) 0 ≠ fs.inodeToPath (some b) 0
  below : ∀ a ∈ fs.listInodes, BelowBase fs.basePath (fs.inodeToPath (some a) 0) ∧
    BelowBase fs.basePath (fs.dirInodeToPath (some a) name)

/-- No inode is deeper than 256 levels. Cut at their separators, the names on the way to an inode
are those of no other one, and with a name behind them they never lead above the base path. -/
structure PathsPlain (fs : Filesystem) (root : InodeId) (name : FileName) : Prop where
  depth : ∀ a cs, fs.Chain root a cs → a ∈ fs.listInodes → cs.length ≤ 256
  distinct : ∀ a cs b ds, fs.Chain root a cs → fs.Chain root b ds → a ∈ fs.listInodes →
    b ∈ fs.listInodes → a ≠ b → pieces backslash cs ≠ pieces backslash ds
  below : ∀ a cs, fs.Chain root a cs → a ∈ fs.listInodes →
    StaysBelow dotDot dot 0 (pieces backslash (cs ++ [name]))

/-! ## The way up -/

variable {fs : Filesystem} {root a : InodeId} {cs : List FileName}

theorem InodeTree.chain (tree : fs.InodeTree root) (live : a ∈ fs.listInodes) :
    ∃ cs, fs.Chain root a cs := by
  induction tree.rooted a live with
  | intro a _ ih =>
    by_cases top : a = root
    · exact ⟨[], top ▸ .root⟩
    · obtain ⟨s, p, name, up, above⟩ := tree.others a live top
      obtain ⟨cs, chain⟩ := ih p up above
      exact ⟨cs ++ [s], .child up name chain⟩

theorem InodeTree.parent_live (tree : fs.InodeTree root) (live : a ∈ fs.listInodes) {p : InodeId}
    {s : FileName} (up : fs.parentOf a = some p) (name : (fs.inode a).name = some s) :
    p ∈ fs.listInodes := by
  have top : a ≠ root := by
    rintro rfl
    cases tree.unnamed.symm.trans name
  obtain ⟨_, p', _, up', above⟩ := tree.others a live top
  cases up.symm.trans up'
  exact above

theorem Chain.unique (tree : fs.InodeTree root) {ds : List FileName} (h : fs.Chain root a cs)
    (h' : fs.Chain root a ds) : cs = ds := by
  induction h generalizing ds with
  | root =>
    cases h' with
    | root => rfl
    | child _ name => cases tree.unnamed.symm.trans name
  | child up name _ ih =>
    cases h' with
    | root => cases tree.unnamed.symm.trans name
    | child up' name' chain' =>
      cases up.symm.trans up'
      cases name.symm.trans name'
      rw [ih chain']

/-- The scan collects the names from the end, as far as there is room. -/
theorem Chain.scanNames (tree : fs.InodeTree root) (h : fs.Chain root a cs) (room : Nat) :
    fs.scanNames room (some a) = cs.reverse.take room := by
  induction h generalizing room with
  | root =>
    cases room with
    | zero => rfl
    | succ room => simp [Filesystem.scanNames, tree.unnamed]
  | @child a p s cs up name _ ih =>
    cases room with
    | zero => rfl
    | succ room =>
      have parent : (fs.inode a).parent = some p := up
      simp only [Filesystem.scanNames, name, parent, ih room, List.reverse_append,
        List.reverse_cons, List.reverse_nil, List.nil_append, List.singleton_append,
        List.take_succ_cons]

/-- The path without the names that were dropped. -/
theorem Chain.inodeToPath (tree : fs.InodeTree root) (h : fs.Chain root a cs) :
    fs.inodeToPath (some a) 0 = fs.basePath ++ join backslash (cs.drop (cs.length - 256)) := by
  have kept : (cs.reverse.take 256).reverse = cs.drop (cs.length - 256) := by
    rw [List.take_reverse, List.reverse_reverse]
  rw [Filesystem.inodeToPath, h.scanNames tree, kept]
  exact if_neg fun more => Nat.lt_irrefl 0 more.1

/-- The whole path, if nothing was dropped. -/
theorem drop_join_iff {base : FileName} :
    base ++ join backslash (cs.drop (cs.length - 256)) = base ++ join backslash cs ↔
      cs.length ≤ 256 := by
  rw [List.append_cancel_left_eq]
  constructor
  · intro same
    by_contra long
    have split := join_append backslash (cs.take (cs.length - 256)) (cs.drop (cs.length - 256))
    rw [List.take_append_drop, same] at split
    have lengths := congrArg List.length split
    have dropped := length_le_join backslash (cs.take (cs.length - 256))
    rw [List.length_append] at lengths
    rw [List.length_take] at dropped
    omega
  · intro short
    rw [Nat.sub_eq_zero_of_le short, List.drop_zero]

/-! ## A name behind a path -/

theorem Chain.dirInodeToPath (tree : fs.InodeTree root) (h : fs.Chain root a cs)
    (depth : cs.length ≤ 256) (name : FileName) :
    fs.dirInodeToPath (some a) name = if name = [] then fs.basePath ++ join backslash cs
      else addComponent backslash (fs.basePath ++ join backslash cs) name := by
  have whole : (cs.reverse.take 256).reverse = cs := by
    rw [List.take_of_length_le (by rwa [List.length_reverse]), List.reverse_reverse]
  rw [Filesystem.dirInodeToPath]
  split
  · rw [h.inodeToPath tree, Nat.sub_eq_zero_of_le depth, List.drop_zero]
  · have positive : 0 < 1 + name.length := by omega
    rw [Filesystem.inodeToPath, h.scanNames tree, whole, addComponent, join]
    generalize fs.basePath ++ cs.flatMap (backslash :: ·) = full
    by_cases plain : full ≠ [] ∧ full.getLast? ≠ some backslash
    · rw [if_pos ⟨positive, plain⟩, if_pos plain, List.append_assoc]
      rfl
    · rw [if_neg fun more => plain more.2, if_neg plain]

theorem belowBase_append (base rest : FileName) :
    BelowBase base (base ++ rest) ↔ StaysBelow dotDot dot 0 (cut backslash rest) := by
  constructor
  · rintro ⟨rest', same, below⟩
    rwa [List.append_cancel_left same]
  · intro below
    exact ⟨rest, rfl, below⟩

theorem dotDot_ne_nil : dotDot ≠ [] := List.cons_ne_nil _ _

/-- The path of a name in a directory is below the base path if its pieces stay there. -/
theorem Chain.belowBase_dirInodeToPath (tree : fs.InodeTree root) (h : fs.Chain root a cs)
    (depth : cs.length ≤ 256) (name : FileName) :
    BelowBase fs.basePath (fs.dirInodeToPath (some a) name) ↔
      StaysBelow dotDot dot 0 (pieces backslash (cs ++ [name])) := by
  rw [h.dirInodeToPath tree depth]
  split
  · next empty =>
    have trailing := staysBelow_append_nil dot 0 dotDot_ne_nil
      (pieces backslash cs) []
    rw [belowBase_append, staysBelow_join backslash dotDot_ne_nil, empty, pieces_append]
    rw [List.append_nil] at trailing
    exact trailing.symm
  · obtain ⟨rest, path, pieces⟩ := staysBelow_addComponent backslash dot 0 dotDot_ne_nil
      fs.basePath cs name
    rw [path, belowBase_append, pieces]

/-! ## The buffer -/

/-- The buffer has room for the path, and for the name that is added with its NUL. -/
theorem inodeToPath_room (fs : Filesystem) (dir : Option InodeId) (add : Nat) :
    (fs.inodeToPath dir add).length + max add 1 ≤ fs.pathRoom dir add := by
  have names : ∀ xs : List FileName, (xs.reverse.flatMap (backslash :: ·)).length =
      (xs.map fun name => name.length + 1).sum := by
    intro xs
    rw [List.length_flatMap, List.map_reverse, List.sum_reverse]
    rfl
  have full : (fs.basePath ++ (fs.scanNames 256 dir).reverse.flatMap (backslash :: ·)).length =
      fs.basePath.length + ((fs.scanNames 256 dir).map fun name => name.length + 1).sum := by
    rw [List.length_append, names]
  rw [Filesystem.inodeToPath, pathRoom]
  generalize fs.basePath ++ (fs.scanNames 256 dir).reverse.flatMap (backslash :: ·) = path at *
  by_cases more : 0 < add
  · split
    · rw [List.length_append, full, List.length_singleton]
      omega
    · rw [full]
      omega
  · rw [if_neg fun h => more h.1, full]
    omega

theorem dirInodeToPath_room (fs : Filesystem) (dir : Option InodeId) (name : FileName) :
    (fs.dirInodeToPath dir name).length + 1 ≤
      fs.pathRoom dir (if name = [] then 0 else 1 + name.length) := by
  rw [dirInodeToPath]
  split
  · exact inodeToPath_room fs dir 0
  · have room := inodeToPath_room fs dir (1 + name.length)
    rw [List.length_append]
    omega

/-! ## The paths of a tree -/

/-- The paths are sound if nothing is dropped and the names neither coincide nor lead up. -/
theorem pathsSound_iff {name : FileName} (tree : fs.InodeTree root) :
    fs.PathsSound root name ↔ fs.PathsPlain root name := by
  constructor
  · intro sound
    have depth : ∀ a cs, fs.Chain root a cs → a ∈ fs.listInodes → cs.length ≤ 256 := by
      intro a cs chain live
      rw [← drop_join_iff, ← chain.inodeToPath tree]
      exact sound.path a cs chain live
    refine ⟨depth, ?_, ?_⟩
    · intro a cs b ds chain chain' live live' other same
      apply sound.distinct a live b live' other
      rw [sound.path a cs chain live, sound.path b ds chain' live',
        (join_eq_iff backslash).mpr same]
    · intro a cs chain live
      rw [← chain.belowBase_dirInodeToPath tree (depth a cs chain live)]
      exact (sound.below a live).2
  · intro plain
    have path : ∀ a cs, fs.Chain root a cs → a ∈ fs.listInodes →
        fs.inodeToPath (some a) 0 = fs.basePath ++ join backslash cs := by
      intro a cs chain live
      rw [chain.inodeToPath tree]
      exact drop_join_iff.mpr (plain.depth a cs chain live)
    refine ⟨path, ?_, ?_, fun a _ => dirInodeToPath_room fs (some a) name, ?_, ?_⟩
    · intro a cs chain live
      exact chain.dirInodeToPath tree (plain.depth a cs chain live) name
    · intro a _ add
      have room := inodeToPath_room fs (some a) add
      omega
    · intro a live b live' other same
      obtain ⟨cs, chain⟩ := tree.chain live
      obtain ⟨ds, chain'⟩ := tree.chain live'
      rw [path a cs chain live, path b ds chain' live'] at same
      apply plain.distinct a cs b ds chain chain' live live' other
      exact (join_eq_iff backslash).mp (List.append_cancel_left same)
    · intro a live
      obtain ⟨cs, chain⟩ := tree.chain live
      have below := plain.below a cs chain live
      constructor
      · rw [path a cs chain live, belowBase_append, staysBelow_join backslash dotDot_ne_nil]
        rw [pieces_append] at below
        exact below.left
      · exact (chain.belowBase_dirInodeToPath tree (plain.depth a cs chain live) name).mpr below

/-! ## Names without separators -/

theorem Chain.names (h : fs.Chain root a cs) (live : a ∈ fs.listInodes) (tree : fs.InodeTree root)
    {P : FileName → Prop} (named : ∀ b ∈ fs.listInodes, ∀ s, (fs.inode b).name = some s → P s) :
    ∀ c ∈ cs, P c := by
  induction h with
  | root => simp
  | @child a p s cs up name _ ih =>
    intro c mem
    rcases List.mem_append.mp mem with mem | mem
    · exact ih (tree.parent_live live up name) c mem
    · rw [List.mem_singleton.mp mem]
      exact named a live s name

/-- Siblings have different names. -/
def SiblingsDistinct (fs : Filesystem) : Prop :=
  ∀ a ∈ fs.listInodes, ∀ b ∈ fs.listInodes, fs.parentOf a = fs.parentOf b →
    (fs.inode a).name = (fs.inode b).name → a = b

theorem Chain.injective (tree : fs.InodeTree root) (siblings : fs.SiblingsDistinct) {b : InodeId}
    (h : fs.Chain root a cs) (h' : fs.Chain root b cs) (live : a ∈ fs.listInodes)
    (live' : b ∈ fs.listInodes) : a = b := by
  induction h generalizing b with
  | root =>
    generalize same : ([] : List FileName) = ds at h'
    cases h' with
    | root => rfl
    | child => simp at same
  | @child a p s cs up name chain ih =>
    generalize same : cs ++ [s] = ds at h'
    cases h' with
    | root => simp at same
    | @child b q t ds up' name' chain' =>
      obtain ⟨front, last⟩ := List.append_inj' same rfl
      cases front
      cases last
      have parents := ih chain' (tree.parent_live live up name) (tree.parent_live live' up' name')
      exact siblings a live b live' (by rw [up, up', parents]) (name.trans name'.symm)

/-- Names without separators that are no `..` have sound paths down to 256 levels. -/
theorem PathsPlain.of_names {name : FileName} (tree : fs.InodeTree root)
    (siblings : fs.SiblingsDistinct)
    (depth : ∀ a cs, fs.Chain root a cs → a ∈ fs.listInodes → cs.length ≤ 256)
    (named : ∀ a ∈ fs.listInodes, ∀ s, (fs.inode a).name = some s → backslash ∉ s ∧ s ≠ dotDot)
    (plain : backslash ∉ name ∧ name ≠ dotDot) : fs.PathsPlain root name := by
  refine ⟨depth, ?_, ?_⟩
  · intro a cs b ds chain chain' live live' other same
    rw [pieces_of_notMem backslash fun c mem => (chain.names live tree named c mem).1,
      pieces_of_notMem backslash fun c mem => (chain'.names live' tree named c mem).1] at same
    subst same
    exact other (chain.injective tree siblings chain' live live')
  · intro a cs chain live
    have all : ∀ c ∈ cs ++ [name], backslash ∉ c ∧ c ≠ dotDot := by
      intro c mem
      rcases List.mem_append.mp mem with mem | mem
      · exact chain.names live tree named c mem
      · rw [List.mem_singleton.mp mem]
        exact plain
    rw [pieces_of_notMem backslash fun c mem => (all c mem).1]
    exact staysBelow_of_notMem fun mem => (all dotDot mem).2 rfl

/-! ## Directories in each other -/

/-- `n` directories `a` in each other below the root. -/
def nested (n : Nat) : Filesystem where
  listInodes := List.range (n + 1)
  inode a := if a = 0 then ⟨none, [], none, none, 1⟩
    else ⟨some (a - 1), [], some [97], none, a + 1⟩
  inodeHashes _ := []
  root := some 0
  inodesCount := n + 1
  nextInodeNum := n + 2
  basePath := [92, 63, 63]
  heap := n + 1

theorem nested_parentOf (n a : Nat) : (nested n).parentOf (a + 1) = some a := rfl

theorem mem_nested (n a : Nat) : a ∈ (nested n).listInodes ↔ a ≤ n :=
  List.mem_range.trans Nat.lt_succ_iff

theorem nested_inodeTree (n : Nat) : (nested n).InodeTree 0 := by
  refine ⟨(mem_nested n 0).mpr (Nat.zero_le n), rfl, ?_, ?_⟩
  · intro a live top
    cases a with
    | zero => exact absurd rfl top
    | succ a =>
      have above := (mem_nested n (a + 1)).mp live
      exact ⟨[97], a, rfl, rfl, (mem_nested n a).mpr (Nat.le_of_succ_le above)⟩
  · rintro a -
    induction a with
    | zero => exact ⟨_, fun p up => nomatch up⟩
    | succ a ih =>
      refine ⟨_, fun p up => ?_⟩
      cases up
      exact ih

theorem nested_chain (n a : Nat) : (nested n).Chain 0 a (List.replicate a [97]) := by
  induction a with
  | zero => exact .root
  | succ a ih =>
    rw [List.replicate_succ']
    exact .child (nested_parentOf n a) rfl ih

theorem pathsSound_nested : (nested 256).PathsSound 0 [98] := by
  have tree := nested_inodeTree 256
  refine (pathsSound_iff tree).mpr (PathsPlain.of_names tree ?_ ?_ ?_ (by decide))
  · intro a _ b _ parents names
    cases a with
    | zero =>
      cases b with
      | zero => rfl
      | succ b => cases parents
    | succ a =>
      cases b with
      | zero => cases parents
      | succ b =>
        cases parents
        rfl
  · intro a cs chain live
    rw [chain.unique tree (nested_chain 256 a), List.length_replicate]
    exact (mem_nested 256 a).mp live
  · intro a _ s named
    cases a with
    | zero => cases named
    | succ a =>
      cases named
      decide

theorem pathsSound_nestedTooDeep :
    (nested 257).InodeTree 0 ∧ ¬ (nested 257).PathsSound 0 [98] := by
  have tree := nested_inodeTree 257
  refine ⟨tree, fun sound => ?_⟩
  have live := (mem_nested 257 257).mpr (Nat.le_refl 257)
  have path := sound.path 257 _ (nested_chain 257 257) live
  rw [(nested_chain 257 257).inodeToPath tree, drop_join_iff, List.length_replicate] at path
  omega

end Filesystem

end CoLinux
