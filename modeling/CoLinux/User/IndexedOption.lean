import CoLinux.User.BootLine
import CoLinux.Lib.Numeral

/-!
# Options with an index (`co_cmdline_get_next_equality_int_prefix` of `user/cmdline.c`)

An option such as `cobd3=file` is looked for by its prefix. The text between the prefix and the
equals sign goes to a small buffer and through `strtoul`, which stops at the first character that
is not a digit.
-/

namespace CoLinux

open Lib

/-- What `co_cmdline_get_next_equality_wrapper` sets: the text of the key buffer, and the value. -/
structure EqualityOut where
  outExists : Bool
  key : List UInt8
  value : Option (List UInt8)
  deriving DecidableEq

/-- The part of the loop for the argument that is taken. `alloc` is the answer of `co_os_malloc`;
with a `valueSize` of 0 the value is allocated. -/
def takeEquality (alloc : Bool) (prefixLen keySize valueSize : Nat) (arg : List UInt8)
    (out : EqualityOut) : Step EqualityOut :=
  let keyFound := arg.idxOf 61
  let keyLen := keyFound - prefixLen
  if 0 < keyLen ∧ keySize < keyLen + 1 then (.invalidParameter, out)
  else
    let key := if 0 < keyLen then (arg.drop prefixLen).take keyLen else out.key
    let value := arg.drop (keyFound + 1)
    let out := { out with key := key }
    if value.length = 0 then (.invalidParameter, out)
    else if valueSize = 0 ∧ ¬ alloc then (.outOfMemory, out)
    else if 0 < valueSize ∧ valueSize - 1 ≤ value.length then (.error, out)
    else (.ok, { out with outExists := true, value := some value })

/-- `co_cmdline_get_next_equality_wrapper`: the loop over the arguments. -/
def coCmdlineGetNextEqualityWrapper (alloc : Bool) (expectedPrefix : List UInt8)
    (keySize valueSize : Nat) (out : EqualityOut) : CommandLine → Step (CommandLine × EqualityOut)
  | [] => (.ok, [], out)
  | none :: args =>
    let r := coCmdlineGetNextEqualityWrapper alloc expectedPrefix keySize valueSize out args
    (r.1, none :: r.2.1, r.2.2)
  | some arg :: args =>
    if 61 ∉ arg.val ∨ ¬ expectedPrefix <+: arg.val then
      let r := coCmdlineGetNextEqualityWrapper alloc expectedPrefix keySize valueSize out args
      (r.1, some arg :: r.2.1, r.2.2)
    else
      let r := takeEquality alloc expectedPrefix.length keySize valueSize arg.val out
      (r.1, none :: args, r.2)

/-- What `co_cmdline_get_next_equality_int_prefix` sets; `keyInt` is absent unless it is stored. -/
structure IndexedOut where
  outExists : Bool
  keyInt : Option Nat
  value : Option (List UInt8)
  deriving DecidableEq

/-- `co_cmdline_get_next_equality_int_prefix`. `number` is the text that the buffer of 11 bytes on
the stack holds before anything is stored in it. -/
def coCmdlineGetNextEqualityIntPrefix (alloc : Bool) (expectedPrefix : List UInt8)
    (maxIndex : UInt32) (number : List UInt8) (cmdline : CommandLine) :
    Step (CommandLine × IndexedOut) :=
  let r := coCmdlineGetNextEqualityWrapper alloc expectedPrefix 11 0 ⟨false, number, none⟩ cmdline
  let out : IndexedOut := ⟨r.2.2.outExists, none, r.2.2.value⟩
  if r.1 ≠ .ok then (r.1, r.2.1, out)
  else if r.2.2.outExists then
    let parsed := strtoul UInt8.toNat wordSize 10 r.2.2.key
    if parsed.2.length = r.2.2.key.length then (.invalidParameter, r.2.1, out)
    else if maxIndex.toNat ≤ parsed.1 then (.invalidParameter, r.2.1, out)
    else (.ok, r.2.1, { out with keyInt := some parsed.1 })
  else (.ok, r.2.1, out)

/-! ## What the lookup has to do -/

/-- An argument that is looked for. -/
def Candidate (expectedPrefix arg : List UInt8) : Prop := 61 ∈ arg ∧ expectedPrefix <+: arg

/-- `arg` is the first candidate, and is the prefix, a key and a value. -/
structure FirstCandidate (expectedPrefix : List UInt8) (cmdline before after : CommandLine)
    (key value : List UInt8) : Prop where
  arg : ∃ arg : CText, cmdline = before ++ some arg :: after ∧
    arg.val = expectedPrefix ++ (key ++ 61 :: value)
  first : ∀ a, some a ∈ before → ¬ Candidate expectedPrefix a.val
  key : 61 ∉ key

/-- A key of digits only. -/
abbrev AllDigits (key : List UInt8) : Prop := ∀ c ∈ key, isDigitOf UInt8.toNat 10 c = true

/-- An index below the bound, with a value. -/
def Indexed (maxIndex : UInt32) (key value : List UInt8) : Prop :=
  (key ≠ [] ∧ AllDigits key ∧ numeral UInt8.toNat 10 key < maxIndex.toNat) ∧ value ≠ []

/-- Without a candidate nothing is found; the first candidate is taken, and is reported if it has
an index below the bound and a value, and refused otherwise. -/
structure IndexedParsed (expectedPrefix : List UInt8) (maxIndex : UInt32) (cmdline : CommandLine)
    (r : Step (CommandLine × IndexedOut)) : Prop where
  absent : (∀ a, some a ∈ cmdline → ¬ Candidate expectedPrefix a.val) →
    r.1 = .ok ∧ r.2.1 = cmdline ∧ r.2.2.outExists = false
  present : ∀ before after key value,
    FirstCandidate expectedPrefix cmdline before after key value →
      r.2.1 = before ++ none :: after ∧
      (Indexed maxIndex key value →
        r.1 = .ok ∧ r.2.2 = ⟨true, some (numeral UInt8.toNat 10 key), some value⟩) ∧
      (¬ Indexed maxIndex key value → r.1 ≠ .ok)

/-- `strtoul` finds a number below the bound at the beginning of a text. -/
def StartsBelow (maxIndex : UInt32) (s : List UInt8) : Prop :=
  (scanNumber UInt8.toNat 10 s).isSome ∧ (strtoul UInt8.toNat wordSize 10 s).1 < maxIndex.toNat

/-- The key of an option is read as what it is: an empty one does not find an index on the stack, a
long one has none, and one that starts with an index has nothing else. -/
structure KeyRead (maxIndex : UInt32) (number key : List UInt8) : Prop where
  empty : key = [] → ¬ StartsBelow maxIndex number
  long : 10 < key.length → AllDigits key → maxIndex.toNat ≤ numeral UInt8.toNat 10 key
  whole : key ≠ [] → key.length ≤ 10 → StartsBelow maxIndex key → AllDigits key

/-! ## The argument that is taken -/

theorem idxOf_equals {front key value : List UInt8} (h : 61 ∉ front) (hk : 61 ∉ key) :
    (front ++ (key ++ 61 :: value)).idxOf 61 = front.length + key.length := by
  rw [List.idxOf_append_of_notMem h, List.idxOf_append_of_notMem hk, List.idxOf_cons_self,
    Nat.add_zero]

/-- Taking an argument with an allocated value. -/
theorem takeEquality_eq {front key value : List UInt8} (h : 61 ∉ front) (hk : 61 ∉ key)
    (number : List UInt8) :
    takeEquality true front.length 11 0 (front ++ (key ++ 61 :: value)) ⟨false, number, none⟩ =
      if 10 < key.length then (.invalidParameter, ⟨false, number, none⟩)
      else
        let read := if key = [] then number else key
        if value = [] then (.invalidParameter, ⟨false, read, none⟩)
        else (.ok, ⟨true, read, some value⟩) := by
  have keyLen : front.length + key.length - front.length = key.length := Nat.add_sub_cancel_left _ _
  have keyText : ((front ++ (key ++ 61 :: value)).drop front.length).take key.length = key := by
    rw [List.drop_left, List.take_left]
  have valueText :
      (front ++ (key ++ 61 :: value)).drop (front.length + key.length + 1) = value := by
    have split : front ++ (key ++ 61 :: value) = front ++ key ++ [61] ++ value := by simp
    have length : front.length + key.length + 1 = (front ++ key ++ [61]).length := by
      simp [Nat.add_assoc]
    rw [split, length, List.drop_left]
  have long : 0 < key.length ∧ 11 < key.length + 1 ↔ 10 < key.length := by omega
  have some : 0 < key.length ↔ ¬ key = [] := List.length_pos_iff
  unfold takeEquality
  rw [idxOf_equals h hk]
  simp only [keyLen, keyText, valueText, long, List.length_eq_zero_iff, not_true_eq_false,
    and_false, Nat.lt_irrefl, false_and, if_false]
  simp only [some, ite_not]

/-! ## The loop -/

section Loop

variable {alloc : Bool} {expectedPrefix : List UInt8} {keySize valueSize : Nat} {out : EqualityOut}

theorem wrapper_absent {cmdline : CommandLine}
    (absent : ∀ a, some a ∈ cmdline → ¬ Candidate expectedPrefix a.val) :
    coCmdlineGetNextEqualityWrapper alloc expectedPrefix keySize valueSize out cmdline =
      (.ok, cmdline, out) := by
  induction cmdline with
  | nil => rfl
  | cons arg args ih =>
    have later := ih fun a ha => absent a (List.mem_cons_of_mem _ ha)
    cases arg with
    | none => rw [coCmdlineGetNextEqualityWrapper, later]
    | some arg =>
      have skipped := absent arg List.mem_cons_self
      rw [coCmdlineGetNextEqualityWrapper, later, if_pos]
      by_contra h
      rw [not_or, not_not, not_not] at h
      exact skipped h

theorem wrapper_first {before after : CommandLine} {arg : CText}
    (first : ∀ a, some a ∈ before → ¬ Candidate expectedPrefix a.val)
    (candidate : Candidate expectedPrefix arg.val) :
    coCmdlineGetNextEqualityWrapper alloc expectedPrefix keySize valueSize out
        (before ++ some arg :: after) =
      ((takeEquality alloc expectedPrefix.length keySize valueSize arg.val out).1,
        before ++ none :: after,
        (takeEquality alloc expectedPrefix.length keySize valueSize arg.val out).2) := by
  induction before with
  | nil =>
    rw [List.nil_append, coCmdlineGetNextEqualityWrapper, if_neg]
    · rfl
    · rw [not_or, not_not, not_not]
      exact candidate
  | cons a before ih =>
    have later := ih fun b hb => first b (List.mem_cons_of_mem _ hb)
    cases a with
    | none => rw [List.cons_append, coCmdlineGetNextEqualityWrapper, later, List.cons_append]
    | some a =>
      have skipped := first a List.mem_cons_self
      rw [List.cons_append, coCmdlineGetNextEqualityWrapper, later, if_pos, List.cons_append]
      by_contra h
      rw [not_or, not_not, not_not] at h
      exact skipped h

end Loop

/-! ## The index -/

section Index

variable {expectedPrefix : List UInt8} {maxIndex : UInt32} {number key value : List UInt8}
  {cmdline before after : CommandLine}

theorem FirstCandidate.candidate
    (h : FirstCandidate expectedPrefix cmdline before after key value) :
    ∃ arg : CText, cmdline = before ++ some arg :: after ∧
      arg.val = expectedPrefix ++ (key ++ 61 :: value) ∧ Candidate expectedPrefix arg.val := by
  obtain ⟨arg, line, text⟩ := h.arg
  refine ⟨arg, line, text, ?_, ?_⟩
  · rw [text]
    simp
  · rw [text]
    exact List.prefix_append _ _

/-- The text that goes through `strtoul`. -/
abbrev readKey (number key : List UInt8) : List UInt8 := if key = [] then number else key

instance : Decidable (StartsBelow maxIndex key) := instDecidableAnd

/-- What the function does with the first candidate. -/
theorem intPrefix_present (noEqual : 61 ∉ expectedPrefix)
    (h : FirstCandidate expectedPrefix cmdline before after key value) :
    ∃ r : Step IndexedOut,
      coCmdlineGetNextEqualityIntPrefix true expectedPrefix maxIndex number cmdline =
        (r.1, before ++ none :: after, r.2) ∧
      (r.1 = .ok ↔ value ≠ [] ∧ key.length ≤ 10 ∧ StartsBelow maxIndex (readKey number key)) ∧
      (r.1 = .ok → r.2 =
        ⟨true, some (strtoul UInt8.toNat wordSize 10 (readKey number key)).1, some value⟩) := by
  obtain ⟨arg, line, text, candidate⟩ := h.candidate
  have taken := @takeEquality_eq _ _ value noEqual h.key number
  have found := @wrapper_first true expectedPrefix 11 0 ⟨false, number, none⟩ before after arg
    h.first candidate
  rw [text, taken, ← line] at found
  have failed : ¬ CoRc.invalidParameter = .ok := by decide
  unfold coCmdlineGetNextEqualityIntPrefix
  rw [found]
  by_cases long : 10 < key.length
  · refine ⟨(.invalidParameter, ⟨false, none, none⟩), ?_, ?_, fun ok => absurd ok failed⟩
    · simp [long]
    · exact iff_of_false failed fun accepted => absurd accepted.2.1 (by omega)
  by_cases empty : value = []
  · refine ⟨(.invalidParameter, ⟨false, none, none⟩), ?_, ?_, fun ok => absurd ok failed⟩
    · simp [long, empty]
    · exact iff_of_false failed fun accepted => absurd empty accepted.1
  simp only [if_neg long, if_neg empty, ne_eq, not_true_eq_false, if_false, if_true,
    strtoul_none_iff]
  by_cases missing : scanNumber UInt8.toNat 10 (readKey number key) = none
  · refine ⟨(.invalidParameter, ⟨true, none, some value⟩), if_pos missing, ?_,
      fun ok => absurd ok failed⟩
    refine iff_of_false failed fun accepted => ?_
    rw [StartsBelow, missing] at accepted
    exact absurd accepted.2.2.1 (by decide)
  · have isSome : (scanNumber UInt8.toNat 10 (readKey number key)).isSome :=
      Option.isSome_iff_ne_none.mpr missing
    by_cases large : maxIndex.toNat ≤ (strtoul UInt8.toNat wordSize 10 (readKey number key)).1
    · refine ⟨(.invalidParameter, ⟨true, none, some value⟩), ?_, ?_, fun ok => absurd ok failed⟩
      · rw [if_neg missing, if_pos large]
      · exact iff_of_false failed fun accepted => absurd accepted.2.2.2 (by omega)
    · refine ⟨(.ok, ⟨true, some (strtoul UInt8.toNat wordSize 10 (readKey number key)).1,
        some value⟩), ?_, ?_, fun _ => rfl⟩
      · rw [if_neg missing, if_neg large]
      · exact iff_of_true rfl ⟨empty, by omega, isSome, by omega⟩

theorem startsBelow_digits (nonempty : key ≠ []) (digits : AllDigits key) :
    (StartsBelow maxIndex key ↔ numeral UInt8.toNat 10 key < maxIndex.toNat) ∧
      (numeral UInt8.toNat 10 key < maxIndex.toNat →
        (strtoul UInt8.toNat wordSize 10 key).1 = numeral UInt8.toNat 10 key) := by
  have number := scanNumber_digits nonempty digits
  have bound : maxIndex.toNat < 4294967296 := maxIndex.toNat_lt
  have value : (strtoul UInt8.toNat wordSize 10 key).1 =
      if wordSize ≤ numeral UInt8.toNat 10 key then wordSize - 1
      else numeral UInt8.toNat 10 key := by
    rw [strtoul, number]
    rfl
  rw [StartsBelow, value, number]
  simp only [Option.isSome_some, true_and, wordSize]
  split <;> omega

/-- A first candidate is handled right if and only if its key is read as what it is. -/
theorem intPrefix_candidate_iff (noEqual : 61 ∉ expectedPrefix)
    (h : FirstCandidate expectedPrefix cmdline before after key value)
    {r : Step (CommandLine × IndexedOut)}
    (hr : coCmdlineGetNextEqualityIntPrefix true expectedPrefix maxIndex number cmdline = r) :
    (r.2.1 = before ++ none :: after ∧
        (Indexed maxIndex key value →
          r.1 = .ok ∧ r.2.2 = ⟨true, some (numeral UInt8.toNat 10 key), some value⟩) ∧
        (¬ Indexed maxIndex key value → r.1 ≠ .ok)) ↔
      (value ≠ [] → KeyRead maxIndex number key) := by
  obtain ⟨⟨rc, out⟩, result, ok, set⟩ := @intPrefix_present _ maxIndex number _ _ _ _ _ noEqual h
  obtain rfl := hr.symm.trans result
  dsimp only at ok set ⊢
  constructor
  · rintro ⟨-, accepts, refuses⟩ some
    refine ⟨fun empty below => ?_, fun long digits => ?_, fun nonempty short below => ?_⟩
    · refine refuses (fun indexed => indexed.1.1 empty) (ok.mpr ⟨some, ?_, ?_⟩)
      · rw [empty]
        exact Nat.zero_le _
      · rwa [readKey, if_pos empty]
    · by_contra below
      have nonempty : key ≠ [] := List.length_pos_iff.mp (by omega)
      have accepted := ok.mp (accepts ⟨⟨nonempty, digits, by omega⟩, some⟩).1
      omega
    · by_contra other
      refine refuses (fun indexed => other indexed.1.2.1) (ok.mpr ⟨some, short, ?_⟩)
      rwa [readKey, if_neg nonempty]
  · intro read
    refine ⟨rfl, ?_, ?_⟩
    · rintro ⟨⟨nonempty, digits, below⟩, some⟩
      obtain ⟨starts, whole⟩ := @startsBelow_digits maxIndex _ nonempty digits
      have short : ¬ 10 < key.length := fun long =>
        absurd ((read some).long long digits) (Nat.not_le.mpr below)
      have same : readKey number key = key := if_neg nonempty
      rw [same] at ok set
      have accepted := ok.mpr ⟨some, by omega, starts.mpr below⟩
      refine ⟨accepted, ?_⟩
      rw [set accepted, whole below]
    · intro other accepted
      obtain ⟨some, short, below⟩ := ok.mp accepted
      by_cases empty : key = []
      · rw [readKey, if_pos empty] at below
        exact (read some).empty empty below
      · rw [readKey, if_neg empty] at below
        have digits := (read some).whole empty short below
        exact other ⟨⟨empty, digits, (startsBelow_digits empty digits).1.mp below⟩, some⟩

/-- The lookup does what it has to if and only if a first candidate with a value has a key that is
read as what it is. -/
theorem intPrefix_parsed_iff (noEqual : 61 ∉ expectedPrefix) :
    IndexedParsed expectedPrefix maxIndex cmdline
        (coCmdlineGetNextEqualityIntPrefix true expectedPrefix maxIndex number cmdline) ↔
      ∀ before after key value, FirstCandidate expectedPrefix cmdline before after key value →
        value ≠ [] → KeyRead maxIndex number key := by
  constructor
  · intro parsed before after key value h
    exact (intPrefix_candidate_iff noEqual h rfl).mp (parsed.present before after key value h)
  · intro read
    refine ⟨fun absent => ?_, fun before after key value h => ?_⟩
    · unfold coCmdlineGetNextEqualityIntPrefix
      rw [wrapper_absent absent]
      exact ⟨rfl, rfl, rfl⟩
    · exact (intPrefix_candidate_iff noEqual h rfl).mpr (read before after key value h)

end Index

/-- `cobd3=a`. -/
def cobdThree : CText := ⟨[99, 111, 98, 100, 51, 61, 97], by decide⟩

theorem intPrefix_parsed_cobdThree :
    IndexedParsed [99, 111, 98, 100] 32 [none, some cobdThree]
      (coCmdlineGetNextEqualityIntPrefix true [99, 111, 98, 100] 32 [55]
        [none, some cobdThree]) := by
  refine (intPrefix_parsed_iff (by decide)).mpr fun before after key value h _ => ?_
  obtain ⟨arg, line, text⟩ := h.arg
  have found : some arg ∈ [none, some cobdThree] :=
    line ▸ List.mem_append_right _ List.mem_cons_self
  obtain rfl : arg = cobdThree := by simpa using found
  have same : key = [51] := by
    have whole : cobdThree.val = [99, 111, 98, 100] ++ [51, 61, 97] := rfl
    rw [whole] at text
    rcases List.cons_eq_append_iff.mp (List.append_cancel_left text) with
      ⟨rfl, first⟩ | ⟨rest, rfl, later⟩
    · exact absurd (List.cons.inj first).1 (by decide)
    · rcases List.cons_eq_append_iff.mp later with ⟨rfl, -⟩ | ⟨rest, rfl, -⟩
      · rfl
      · exact absurd h.key (by simp)
  rw [same]
  exact ⟨fun empty => absurd empty (by decide), fun long => absurd long (by decide),
    fun _ _ _ => by decide +kernel⟩

/-- `cobd1x=a`. -/
def cobdOneX : CText := ⟨[99, 111, 98, 100, 49, 120, 61, 97], by decide⟩

/-- The digit at the beginning of `1x` is taken for the index. -/
theorem intPrefix_acceptsTrailing :
    (coCmdlineGetNextEqualityIntPrefix true [99, 111, 98, 100] 32 [] [some cobdOneX]).1 = .ok ∧
      ¬ IndexedParsed [99, 111, 98, 100] 32 [some cobdOneX]
        (coCmdlineGetNextEqualityIntPrefix true [99, 111, 98, 100] 32 [] [some cobdOneX]) := by
  have accepted : (coCmdlineGetNextEqualityIntPrefix true [99, 111, 98, 100] 32 []
      [some cobdOneX]).1 = .ok := by
    decide +kernel
  have candidate : FirstCandidate [99, 111, 98, 100] [some cobdOneX] [] [] [49, 120] [97] :=
    ⟨⟨cobdOneX, rfl, rfl⟩, fun _ h => absurd h List.not_mem_nil, by decide⟩
  refine ⟨accepted, fun parsed =>
    (parsed.present _ _ _ _ candidate).2.2 (fun indexed => ?_) accepted⟩
  exact absurd (indexed.1.2.1 120 (by decide)) (by decide)

end CoLinux
