import CoLinux.Common.Types
import CoLinux.Lib.CText
import CoLinux.Lib.MarkedScan
import CoLinux.User.MacAddress

/-!
# Arguments from files (`eval_params_file` of `user/cmdline.c`)

An argument `@file` stands for the parameters in a file. The files are scanned twice: the parameters
are counted first, and stored then in an array that has room for as many. A memory refusal in the
second scan does not end it.
-/

namespace CoLinux

open Lib

inductive ParamParseState
  | init
  | whitespace
  | comment
  | param
  | paramEqual
  | paramEqualStr
  deriving DecidableEq, Repr

/-- A letter, a digit or a point: what a parameter begins with. -/
def startsParam (c : UInt8) : Bool :=
  (97 ≤ c ∧ c ≤ 122) ∨ (65 ≤ c ∧ c ≤ 90) ∨ (48 ≤ c ∧ c ≤ 57) ∨ c = 46

/-- The row of `parser_states` for `INIT` and `WHITESPACE`, which is the same. -/
def betweenParams (c : UInt8) : ParamParseState × ScanMark :=
  if c = 32 ∨ c = 9 ∨ c = 10 ∨ c = 13 then (.whitespace, .none)
  else if startsParam c then (.param, .start)
  else if c = 35 then (.comment, .none)
  else (.init, .none)

/-- `parser_states`. -/
def parserStates : ParamParseState → UInt8 → ParamParseState × ScanMark
  | .init, c => betweenParams c
  | .whitespace, c => betweenParams c
  | .comment, c => if c = 10 then (.init, .none) else (.comment, .none)
  | .param, c =>
    if c ≤ 32 then (.init, .stop)
    else if c = 61 then (.paramEqual, .none)
    else if c = 34 then (.paramEqualStr, .none)
    else if c = 35 then (.comment, .stop)
    else (.param, .none)
  | .paramEqual, c =>
    if c ≤ 32 then (.init, .stop)
    else if c = 34 then (.paramEqualStr, .none)
    else if c = 35 then (.comment, .stop)
    else (.paramEqual, .none)
  | .paramEqualStr, c =>
    if c < 32 then (.init, .stop)
    else if c = 34 then (.param, .none)
    else if c = 35 then (.comment, .stop)
    else (.paramEqualStr, .none)

/-- What the calls return that the evaluation depends on: the loading of the file of an argument in
each pass, the memory for the array, and the memory for the copies of an argument's strings. -/
structure ParamAnswers where
  countLoad : Nat → CoRc
  argv : Bool
  fillLoad : Nat → CoRc
  copy : Nat → Nat → Bool

/-- `co_os_file_load`. The size of the buffer is the low word of the file's size. -/
def coOsFileLoad (rc : CoRc) (content : List UInt8) : Step (List UInt8) :=
  if rc = .ok then (.ok, content.take (content.length % wordSize)) else (rc, [])

/-- The loop of `get_params_list` without a list. -/
def countLoop : ParamParseState → Nat → List UInt8 → Nat
  | state, count, [] => if (parserStates state 0).2 = .stop then count + 1 else count
  | state, count, c :: rest =>
    let count := if (parserStates state c).2 = .stop then count + 1 else count
    if c = 0 then count else countLoop (parserStates state c).1 count rest

/-- The new array: the room for it, the strings before `argv_scan`, whether something outside of the
array or of a text was used, and whether memory or a file was refused. -/
structure Argv where
  bytes : Nat
  stored : List CString
  outside : Bool
  refused : Bool
  deriving DecidableEq

/-- `dup_param` of `text` from `start` to `stop`. A null pointer is stored if memory is refused. -/
def dupParam (granted : Bool) (text : CString) (start stop : Nat) (a : Argv) : Argv :=
  let outside := a.outside || decide (text.length < stop) ||
    decide (a.bytes < 4 * a.stored.length + 4)
  if granted then
    { a with stored := a.stored ++ [(text.drop start).take (stop - start)], outside := outside }
  else { a with outside := outside, refused := true }

/-- The variables of the loop of `get_params_list` with a list; `ended` counts the parameters. -/
structure FillScan where
  state : ParamParseState
  paramStart : Option Nat
  ended : Nat
  argv : Argv

/-- The body of the loop. -/
def fillChar (copy : Nat → Bool) (buf : CString) (filescan : Nat) (c : UInt8) (s : FillScan) :
    Step FillScan :=
  let action := parserStates s.state c
  match action.2 with
  | .start => (.ok, { s with state := action.1, paramStart := some filescan })
  | .stop =>
    match s.paramStart with
    | none => (.error, s)
    | some start =>
      -- a refusal leaves the `switch` only
      (.ok, ⟨action.1, if copy s.ended then none else some start, s.ended + 1,
        dupParam (copy s.ended) buf start filescan s.argv⟩)
  | .none => (.ok, { s with state := action.1 })

/-- The loop of `get_params_list` with a list. -/
def fillLoop (copy : Nat → Bool) (buf : CString) : Nat → List UInt8 → FillScan → Step Argv
  | filescan, [], s =>
    let r := fillChar copy buf filescan 0 s
    (r.1, r.2.argv)
  | filescan, c :: rest, s =>
    let r := fillChar copy buf filescan c s
    if r.1 ≠ .ok ∨ c = 0 then (r.1, r.2.argv)
    else fillLoop copy buf (filescan + 1) rest r.2

/-- `get_params_list` with a list. -/
def getParamsList (rc : CoRc) (copy : Nat → Bool) (content : List UInt8) (a : Argv) : Step Argv :=
  let loaded := coOsFileLoad rc content
  if loaded.1 ≠ .ok then (loaded.1, { a with refused := true })
  else if 0 < loaded.2.length then fillLoop copy loaded.2 0 loaded.2 ⟨.init, none, 0, a⟩
  else (.ok, a)

/-- An argument of the form `@file`. -/
def IsFile (arg : CText) : Prop := arg.val.head? = some 64

instance (arg : CText) : Decidable (IsFile arg) := inferInstanceAs (Decidable (_ = _))

/-- The content of the file that an argument names. -/
def fileOf (files : CString → List UInt8) (arg : CText) : List UInt8 := files (arg.val.drop 1)

/-- The first loop of `eval_params_file`, from argument `i` on. -/
def countArguments (h : ParamAnswers) (files : CString → List UInt8) :
    Nat → Nat → List CText → Step Nat
  | _, count, [] => (.ok, count)
  | i, count, arg :: args =>
    if IsFile arg then
      let loaded := coOsFileLoad (h.countLoad i) (fileOf files arg)
      if loaded.1 ≠ .ok then (loaded.1, count)
      else
        let count := if 0 < loaded.2.length then countLoop .init count loaded.2 else count
        countArguments h files (i + 1) count args
    else countArguments h files (i + 1) (count + 1) args

/-- The second loop of `eval_params_file`, from argument `i` on. -/
def fillArguments (h : ParamAnswers) (files : CString → List UInt8) :
    Nat → List CText → Argv → Step Argv
  | _, [], a => (.ok, a)
  | i, arg :: args, a =>
    if IsFile arg then
      let r := getParamsList (h.fillLoad i) (h.copy i) (fileOf files arg) a
      if r.1 ≠ .ok then r else fillArguments h files (i + 1) args r.2
    else
      let a := dupParam (h.copy i 0) arg.val 0 arg.val.length a
      if h.copy i 0 then fillArguments h files (i + 1) args a else (.outOfMemory, a)

/-- What `eval_params_file` leaves: what it returns, the number that was counted, and the array. -/
structure EvaluatedParams where
  rc : CoRc
  counted : Nat
  argv : Argv

/-- `eval_params_file`. -/
def evalParamsFile (h : ParamAnswers) (files : CString → List UInt8) (args : List CText) :
    EvaluatedParams :=
  let counted := countArguments h files 0 0 args
  let bytes := 4 * counted.2 % wordSize
  if counted.1 ≠ .ok then ⟨counted.1, counted.2, ⟨0, [], false, true⟩⟩
  else if h.argv then
    let r := fillArguments h files 0 args ⟨bytes, [], false, false⟩
    ⟨r.1, counted.2, r.2⟩
  else ⟨.outOfMemory, counted.2, ⟨0, [], false, true⟩⟩

/-! ## What the array has to hold -/

/-- The states within a parameter. -/
def ParamParseState.inParam : ParamParseState → Bool
  | .param | .paramEqual | .paramEqualStr => true
  | .init | .whitespace | .comment => false

/-- The state table as a scanner of tokens. -/
def paramTable : MarkedTable ParamParseState UInt8 where
  next s c := (parserStates s c).1
  mark s c := (parserStates s c).2
  inside := ParamParseState.inParam
  start_inside s c := by
    cases s <;> simp only [parserStates, betweenParams] <;> split_ifs <;>
      simp [ParamParseState.inParam]
  stop_inside s c := by
    cases s <;> simp only [parserStates, betweenParams] <;> split_ifs <;>
      simp [ParamParseState.inParam]
  keep_inside s c := by
    cases s <;> simp only [parserStates, betweenParams] <;> split_ifs <;>
      simp [ParamParseState.inParam]

/-- The text before the first NUL, with a NUL. -/
def untilNul (bytes : List UInt8) : List UInt8 := bytes.takeWhile (· ≠ 0) ++ [0]

/-- The parameters in a file. -/
def fileTokens (bytes : List UInt8) : List CString := paramTable.tokens .init [] (untilNul bytes)

/-- The arguments, with the parameters of the files in place of them. -/
def expandParams (files : CString → List UInt8) (args : List CText) : List CString :=
  args.flatMap fun arg => if IsFile arg then fileTokens (fileOf files arg) else [arg.val]

/-- The result is the expansion, as counted, or an error if something was refused; and nothing
outside of the array and the texts was used. -/
structure ParamsEvaluated (files : CString → List UInt8) (args : List CText)
    (r : EvaluatedParams) : Prop where
  counted : r.rc = .ok → r.counted = r.argv.stored.length
  expanded : r.rc = .ok → r.argv.stored = expandParams files args
  refused : r.argv.refused = true → r.rc ≠ .ok
  granted : r.argv.refused = false → r.rc = .ok
  inside : r.argv.outside = false

/-- What is loaded of the files. -/
def loadedFiles (files : CString → List UInt8) : CString → List UInt8 :=
  fun name => (files name).take ((files name).length % wordSize)

/-- A file is not loaded in the first pass, from argument `i` on. -/
def CountFails (h : ParamAnswers) (i : Nat) (args : List CText) : Prop :=
  ∃ k arg, args[k]? = some arg ∧ IsFile arg ∧ h.countLoad (i + k) ≠ .ok

/-- A file is not loaded in the second pass, or a plain argument is not copied. -/
def FillFails (h : ParamAnswers) (i : Nat) (args : List CText) : Prop :=
  ∃ k arg, args[k]? = some arg ∧
    if IsFile arg then h.fillLoad (i + k) ≠ .ok else h.copy (i + k) 0 = false

/-- The parameters of a file from the `n`th on, with the answers for their copies. -/
def numbered (copy : Nat → Bool) (n : Nat) (params : List CString) : List (CString × Bool) :=
  (params.zipIdx n).map fun p => (p.1, copy p.2)

/-- The copies that the second pass makes, from argument `i` on, with the answers for them. -/
def copiesFrom (h : ParamAnswers) (files : CString → List UInt8) :
    Nat → List CText → List (CString × Bool)
  | _, [] => []
  | i, arg :: args =>
    if IsFile arg then
      if h.fillLoad i = .ok then
        numbered (h.copy i) 0 (fileTokens (fileOf files arg)) ++ copiesFrom h files (i + 1) args
      else []
    else (arg.val, h.copy i 0) :: if h.copy i 0 then copiesFrom h files (i + 1) args else []

/-- Every copy has a place in an array of some bytes that holds `n` strings; one that is refused
leaves its place to the next. -/
def FitsArray (bytes : Nat) : Nat → List Bool → Prop
  | _, [] => True
  | n, granted :: rest =>
    4 * n + 4 ≤ bytes ∧ FitsArray bytes (if granted then n + 1 else n) rest

/-- The steps before the second pass succeed. -/
def FillStarts (h : ParamAnswers) (args : List CText) : Prop :=
  ¬ CountFails h 0 args ∧ h.argv = true

/-- The size of the array is not cut by the multiplication, as far as it is used; and if no failure
is reported, nothing was refused and the files were loaded as they are. -/
structure ParamsComplete (h : ParamAnswers) (files : CString → List UInt8) (args : List CText) :
    Prop where
  room : FillStarts h args →
    FitsArray (4 * (expandParams (loadedFiles files) args).length % wordSize) 0
      ((copiesFrom h (loadedFiles files) 0 args).map Prod.snd)
  complete : FillStarts h args → ¬ FillFails h 0 args →
    (∀ p ∈ copiesFrom h (loadedFiles files) 0 args, p.2 = true) ∧
      expandParams (loadedFiles files) args = expandParams files args

/-! ## The passes over a file -/

theorem untilNul_cons {c : UInt8} {rest : List UInt8} (h : c ≠ 0) :
    untilNul (c :: rest) = c :: untilNul rest := by
  rw [untilNul, List.takeWhile_cons_of_pos (by simpa using h)]
  rfl

theorem untilNul_nul (rest : List UInt8) : untilNul (0 :: rest) = [0] := rfl

theorem countLoop_eq (state : ParamParseState) (count : Nat) (token : CString)
    (cs : List UInt8) :
    countLoop state count cs = count + (paramTable.tokens state token (untilNul cs)).length := by
  -- one symbol, whatever is behind it
  have turn : ∀ (state : ParamParseState) (token : CString) (c : UInt8) (more : List UInt8),
      ∃ token', (paramTable.tokens state token (c :: more)).length =
        (if (parserStates state c).2 = .stop then 1 else 0) +
          (paramTable.tokens (parserStates state c).1 token' more).length := by
    intro state token c more
    cases mark : paramTable.mark state c with
    | start =>
      have same : (parserStates state c).2 = .start := mark
      rw [MarkedTable.tokens_start _ mark, same]
      exact ⟨[c], (Nat.zero_add _).symm⟩
    | stop =>
      have same : (parserStates state c).2 = .stop := mark
      rw [MarkedTable.tokens_stop _ mark, same]
      exact ⟨[], Nat.add_comm _ 1⟩
    | none =>
      have same : (parserStates state c).2 = .none := mark
      rw [MarkedTable.tokens_none _ mark, same]
      exact ⟨token ++ [c], (Nat.zero_add _).symm⟩
  induction cs generalizing state count token with
  | nil =>
    obtain ⟨token', length⟩ := turn state token 0 []
    have last : untilNul [] = [0] := rfl
    rw [countLoop, last, length, MarkedTable.tokens]
    split <;> rfl
  | cons c rest ih =>
    rw [countLoop]
    by_cases nul : c = 0
    · subst nul
      obtain ⟨token', length⟩ := turn state token 0 []
      rw [if_pos rfl, untilNul_nul, length, MarkedTable.tokens]
      split <;> rfl
    · obtain ⟨token', length⟩ := turn state token c (untilNul rest)
      rw [if_neg nul, untilNul_cons nul, length, ih _ _ token']
      split <;> omega

/-- All copies, one after the other. -/
def storeAll (ps : List (CString × Bool)) (a : Argv) : Argv :=
  ps.foldl (fun a p => dupParam p.2 p.1 0 p.1.length a) a

theorem storeAll_append (ps qs : List (CString × Bool)) (a : Argv) :
    storeAll (ps ++ qs) a = storeAll qs (storeAll ps a) := List.foldl_append

/-- A copy of a part of a text is a copy of the part. -/
theorem dupParam_token {buf token : CString} {start filescan : Nat} (granted : Bool) (a : Argv)
    (at' : MarkedTable.TokenAt buf token start filescan) (le : filescan ≤ buf.length) :
    dupParam granted buf start filescan a = dupParam granted token 0 token.length a := by
  rw [dupParam, dupParam, at'.eq, Nat.sub_zero, List.drop_zero, List.take_length,
    decide_eq_false (Nat.not_lt.mpr le), decide_eq_false (Nat.lt_irrefl _)]

/-- The second pass is within a parameter, and knows where it starts. -/
def InParamAt (buf token : CString) (filescan : Nat) (s : FillScan) : Prop :=
  s.state.inParam = true →
    ∃ start, s.paramStart = some start ∧ MarkedTable.TokenAt buf token start filescan

/-- The copies that are left. -/
def copiesLeft (copy : Nat → Bool) (token : CString) (cs : List UInt8) (s : FillScan) : Argv :=
  storeAll (numbered copy s.ended (paramTable.tokens s.state token cs)) s.argv

theorem fillChar_step (copy : Nat → Bool) {buf token : CString} {filescan : Nat} {s : FillScan}
    (at' : InParamAt buf token filescan s) (le : filescan ≤ buf.length) (c : UInt8) :
    ∃ s' token', fillChar copy buf filescan c s = (.ok, s') ∧
      (∀ cs, copiesLeft copy token (c :: cs) s = copiesLeft copy token' cs s') ∧
      ∀ rest, buf.drop filescan = c :: rest → InParamAt buf token' (filescan + 1) s' := by
  rw [fillChar]
  cases mark : paramTable.mark s.state c with
  | start =>
    have same : (parserStates s.state c).2 = .start := mark
    simp only [same]
    refine ⟨_, [c], rfl, fun cs => ?_, fun rest here _ => ?_⟩
    · rw [copiesLeft, MarkedTable.tokens_start _ mark]
      rfl
    · exact ⟨filescan, rfl, MarkedTable.tokenAt_start here⟩
  | stop =>
    have same : (parserStates s.state c).2 = .stop := mark
    obtain ⟨inside, outside⟩ := paramTable.stop_inside _ _ mark
    obtain ⟨start, known, token'⟩ := at' inside
    simp only [same, known]
    refine ⟨_, [], rfl, fun cs => ?_, fun rest here within => ?_⟩
    · rw [copiesLeft, MarkedTable.tokens_stop _ mark, numbered, List.zipIdx_cons,
        dupParam_token _ _ token' le]
      rfl
    · exact absurd (within.symm.trans outside) (by decide)
  | none =>
    have same : (parserStates s.state c).2 = .none := mark
    simp only [same]
    refine ⟨_, token ++ [c], rfl, fun cs => ?_, fun rest here within => ?_⟩
    · rw [copiesLeft, MarkedTable.tokens_none _ mark]
      rfl
    · have inside : s.state.inParam = true :=
        (paramTable.keep_inside _ _ mark).symm.trans within
      obtain ⟨start, known, token'⟩ := at' inside
      exact ⟨start, known, token'.next here⟩

theorem fillLoop_eq (copy : Nat → Bool) {buf token : CString} {filescan : Nat} {s : FillScan}
    (rest : List UInt8) (at' : InParamAt buf token filescan s) (here : buf.drop filescan = rest)
    (le : filescan ≤ buf.length) :
    fillLoop copy buf filescan rest s = (.ok, copiesLeft copy token (untilNul rest) s) := by
  induction rest generalizing filescan s token with
  | nil =>
    obtain ⟨s', token', step, left, -⟩ := fillChar_step copy at' le 0
    have last : untilNul [] = [0] := rfl
    rw [fillLoop, step, last, left]
    rfl
  | cons c rest ih =>
    obtain ⟨s', token', step, left, next⟩ := fillChar_step copy at' le c
    rw [fillLoop, step]
    by_cases nul : c = 0
    · subst nul
      rw [if_pos (.inr rfl), untilNul_nul, left]
      rfl
    · have more : filescan + 1 ≤ buf.length := by
        have length := congrArg List.length here
        rw [List.length_drop, List.length_cons] at length
        omega
      rw [if_neg (by simp [nul]), untilNul_cons nul, left]
      exact ih (next rest here) (MarkedTable.drop_succ here) more

/-- `get_params_list` copies the parameters of the file. -/
theorem getParamsList_ok (copy : Nat → Bool) (content : List UInt8) (a : Argv) :
    getParamsList .ok copy content a =
      (.ok, storeAll (numbered copy 0
        (fileTokens (content.take (content.length % wordSize)))) a) := by
  rw [getParamsList, coOsFileLoad, if_pos rfl]
  generalize content.take (content.length % wordSize) = buf
  simp only [ne_eq, not_true_eq_false, if_false]
  split
  · exact fillLoop_eq copy buf (fun within => by cases within) List.drop_zero (Nat.zero_le _)
  · next empty =>
    have none : buf = [] := List.length_eq_zero_iff.mp (Nat.eq_zero_of_not_pos empty)
    subst none
    rfl

/-! ## The passes over the arguments -/

/-- A statement about some argument of a list: the first, or one of the others. -/
theorem exists_argument_cons {α : Type} {P : Nat → α → Prop} (a : α) (as : List α) :
    (∃ i b, (a :: as)[i]? = some b ∧ P i b) ↔ P 0 a ∨ ∃ i b, as[i]? = some b ∧ P (i + 1) b := by
  constructor
  · rintro ⟨i, b, here, h⟩
    cases i with
    | zero =>
      cases here
      exact .inl h
    | succ i => exact .inr ⟨i, b, here, h⟩
  · rintro (h | ⟨i, b, here, h⟩)
    · exact ⟨0, a, rfl, h⟩
    · exact ⟨i + 1, b, here, h⟩

variable {h : ParamAnswers} {files : CString → List UInt8}

theorem add_succ_shift (i k : Nat) : i + (k + 1) = i + 1 + k := by omega

theorem countFails_cons (i : Nat) (arg : CText) (args : List CText) :
    CountFails h i (arg :: args) ↔
      (IsFile arg ∧ h.countLoad i ≠ .ok) ∨ CountFails h (i + 1) args := by
  rw [CountFails, exists_argument_cons]
  refine or_congr Iff.rfl (exists_congr fun k => ?_)
  rw [add_succ_shift]

theorem fillFails_cons (i : Nat) (arg : CText) (args : List CText) :
    FillFails h i (arg :: args) ↔
      (if IsFile arg then h.fillLoad i ≠ .ok else h.copy i 0 = false) ∨
        FillFails h (i + 1) args := by
  rw [FillFails, exists_argument_cons]
  refine or_congr Iff.rfl (exists_congr fun k => ?_)
  rw [add_succ_shift]

theorem expandParams_cons (arg : CText) (args : List CText) :
    expandParams files (arg :: args) =
      (if IsFile arg then fileTokens (fileOf files arg) else [arg.val]) ++
        expandParams files args := List.flatMap_cons

theorem countArguments_file {arg : CText} (args : List CText) {i : Nat} (count : Nat)
    (file : IsFile arg) (ok : h.countLoad i = .ok) :
    countArguments h files i count (arg :: args) = countArguments h files (i + 1)
      (count + (fileTokens (fileOf (loadedFiles files) arg)).length) args := by
  have length : (if 0 < (fileOf (loadedFiles files) arg).length then
      countLoop .init count (fileOf (loadedFiles files) arg) else count) =
      count + (fileTokens (fileOf (loadedFiles files) arg)).length := by
    split
    · exact countLoop_eq .init count [] _
    · next empty =>
      rw [List.length_eq_zero_iff.mp (Nat.eq_zero_of_not_pos empty)]
      rfl
  have loaded : coOsFileLoad (h.countLoad i) (fileOf files arg) =
      (.ok, fileOf (loadedFiles files) arg) := by
    rw [coOsFileLoad, if_pos ok]
    rfl
  rw [countArguments, if_pos file, loaded]
  simp only [ne_eq, not_true_eq_false, if_false, length]

theorem countArguments_refused {arg : CText} (args : List CText) {i : Nat} (count : Nat)
    (file : IsFile arg) (fails : h.countLoad i ≠ .ok) :
    countArguments h files i count (arg :: args) = (h.countLoad i, count) := by
  rw [countArguments, if_pos file, coOsFileLoad, if_neg fails]
  exact if_pos fails

/-- The first pass counts the parameters of what is loaded. -/
theorem countArguments_eq (args : List CText) (i count : Nat) :
    (¬ CountFails h i args → countArguments h files i count args =
      (.ok, count + (expandParams (loadedFiles files) args).length)) ∧
    (CountFails h i args → (countArguments h files i count args).1 ≠ .ok) := by
  induction args generalizing i count with
  | nil =>
    refine ⟨fun _ => rfl, ?_⟩
    rintro ⟨k, arg, no, -⟩
    cases no
  | cons arg args ih =>
    rw [expandParams_cons, List.length_append, ← Nat.add_assoc, countFails_cons]
    by_cases file : IsFile arg
    · by_cases ok : h.countLoad i = .ok
      · have first : ¬ (IsFile arg ∧ h.countLoad i ≠ .ok) := fun fails => fails.2 ok
        rw [countArguments_file args count file ok, if_pos file, or_iff_right first]
        exact ih (i + 1) _
      · rw [countArguments_refused args count file ok]
        exact ⟨fun no => absurd (.inl ⟨file, ok⟩) no, fun _ => ok⟩
    · have first : ¬ (IsFile arg ∧ h.countLoad i ≠ .ok) := fun fails => file fails.1
      rw [countArguments, if_neg file, if_neg file, or_iff_right first]
      exact ih (i + 1) _

/-- What a step of the second pass leaves: the copies that were made, and an error if the step
failed. -/
structure Filled (ps : List (CString × Bool)) (fails : Prop) (a : Argv) (r : Step Argv) : Prop where
  rc : r.1 = .ok ↔ ¬ fails
  stored : r.2.stored = (storeAll ps a).stored
  outside : r.2.outside = (storeAll ps a).outside
  refused : r.2.refused = true ↔ (storeAll ps a).refused = true ∨ fails

theorem fillArguments_filled (args : List CText) (i : Nat) (a : Argv) :
    Filled (copiesFrom h (loadedFiles files) i args) (FillFails h i args) a
      (fillArguments h files i args a) := by
  induction args generalizing i a with
  | nil =>
    have none : ¬ FillFails h i [] := by
      rintro ⟨k, arg, no, -⟩
      cases no
    exact ⟨iff_of_true rfl none, rfl, rfl, (or_iff_left none).symm⟩
  | cons arg args ih =>
    rw [fillArguments, copiesFrom, fillFails_cons]
    by_cases file : IsFile arg
    · rw [if_pos file, if_pos file, if_pos file]
      by_cases ok : h.fillLoad i = .ok
      · rw [if_pos ok, ok, getParamsList_ok, or_iff_right (fun fails => fails rfl)]
        obtain ⟨rc, stored, outside, refused⟩ := ih (i + 1)
          (storeAll (numbered (h.copy i) 0 (fileTokens (fileOf (loadedFiles files) arg))) a)
        refine ⟨rc, ?_, ?_, ?_⟩
        · rw [storeAll_append]
          exact stored
        · rw [storeAll_append]
          exact outside
        · rw [storeAll_append]
          exact refused
      · have refuses : getParamsList (h.fillLoad i) (h.copy i) (fileOf files arg) a =
            (h.fillLoad i, { a with refused := true }) := by
          rw [getParamsList, coOsFileLoad, if_neg ok]
          exact if_pos ok
        rw [if_neg ok, refuses]
        simp only [ne_eq, ok, not_false_eq_true, if_true, true_or]
        exact ⟨iff_of_false ok (fun no => no trivial), rfl, rfl, iff_of_true rfl (.inr trivial)⟩
    · rw [if_neg file, if_neg file, if_neg file]
      cases granted : h.copy i 0 with
      | true =>
        rw [or_iff_right (by decide)]
        obtain ⟨rc, stored, outside, refused⟩ :=
          ih (i + 1) (dupParam true arg.val 0 arg.val.length a)
        exact ⟨rc, stored, outside, refused⟩
      | false =>
        have failed : CoRc.outOfMemory ≠ .ok := by decide
        exact ⟨iff_of_false failed fun no => no (.inl rfl), rfl, rfl,
          iff_of_true rfl (.inr (.inl rfl))⟩

/-! ## The array -/

/-- What the copies leave in the array. -/
theorem storeAll_eq (ps : List (CString × Bool)) (a : Argv) :
    (storeAll ps a).stored = a.stored ++ (ps.filter Prod.snd).map Prod.fst ∧
      ((storeAll ps a).refused = false ↔ a.refused = false ∧ ∀ p ∈ ps, p.2 = true) ∧
      ((storeAll ps a).outside = false ↔
        a.outside = false ∧ FitsArray a.bytes a.stored.length (ps.map Prod.snd)) := by
  induction ps generalizing a with
  | nil =>
    refine ⟨(List.append_nil _).symm, ?_, (and_iff_left trivial).symm⟩
    exact (and_iff_left fun p mem => absurd mem List.not_mem_nil).symm
  | cons p ps ih =>
    obtain ⟨text, granted⟩ := p
    obtain ⟨stored, refused, outside⟩ := ih (dupParam granted text 0 text.length a)
    have first : storeAll ((text, granted) :: ps) a =
        storeAll ps (dupParam granted text 0 text.length a) := rfl
    have whole : (text.drop 0).take (text.length - 0) = text := by simp
    rw [first, stored, refused, outside]
    cases granted with
    | true =>
      simp only [dupParam, whole, if_true, List.filter_cons, List.map_cons, FitsArray,
        List.append_assoc, List.singleton_append, List.forall_mem_cons, true_and,
        List.length_append, List.length_singleton, Bool.or_eq_false_iff, decide_eq_false_iff_not,
        Nat.not_lt, Nat.le_refl, and_true, and_assoc]
    | false =>
      simp only [dupParam, Bool.false_eq_true, if_false, List.filter_cons, List.map_cons,
        FitsArray, List.forall_mem_cons, false_and, and_false, Bool.or_eq_false_iff,
        decide_eq_false_iff_not, Nat.not_lt, Nat.le_refl, and_true, and_assoc, reduceCtorEq]

/-- If no failure is reported, the copies are those of the expansion. -/
theorem copiesFrom_texts (args : List CText) (i : Nat) (ok : ¬ FillFails h i args)
    (granted : ∀ p ∈ copiesFrom h files i args, p.2 = true) :
    ((copiesFrom h files i args).filter Prod.snd).map Prod.fst = expandParams files args := by
  rw [List.filter_eq_self.mpr granted]
  induction args generalizing i with
  | nil => rfl
  | cons arg args ih =>
    rw [fillFails_cons, not_or] at ok
    rw [copiesFrom] at granted ⊢
    rw [expandParams_cons]
    by_cases file : IsFile arg
    · rw [if_pos file] at ok granted ⊢
      rw [if_pos file]
      have loaded : h.fillLoad i = .ok := Classical.not_not.mp ok.1
      rw [if_pos loaded] at granted ⊢
      have texts : (numbered (h.copy i) 0 (fileTokens (fileOf files arg))).map Prod.fst =
          fileTokens (fileOf files arg) := by
        rw [numbered, List.map_map]
        exact List.zipIdx_map_fst 0 _
      rw [List.map_append, texts, ih (i + 1) ok.2 fun p mem =>
        granted p (List.mem_append_right _ mem)]
    · rw [if_neg file] at ok granted ⊢
      rw [if_neg file]
      have copied : h.copy i 0 = true := Bool.not_eq_false _ ▸ ok.1
      rw [copied] at granted ⊢
      simp only [if_true] at granted ⊢
      rw [List.map_cons, ih (i + 1) ok.2 fun p mem => granted p (List.mem_cons_of_mem _ mem)]
      rfl

/-! ## The evaluation -/

/-- Nothing was stored, and an error is returned. -/
theorem paramsEvaluated_early {r : EvaluatedParams} {args : List CText} (failed : r.rc ≠ .ok)
    (refused : r.argv.refused = true) (inside : r.argv.outside = false) :
    ParamsEvaluated files args r := by
  refine ⟨fun ok => absurd ok failed, fun ok => absurd ok failed, fun _ => failed, fun none => ?_,
    inside⟩
  rw [refused] at none
  cases none

/-- The second pass. -/
theorem paramsEvaluated_fill (args : List CText) {n : Nat}
    (counted : n = (expandParams (loadedFiles files) args).length) :
    let r := fillArguments h files 0 args ⟨4 * n % wordSize, [], false, false⟩
    ParamsEvaluated files args ⟨r.1, n, r.2⟩ ↔
      FitsArray (4 * n % wordSize) 0 ((copiesFrom h (loadedFiles files) 0 args).map Prod.snd) ∧
        (¬ FillFails h 0 args → (∀ p ∈ copiesFrom h (loadedFiles files) 0 args, p.2 = true) ∧
          expandParams (loadedFiles files) args = expandParams files args) := by
  intro r
  have filled : Filled _ _ _ r := fillArguments_filled args 0 ⟨4 * n % wordSize, [], false, false⟩
  obtain ⟨rc, stored, outside, refused⟩ := filled
  obtain ⟨texts, answers, places⟩ := storeAll_eq (copiesFrom h (loadedFiles files) 0 args)
    ⟨4 * n % wordSize, [], false, false⟩
  rw [texts, List.nil_append] at stored
  rw [← outside] at places
  have room : r.2.outside = false ↔ FitsArray (4 * n % wordSize) 0
      ((copiesFrom h (loadedFiles files) 0 args).map Prod.snd) :=
    places.trans (and_iff_right rfl)
  have all := answers.trans (and_iff_right rfl)
  by_cases fails : FillFails h 0 args
  · have failed : r.1 ≠ .ok := fun ok => rc.mp ok fails
    rw [← room]
    constructor
    · intro evaluated
      exact ⟨evaluated.inside, fun ok => absurd fails ok⟩
    · rintro ⟨inside, -⟩
      exact paramsEvaluated_early failed (refused.mpr (.inr fails)) inside
  · have ok : r.1 = .ok := rc.mpr fails
    rw [← room]
    constructor
    · intro evaluated
      have none : (storeAll (copiesFrom h (loadedFiles files) 0 args)
          ⟨4 * n % wordSize, [], false, false⟩).refused = false :=
        Bool.eq_false_iff.mpr fun some => evaluated.refused (refused.mpr (.inl some)) ok
      have granted := all.mp none
      refine ⟨evaluated.inside, fun _ => ⟨granted, ?_⟩⟩
      rw [← copiesFrom_texts args 0 fails granted, ← stored]
      exact evaluated.expanded ok
    · rintro ⟨inside, complete⟩
      obtain ⟨granted, same⟩ := complete fails
      rw [copiesFrom_texts args 0 fails granted] at stored
      have none : r.2.refused ≠ true := by
        intro some
        rcases refused.mp some with refused | fails'
        · rw [all.mpr granted] at refused
          cases refused
        · exact fails fails'
      refine ⟨fun _ => ?_, fun _ => stored.trans same, fun some => absurd some none, fun _ => ok,
        inside⟩
      rw [stored]
      exact counted

/-- The evaluation gives the expansion or an error if the array is not too large to be counted, no
copy of a parameter is refused without another failure, and the files are loaded whole. -/
theorem paramsEvaluated_iff (h : ParamAnswers) (files : CString → List UInt8)
    (args : List CText) :
    ParamsEvaluated files args (evalParamsFile h files args) ↔ ParamsComplete h files args := by
  obtain ⟨counts, fails⟩ := @countArguments_eq h files args 0 0
  rw [evalParamsFile]
  by_cases first : CountFails h 0 args
  · have failed := fails first
    simp only [ne_eq, failed, not_false_eq_true, if_true]
    refine iff_of_true (paramsEvaluated_early failed rfl rfl) ⟨fun starts => ?_, fun starts => ?_⟩
    · exact absurd first starts.1
    · exact absurd first starts.1
  · simp only [counts first, ne_eq, not_true_eq_false, if_false, Nat.zero_add]
    cases argv : h.argv with
    | false =>
      have failed : CoRc.outOfMemory ≠ .ok := by decide
      refine iff_of_true (paramsEvaluated_early failed rfl rfl)
        ⟨fun starts => ?_, fun starts => ?_⟩
      · exact absurd (argv.symm.trans starts.2) (by decide)
      · exact absurd (argv.symm.trans starts.2) (by decide)
    | true =>
      refine (paramsEvaluated_fill args rfl).trans ?_
      constructor
      · rintro ⟨room, complete⟩
        exact ⟨fun _ => room, fun _ => complete⟩
      · rintro ⟨room, complete⟩
        exact ⟨room ⟨first, argv⟩, complete ⟨first, argv⟩⟩

/-- The copy of the first of two parameters of a file is refused: the second one is the only
argument, and no error is returned. -/
theorem paramsEvaluated_shorter :
    ¬ ParamsEvaluated (fun _ => CString.ofString "mem=64 root=a")
      [⟨CString.ofString "@f", by decide⟩]
      (evalParamsFile ⟨fun _ => .ok, true, fun _ => .ok, fun _ j => j ≠ 0⟩
        (fun _ => CString.ofString "mem=64 root=a") [⟨CString.ofString "@f", by decide⟩]) := by
  intro all
  exact all.refused (by decide +kernel) (by decide +kernel)

/-- A quoted part keeps its blank, and a comment ends with its line. -/
example : fileTokens (CString.ofString "# text\na=\"b c\" d\n") =
    [CString.ofString "a=\"b c\"", CString.ofString "d"] := by decide +kernel

end CoLinux
